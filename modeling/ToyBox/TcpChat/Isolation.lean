import Mathlib.Data.Finset.Basic
import Mathlib.Data.Fintype.EquivFin
import ToyBox.TcpChat.Connections

/-! Client isolation. The handlers answer every error of `accept` and `write`, and every error of `read`
but `EAGAIN`, with `exit(EXIT_FAILURE)`, so one client's failure ends the service for all of them. As long
as no such call fails, a step concerns one client and leaves the others as they are. -/

namespace ToyBox.TcpServer

open Cxx

variable {β : Type} {listenSockfd : Fd}

/-- The listening socket and the epoll instance are healthy. -/
def Healthy (_ : TcpServer β) : Label β → Prop
  | .epollWait (.error _) => False
  | .accept _ fcntlRes epollCtlRes => fcntlRes = .ok () ∧ epollCtlRes = .ok ()
  | _ => True

/-- No call fails because of a client. -/
def NoClientFails (s : TcpServer β) : Label β → Prop
  | .accept (.error _) _ _ => False
  | .message (.error .other) _ => False
  | .message (.ok nbytes) writeRes => nbytes = 0 ∨ ∀ fd fds, s.epollEvents = fd :: fds →
      ∀ fd' ∈ s.sockFdToClientAddr, fd' ≠ fd → ∃ n, writeRes fd' = .ok n
  | _ => True

/-- The client a step is about. -/
def client? (s : TcpServer β) : Label β → Option Fd
  | .send fd _ | .arrive fd _ | .fin fd | .reset fd => some fd
  | .accept (.ok conn) _ _ => some conn.connFd
  | .message _ _ => s.epollEvents.head?
  | .accept (.error _) _ _ | .stop | .epollWait _ => none

/-- A client whose connection is as before, but for what it has been written and for an edge that has been
reported. -/
structure Unaffected (s s' : TcpServer β) (fd : Fd) : Prop where
  address : s'.sockFdToClientAddr.lookup fd = s.sockFdToClientAddr.lookup fd
  pending : fd ∈ s.epollEvents → fd ∈ s'.epollEvents
  socket : ∀ sock, s.sockets fd = some sock → ∃ edge bytes,
    s'.sockets fd = some { sock with edge, written := sock.written ++ bytes } ∧
      (sock.edge = true → edge = true ∨ fd ∈ s'.epollEvents)

theorem Unaffected.of_same {s s' : TcpServer β} {fd : Fd}
    (haddress : s'.sockFdToClientAddr.lookup fd = s.sockFdToClientAddr.lookup fd)
    (hpending : fd ∈ s.epollEvents → fd ∈ s'.epollEvents) (hsocket : s'.sockets fd = s.sockets fd) :
    Unaffected s s' fd where
  address := haddress
  pending := hpending
  socket sock hsock := ⟨sock.edge, [], by rw [List.append_nil, hsocket, hsock], Or.inl⟩

/-- A step that does not end the process leaves every client but its own unaffected. -/
theorem Effect.unaffected {s s' : TcpServer β} {label : Label β} (he : Effect s label s')
    (hs : Consistent s) {fd : Fd} (hfd : fd ∈ s.sockFdToClientAddr) (hclient : s.client? label ≠ some fd) :
    Unaffected s s' fd := by
  have hlisten : fd ≠ s.listenSockfd := by
    rintro rfl
    obtain ⟨sock, hsock⟩ := (hs.mem_table _).mp hfd
    rw [hs.listen] at hsock
    cases hsock
  -- handling the event of another descriptor
  have hrest : ∀ {fd' : Fd} {fds : List Fd}, s.epollEvents = fd' :: fds → fd ≠ fd' →
      fd ∈ s.epollEvents → fd ∈ fds := by
    intro fd' fds hbatch hne hmem
    rw [hbatch] at hmem
    exact (List.mem_cons.mp hmem).resolve_left hne
  cases he with
  | @send fd' | @arrive fd' | @fin fd' | @reset fd' =>
      have hne : fd ≠ fd' := fun h => hclient (congrArg some h.symm)
      exact .of_same rfl id (Function.update_of_ne hne _ _)
  | stop => exact .of_same rfl id rfl
  | @epollWait fds hbatch hnodup hready =>
      refine ⟨rfl, fun hmem => ?_, fun sock hsock => ?_⟩
      · rw [hbatch] at hmem
        exact absurd hmem List.not_mem_nil
      · by_cases hmem : fd ∈ fds
        · refine ⟨false, [], ?_, fun _ => Or.inr hmem⟩
          simp [clearEdges, hsock, hmem]
        · refine ⟨sock.edge, [], ?_, Or.inl⟩
          simp [clearEdges, hsock, hmem]
  | @accept fds conn hbatch _ hfresh heof =>
      have hne : fd ≠ conn.connFd := fun h => hclient (congrArg some h.symm)
      exact .of_same (AList.lookup_insert_ne hne) (hrest hbatch hlisten) (Function.update_of_ne hne _ _)
  | @again fd' fds sock writeRes hbatch =>
      have hne : fd ≠ fd' := fun h => hclient (by rw [client?, hbatch, h]; rfl)
      exact .of_same rfl (hrest hbatch hne) rfl
  | @disconnect fd' fds sock writeRes hbatch =>
      have hne : fd ≠ fd' := fun h => hclient (by rw [client?, hbatch, h]; rfl)
      exact .of_same (AList.lookup_erase_ne hne) (hrest hbatch hne) (Function.update_of_ne hne _ _)
  | @message fd' fds sock nbytes writeRes hbatch =>
      have hne : fd ≠ fd' := fun h => hclient (by rw [client?, hbatch, h]; rfl)
      refine ⟨rfl, hrest hbatch hne, fun sock' hsock' => ?_⟩
      refine ⟨sock'.edge, taken (sock.recvQueue.take nbytes) (writeRes fd), ?_, Or.inl⟩
      simp only [forwarded]
      rw [if_pos ⟨AList.mem_keys.mp hfd, hne⟩, Function.update_of_ne hne, hsock']
      rfl

/-- Without a failing call the process goes on. -/
theorem not_exits {s s' : TcpServer β} {label : Label β} (hs : Consistent s) (hhealthy : Healthy s label)
    (hclients : NoClientFails s label) : ¬Exits s label s' := by
  intro hexit
  have hopen : ∀ fd ∈ s.epollEvents, fd ≠ s.listenSockfd → s.sockets fd ≠ none := by
    intro fd hfd hlisten hnone
    obtain ⟨sock, hsock⟩ := (hs.mem_events fd hfd).resolve_left hlisten
    rw [hnone] at hsock
    cases hsock
  cases hexit with
  | epollWait e => exact hhealthy
  | accept e _ _ hbatch => exact hclients
  | register hbatch hfails => exact hfails hhealthy
  | read writeRes hbatch hlisten hfails =>
      rcases hfails with hnone | rfl
      · exact hopen _ (by simp [hbatch]) hlisten hnone
      · exact hclients
  | write hbatch hlisten hsock hpos hle hs₁ hfails _ =>
      obtain ⟨fd', hfd', hne, hfails⟩ := hfails
      have htable := AList.mem_keys.mpr hfd'
      obtain ⟨n, hn⟩ := (hclients.resolve_left (by omega)) _ _ hbatch fd' htable hne
      obtain ⟨sock', hsock'⟩ := (hs.mem_table fd').mp htable
      rcases hfails with ⟨e, he⟩ | hnone
      · rw [hn] at he
        cases he
      · rw [hsock'] at hnone
        cases hnone

/-- A call that fails because of a client ends the process. -/
theorem exited_of_clientFails {s s' : TcpServer β} {label : Label β} (hclients : ¬NoClientFails s label)
    (h : Exits s label s' ∨ Effect s label s') : s'.exited = true := by
  rcases h with hexit | heffect
  · exact hexit.exited
  · exfalso
    apply hclients
    cases heffect with
    | disconnect => exact Or.inl rfl
    | message hbatch hlisten hsock hpos hbuffer hle hwrite =>
        refine Or.inr fun fd' fds' hbatch' fd'' hfd'' hne => ?_
        cases hbatch.symm.trans hbatch'
        obtain ⟨n, hn, -⟩ := hwrite fd'' (AList.mem_keys.mp hfd'') hne
        exact ⟨n, hn⟩
    | _ => trivial

/-- Forwarding succeeds when every `write` does. -/
theorem forward_of_writes (s : TcpServer β) (sockFd : Fd) (chunk : List β)
    {writeRes : Fd → Except Errno Nat} {fds : List Fd} (hnodup : fds.Nodup)
    (hwrites : ∀ fd ∈ fds, fd ≠ sockFd →
      (∃ n, writeRes fd = .ok n) ∧ ∃ sock, s.sockets fd = some sock) :
    forward sockFd chunk writeRes fds s =
      { s with sockets := forwarded s.sockets sockFd chunk writeRes fds } := by
  rcases forward_eq sockFd chunk writeRes hnodup s with ⟨-, fd, hfd, hne, hfails⟩ | ⟨-, heq⟩
  · obtain ⟨⟨n, hn⟩, sock, hsock⟩ := hwrites fd hfd hne
    simp [hn, hsock] at hfails
  · exact heq

/-- The event of an open socket can be handled with every call successful. -/
theorem exists_clientMsgHandler {s : TcpServer β} {fd : Fd} {sock : Socket β}
    (hopen : ∀ fd ∈ s.sockFdToClientAddr, ∃ sock, s.sockets fd = some sock)
    (hsock : s.sockets fd = some sock) :
    ∃ readRes nbytes s', readRes ≠ .error .other ∧
      s.clientMsgHandler fd readRes (fun _ => .ok nbytes) = some s' ∧ s'.epollEvents = s.epollEvents := by
  by_cases hqueue : sock.recvQueue = []
  · cases heof : sock.eof with
    | false =>
        refine ⟨.error .eagain, 0, s, by simp, ?_, rfl⟩
        simp [clientMsgHandler, hsock, readAllowed, Socket.readable, hqueue, heof]
    | true =>
        refine ⟨.ok 0, 0, { s with
          sockFdToClientAddr := s.sockFdToClientAddr.erase fd
          sockets := Function.update s.sockets fd none }, by simp, ?_, rfl⟩
        simp [clientMsgHandler, hsock, readAllowed, hqueue, heof]
  · have hpos : 0 < sock.recvQueue.length := List.length_pos_iff.mpr hqueue
    obtain ⟨n, hn⟩ : ∃ n, min kReadBufferSize sock.recvQueue.length = n + 1 :=
      Nat.exists_eq_succ_of_ne_zero (by rw [kReadBufferSize]; omega)
    have hallowed : readAllowed sock (.ok (n + 1)) = true := by
      simp only [readAllowed, Bool.and_eq_true, decide_eq_true_eq]
      omega
    let s₁ : TcpServer β := s.setSocket fd { sock with recvQueue := sock.recvQueue.drop (n + 1) }
    let chunk := sock.recvQueue.take (n + 1)
    let writeRes : Fd → Except Errno Nat := fun _ => .ok (n + 1)
    have hforward : forward fd chunk writeRes s.sockFdToClientAddr.keys s₁ =
        { s₁ with sockets := forwarded s₁.sockets fd chunk writeRes s.sockFdToClientAddr.keys } := by
      apply forward_of_writes s₁ fd chunk s.sockFdToClientAddr.nodupKeys
      intro fd' hfd' hne
      obtain ⟨sock', hsock'⟩ := hopen fd' (AList.mem_keys.mpr hfd')
      exact ⟨⟨n + 1, rfl⟩, sock', by simp [s₁, setSocket, hne, hsock']⟩
    refine ⟨.ok (n + 1), n + 1, forward fd chunk writeRes s.sockFdToClientAddr.keys s₁, by simp, ?_, ?_⟩
    · rw [clientMsgHandler, hsock]
      simp [hallowed, writeAllowed, s₁, chunk, writeRes]
    · rw [hforward]
      rfl

/-- While the process runs, the next event of the batch can be handled. -/
theorem exists_step_of_event {s : TcpServer β} (hs : Consistent s) (hrun : s.exited = false) {fd : Fd}
    {fds : List Fd} (hbatch : s.epollEvents = fd :: fds) :
    ∃ label s', Healthy s label ∧ NoClientFails s label ∧
      (system β listenSockfd).step s label = some s' ∧ s'.epollEvents = fds := by
  have hstep : ∀ label, (system β listenSockfd).step s label = s.next label := fun label => by
    simp only [system, hrun, Bool.false_eq_true, if_false]
  simp only [hstep]
  by_cases hlisten : fd = s.listenSockfd
  · obtain ⟨connFd, hconnFd⟩ :=
      Infinite.exists_notMem_finset (insert s.listenSockfd s.sockFdToClientAddr.keys.toFinset)
    rw [Finset.mem_insert, not_or, List.mem_toFinset, ← AList.mem_keys, hs.mem_table, not_exists] at hconnFd
    have hfresh : s.sockets connFd = none := Option.eq_none_iff_forall_ne_some.mpr hconnFd.2
    let conn : Accepted β := { connFd, cliAddress := [] }
    have hnext : ∃ s', s.next (.accept (.ok conn) (.ok ()) (.ok ())) = some s' ∧ s'.epollEvents = fds := by
      simp [next, hbatch, hlisten, acceptEventHandler, conn, hfresh, hconnFd.1, setSocket]
    obtain ⟨s', hnext, hfds⟩ := hnext
    exact ⟨.accept (.ok conn) (.ok ()) (.ok ()), s', ⟨rfl, rfl⟩, trivial, hnext, hfds⟩
  · obtain ⟨sock, hsock⟩ := (hs.mem_events fd (by simp [hbatch])).resolve_left hlisten
    obtain ⟨readRes, nbytes, s', hread, hnext, hfds⟩ :=
      exists_clientMsgHandler (s := { s with epollEvents := fds }) (fun fd => (hs.mem_table fd).mp) hsock
    refine ⟨.message readRes fun _ => .ok nbytes, s', trivial, ?_, ?_, hfds⟩
    · cases readRes with
      | error errno =>
          cases errno with
          | eagain => trivial
          | other => exact absurd rfl hread
      | ok n => exact Or.inr fun _ _ _ _ _ _ => ⟨nbytes, rfl⟩
    · simpa only [next, hbatch, if_neg hlisten] using hnext

/-- In a run in which no call fails because of a client, the process goes on, a step leaves every client
but its own unaffected, and the event loop gets past every event. The first failure of such a call ends
the process. -/
theorem isolated_reachableBy (β : Type) (listenSockfd : Fd) :
    (∀ s, (system β listenSockfd).ReachableBy (fun s label => Healthy s label ∧ NoClientFails s label) s →
      s.exited = false ∧
      (∀ label s', Healthy s label → NoClientFails s label →
        (system β listenSockfd).step s label = some s' →
        ∀ fd ∈ s.sockFdToClientAddr, s.client? label ≠ some fd → Unaffected s s' fd) ∧
      ∀ fd fds, s.epollEvents = fd :: fds → ∃ label s', Healthy s label ∧ NoClientFails s label ∧
        (system β listenSockfd).step s label = some s' ∧ s'.epollEvents = fds) ∧
    ∀ s label s', (system β listenSockfd).ReachableBy
        (fun s label => Healthy s label ∧ NoClientFails s label) s → ¬NoClientFails s label →
      (system β listenSockfd).step s label = some s' → s'.exited = true := by
  constructor
  · intro s hs
    have hrun : s.exited = false := by
      refine hs.invariant (P := fun s => s.exited = false) rfl ?_
      rintro s label s' hs hrun ⟨hhealthy, hclients⟩ hstep
      rcases (effect_of_step hstep).2 with hexit | heffect
      · exact absurd hexit (not_exits (consistent_of_reachable hs.reachable hrun) hhealthy hclients)
      · rw [heffect.exited_eq, hrun]
    have hconsistent := consistent_of_reachable hs.reachable hrun
    refine ⟨hrun, fun label s' hhealthy hclients hstep fd hfd hclient => ?_, fun fd fds hbatch =>
      exists_step_of_event hconsistent hrun hbatch⟩
    rcases (effect_of_step hstep).2 with hexit | heffect
    · exact absurd hexit (not_exits hconsistent hhealthy hclients)
    · exact heffect.unaffected hconsistent hfd hclient
  · intro s label s' _ hclients hstep
    exact exited_of_clientFails hclients (effect_of_step hstep).2

/-- A client writes "hi", and another takes a byte of it. -/
def slowSocket : List (Label UInt8) :=
  [.epollWait (.ok [3]),
    .accept (.ok { connFd := 5, cliAddress := ascii "127.0.0.1:4000" }) (.ok ()) (.ok ()),
    .epollWait (.ok [3]),
    .accept (.ok { connFd := 6, cliAddress := ascii "127.0.0.1:4001" }) (.ok ()) (.ok ()),
    .send 5 (ascii "hi"),
    .arrive 5 2,
    .epollWait (.ok [5]),
    .message (.ok 2) fun _ => .ok 1]

theorem isolated_reachableBy_slowSocket :
    ∃ s, (system UInt8 3).run (system UInt8 3).start slowSocket = some s ∧ s.exited = false ∧
      (s.sockets 6).map Socket.written = some (ascii "h") := by
  obtain ⟨s, hrun, hwritten⟩ : ∃ s, (system UInt8 3).run (system UInt8 3).start slowSocket = some s ∧
      (s.sockets 6).map Socket.written = some (ascii "h") := ⟨_, rfl, rfl⟩
  have hguard : ∀ label ∈ slowSocket, ∀ s : TcpServer UInt8, Healthy s label ∧ NoClientFails s label := by
    simp [slowSocket, Healthy, NoClientFails]
  have hisolated := (isolated_reachableBy UInt8 3).1 s (.run .start hguard hrun)
  exact ⟨s, hrun, hisolated.1, hwritten⟩

/-- A client writes "hi" while another has stopped reading, so that its socket takes no more. -/
def fullSocket : List (Label UInt8) :=
  [.epollWait (.ok [3]),
    .accept (.ok { connFd := 5, cliAddress := ascii "127.0.0.1:4000" }) (.ok ()) (.ok ()),
    .epollWait (.ok [3]),
    .accept (.ok { connFd := 6, cliAddress := ascii "127.0.0.1:4001" }) (.ok ()) (.ok ()),
    .send 5 (ascii "hi"),
    .arrive 5 2,
    .epollWait (.ok [5]),
    .message (.ok 2) fun _ => .error .eagain]

/-- The write of "hi" returns `EAGAIN`, which `read` answers by going on and `write` by `exit`. -/
theorem not_isolated_fullSocket :
    ¬∀ s, (system UInt8 3).ReachableBy Healthy s → s.exited = false := by
  intro hisolated
  have hrun : ∃ s, (system UInt8 3).run (system UInt8 3).start fullSocket = some s ∧
      s.exited = true := ⟨_, rfl, rfl⟩
  obtain ⟨s, hs, hexit⟩ := hrun
  have hhealthy : ∀ label ∈ fullSocket, ∀ s : TcpServer UInt8, Healthy s label := by
    simp [fullSocket, Healthy]
  rw [hisolated s (TransitionSystem.ReachableBy.run .start hhealthy hs)] at hexit
  cases hexit

end ToyBox.TcpServer
