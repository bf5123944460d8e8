import ToyBox.TcpChat.TcpServer

/-! What a step does: one case per kind of step after which the process goes on, with the state it leaves
in closed form, and one per system call whose failure ends it. The invariants of the event loop are proved
from these cases. -/

namespace ToyBox.TcpServer

variable {β : Type}

/-- The bytes a `write` takes of a chunk. -/
def taken (chunk : List β) : Except Errno Nat → List β
  | .ok n => chunk.take n
  | .error _ => []

/-- The sockets after a chunk was written to those of a list of descriptors, but not to its sender. -/
def forwarded (sockets : Fd → Option (Socket β)) (sockFd : Fd) (chunk : List β)
    (writeRes : Fd → Except Errno Nat) (fds : List Fd) : Fd → Option (Socket β) := fun fd =>
  if fd ∈ fds ∧ fd ≠ sockFd then (sockets fd).map (·.write (taken chunk (writeRes fd)))
  else sockets fd

/-- The steps after which the process is still there. -/
inductive Effect (s : TcpServer β) : Label β → TcpServer β → Prop
  | send {fd : Fd} {sock : Socket β} (bytes : List β) (hsock : s.sockets fd = some sock)
      (heof : sock.eof = false) :
      Effect s (.send fd bytes) (s.setSocket fd { sock with inFlight := sock.inFlight ++ bytes })
  | arrive {fd : Fd} {sock : Socket β} {n : Nat} (hsock : s.sockets fd = some sock) (hn : 0 < n)
      (hle : n ≤ sock.inFlight.length) :
      Effect s (.arrive fd n) (s.setSocket fd { sock with
        inFlight := sock.inFlight.drop n
        recvQueue := sock.recvQueue ++ sock.inFlight.take n
        edge := sock.registered })
  | fin {fd : Fd} {sock : Socket β} (hsock : s.sockets fd = some sock) (heof : sock.eof = false)
      (hflight : sock.inFlight = []) :
      Effect s (.fin fd) (s.setSocket fd { sock with eof := true, edge := sock.registered })
  | reset {fd : Fd} {sock : Socket β} (hsock : s.sockets fd = some sock) :
      Effect s (.reset fd) (s.setSocket fd { sock with
        inFlight := []
        eof := true
        edge := sock.registered })
  | stop : Effect s .stop { s with isStop := true }
  | epollWait {fds : List Fd} (hbatch : s.epollEvents = []) (hnodup : fds.Nodup)
      (hready : ∀ fd ∈ fds, fd = s.listenSockfd ∨
        ∃ sock, s.sockets fd = some sock ∧ sock.registered = true ∧ sock.edge = true) :
      Effect s (.epollWait (.ok fds)) { s.clearEdges fds with epollEvents := fds }
  | accept {fds : List Fd} {conn : Accepted β} (hbatch : s.epollEvents = s.listenSockfd :: fds)
      (hlisten : conn.connFd ≠ s.listenSockfd) (hfresh : s.sockets conn.connFd = none)
      (heof : conn.eof = true → conn.inFlight = []) :
      Effect s (.accept (.ok conn) (.ok ()) (.ok ())) { s with
        epollEvents := fds
        sockFdToClientAddr := s.sockFdToClientAddr.insert conn.connFd conn.cliAddress
        sockets := Function.update s.sockets conn.connFd (some { conn with
          registered := true
          edge := !conn.recvQueue.isEmpty || conn.eof }) }
  | again {fd : Fd} {fds : List Fd} {sock : Socket β} (writeRes : Fd → Except Errno Nat)
      (hbatch : s.epollEvents = fd :: fds) (hlisten : fd ≠ s.listenSockfd)
      (hsock : s.sockets fd = some sock) (hread : sock.readable = false) :
      Effect s (.message (.error .eagain) writeRes) { s with epollEvents := fds }
  | disconnect {fd : Fd} {fds : List Fd} {sock : Socket β} (writeRes : Fd → Except Errno Nat)
      (hbatch : s.epollEvents = fd :: fds) (hlisten : fd ≠ s.listenSockfd)
      (hsock : s.sockets fd = some sock) (hqueue : sock.recvQueue = []) (heof : sock.eof = true) :
      Effect s (.message (.ok 0) writeRes) { s with
        epollEvents := fds
        sockFdToClientAddr := s.sockFdToClientAddr.erase fd
        sockets := Function.update s.sockets fd none }
  | message {fd : Fd} {fds : List Fd} {sock : Socket β} {nbytes : Nat}
      {writeRes : Fd → Except Errno Nat}
      (hbatch : s.epollEvents = fd :: fds) (hlisten : fd ≠ s.listenSockfd)
      (hsock : s.sockets fd = some sock) (hpos : 0 < nbytes) (hbuffer : nbytes ≤ kReadBufferSize)
      (hle : nbytes ≤ sock.recvQueue.length)
      (hwrite : ∀ fd' ∈ s.sockFdToClientAddr.keys, fd' ≠ fd →
        ∃ n, writeRes fd' = .ok n ∧ 0 < n ∧ n ≤ nbytes) :
      Effect s (.message (.ok nbytes) writeRes) { s with
        epollEvents := fds
        sockets := forwarded
          (Function.update s.sockets fd (some { sock with recvQueue := sock.recvQueue.drop nbytes }))
          fd (sock.recvQueue.take nbytes) writeRes s.sockFdToClientAddr.keys }

theorem isReady_iff {s : TcpServer β} {fd : Fd} :
    s.isReady fd = true ↔ fd = s.listenSockfd ∨
      ∃ sock, s.sockets fd = some sock ∧ sock.registered = true ∧ sock.edge = true := by
  rw [isReady, Bool.or_eq_true, decide_eq_true_eq]
  cases s.sockets fd with
  | none => simp
  | some sock => simp

/-- Some `write` of the loop fails; one to a descriptor that is not open does. -/
def WriteFails (s : TcpServer β) (sockFd : Fd) (writeRes : Fd → Except Errno Nat) (fds : List Fd) :
    Prop :=
  ∃ fd ∈ fds, fd ≠ sockFd ∧ ((∃ e, writeRes fd = .error e) ∨ s.sockets fd = none)

/-- The steps in which a failing system call ends the process. -/
inductive Exits (s : TcpServer β) : Label β → TcpServer β → Prop
  | epollWait (e : Errno) : Exits s (.epollWait (.error e)) s.exit
  | accept {fds : List Fd} (e : Errno) (fcntlRes epollCtlRes : Except Errno Unit)
      (hbatch : s.epollEvents = s.listenSockfd :: fds) :
      Exits s (.accept (.error e) fcntlRes epollCtlRes) { s with epollEvents := fds }.exit
  | register {fds : List Fd} {conn : Accepted β} {fcntlRes epollCtlRes : Except Errno Unit}
      (hbatch : s.epollEvents = s.listenSockfd :: fds)
      (hfails : ¬(fcntlRes = .ok () ∧ epollCtlRes = .ok ())) :
      Exits s (.accept (.ok conn) fcntlRes epollCtlRes) (exit { s with
        epollEvents := fds
        sockFdToClientAddr := s.sockFdToClientAddr.insert conn.connFd conn.cliAddress
        sockets := Function.update s.sockets conn.connFd (some { conn with }) })
  | read {fd : Fd} {fds : List Fd} {readRes : Except Errno Nat} (writeRes : Fd → Except Errno Nat)
      (hbatch : s.epollEvents = fd :: fds) (hlisten : fd ≠ s.listenSockfd)
      (hfails : s.sockets fd = none ∨ readRes = .error .other) :
      Exits s (.message readRes writeRes) { s with epollEvents := fds }.exit
  | write {fd : Fd} {fds : List Fd} {sock : Socket β} {nbytes : Nat}
      {writeRes : Fd → Except Errno Nat} {s₁ : TcpServer β}
      (hbatch : s.epollEvents = fd :: fds) (hlisten : fd ≠ s.listenSockfd)
      (hsock : s.sockets fd = some sock) (hpos : 0 < nbytes) (hle : nbytes ≤ sock.recvQueue.length)
      (hs₁ : s₁ = setSocket { s with epollEvents := fds } fd
        { sock with recvQueue := sock.recvQueue.drop nbytes })
      (hfails : WriteFails s fd writeRes s.sockFdToClientAddr.keys)
      (hexit : (forward fd (sock.recvQueue.take nbytes) writeRes s.sockFdToClientAddr.keys s₁).exited = true) :
      Exits s (.message (.ok nbytes) writeRes)
        (forward fd (sock.recvQueue.take nbytes) writeRes s.sockFdToClientAddr.keys s₁)

theorem Exits.exited {s s' : TcpServer β} {label : Label β} (h : Exits s label s') :
    s'.exited = true := by
  cases h with
  | write _ _ _ _ _ _ _ hexit => exact hexit
  | _ => rfl

theorem Effect.exited_eq {s s' : TcpServer β} {label : Label β} (h : Effect s label s') :
    s'.exited = s.exited := by
  cases h <;> rfl

/-- Forwarding to distinct descriptors ends the process, or every write succeeds. -/
theorem forward_eq (sockFd : Fd) (chunk : List β) (writeRes : Fd → Except Errno Nat) {fds : List Fd}
    (hnodup : fds.Nodup) (s : TcpServer β) :
    (forward sockFd chunk writeRes fds s).exited = true ∧ WriteFails s sockFd writeRes fds ∨
      (∀ fd ∈ fds, fd ≠ sockFd → ∃ n, writeRes fd = .ok n) ∧
      forward sockFd chunk writeRes fds s =
        { s with sockets := forwarded s.sockets sockFd chunk writeRes fds } := by
  induction fds generalizing s with
  | nil =>
      refine Or.inr ⟨fun fd hfd => absurd hfd List.not_mem_nil, ?_⟩
      have hnone : forwarded s.sockets sockFd chunk writeRes [] = s.sockets := by
        funext fd
        rw [forwarded, if_neg (fun h => absurd h.1 List.not_mem_nil)]
      rw [hnone, forward]
  | cons fd fds ih =>
      obtain ⟨hfd, hnodup⟩ := List.nodup_cons.mp hnodup
      rw [forward]
      by_cases hsender : fd = sockFd
      · rw [if_pos hsender]
        refine (ih hnodup s).imp
          (fun ⟨hexit, fd', hfd', hfails⟩ => ⟨hexit, fd', List.mem_cons_of_mem _ hfd', hfails⟩)
          fun ⟨hok, heq⟩ => ⟨fun fd' hfd' hne => ?_, ?_⟩
        · rcases List.mem_cons.mp hfd' with rfl | hfd'
          · exact absurd hsender hne
          · exact hok fd' hfd' hne
        · rw [heq]
          congr 1
          funext fd'
          have : fd' ∈ fd :: fds ∧ fd' ≠ sockFd ↔ fd' ∈ fds ∧ fd' ≠ sockFd := by
            rw [List.mem_cons, or_and_right]
            exact or_iff_right fun h => h.2 (h.1.trans hsender)
          simp only [forwarded, this]
      · rw [if_neg hsender]
        cases hwrite : writeRes fd with
        | error e => exact Or.inl ⟨rfl, fd, List.mem_cons_self, hsender, Or.inl ⟨e, hwrite⟩⟩
        | ok n =>
            cases hsock : s.sockets fd with
            | none => exact Or.inl ⟨rfl, fd, List.mem_cons_self, hsender, Or.inr hsock⟩
            | some sock =>
                refine (ih hnodup _).imp (fun ⟨hexit, fd', hfd', hne, hfails⟩ =>
                  ⟨hexit, fd', List.mem_cons_of_mem _ hfd', hne, hfails.imp id fun hnone => ?_⟩)
                  fun ⟨hok, heq⟩ => ⟨fun fd' hfd' hne => ?_, ?_⟩
                · have : fd' ≠ fd := fun heq => hfd (heq ▸ hfd')
                  simpa [setSocket, this] using hnone
                · rcases List.mem_cons.mp hfd' with rfl | hfd'
                  · exact ⟨n, hwrite⟩
                  · exact hok fd' hfd' hne
                · refine heq.trans ?_
                  rw [setSocket]
                  congr 1
                  funext fd'
                  by_cases hfd' : fd' = fd
                  · subst hfd'
                    simp [forwarded, hfd, hsender, hsock, hwrite, taken]
                  · simp [forwarded, hfd']

theorem acceptEventHandler_eq {s s' : TcpServer β} {res : Except Errno (Accepted β)}
    {fcntlRes epollCtlRes : Except Errno Unit}
    (h : s.acceptEventHandler res fcntlRes epollCtlRes = some s') :
    (∃ e, res = .error e ∧ s' = s.exit) ∨
    (∃ conn : Accepted β, res = .ok conn ∧ ¬(fcntlRes = .ok () ∧ epollCtlRes = .ok ()) ∧
      s' = exit { s with
        sockFdToClientAddr := s.sockFdToClientAddr.insert conn.connFd conn.cliAddress
        sockets := Function.update s.sockets conn.connFd (some { conn with }) }) ∨
    ∃ conn : Accepted β, res = .ok conn ∧ fcntlRes = .ok () ∧ epollCtlRes = .ok () ∧
      conn.connFd ≠ s.listenSockfd ∧ s.sockets conn.connFd = none ∧
      (conn.eof = true → conn.inFlight = []) ∧
      s' = { s with
        sockFdToClientAddr := s.sockFdToClientAddr.insert conn.connFd conn.cliAddress
        sockets := Function.update s.sockets conn.connFd (some { conn with
          registered := true
          edge := !conn.recvQueue.isEmpty || conn.eof }) } := by
  cases res with
  | error e => exact Or.inl ⟨e, rfl, (Option.some.inj h).symm⟩
  | ok conn =>
      refine Or.inr ?_
      rw [acceptEventHandler] at h
      split at h
      · cases h
      · rename_i hconn
        simp only [not_or, not_and, Bool.not_eq_true, Bool.not_eq_false', List.isEmpty_iff,
          Option.isSome_eq_false_iff, Option.isNone_iff_eq_none] at hconn
        cases fcntlRes with
        | error e => exact Or.inl ⟨conn, rfl, fun hok => (nomatch hok.1), (Option.some.inj h).symm⟩
        | ok _ =>
            cases epollCtlRes with
            | error e => exact Or.inl ⟨conn, rfl, fun hok => (nomatch hok.2), (Option.some.inj h).symm⟩
            | ok _ =>
                refine Or.inr ⟨conn, rfl, rfl, rfl, hconn.1, hconn.2.1, hconn.2.2, ?_⟩
                rw [← Option.some.inj h]
                simp [setSocket, Socket.readable]

theorem clientMsgHandler_eq {s s' : TcpServer β} {fd : Fd} {readRes : Except Errno Nat}
    {writeRes : Fd → Except Errno Nat} (h : s.clientMsgHandler fd readRes writeRes = some s') :
    (s.sockets fd = none ∨ readRes = .error .other) ∧ s' = s.exit ∨ ∃ sock, s.sockets fd = some sock ∧
      ((∃ nbytes, readRes = .ok nbytes ∧ 0 < nbytes ∧ nbytes ≤ sock.recvQueue.length ∧
        WriteFails s fd writeRes s.sockFdToClientAddr.keys ∧ s'.exited = true ∧
        s' = forward fd (sock.recvQueue.take nbytes) writeRes s.sockFdToClientAddr.keys
          (s.setSocket fd { sock with recvQueue := sock.recvQueue.drop nbytes })) ∨
      readRes = .error .eagain ∧ sock.readable = false ∧ s' = s ∨
      readRes = .ok 0 ∧ sock.recvQueue = [] ∧ sock.eof = true ∧
        s' = { s with
          sockFdToClientAddr := s.sockFdToClientAddr.erase fd
          sockets := Function.update s.sockets fd none } ∨
      ∃ nbytes, readRes = .ok nbytes ∧ 0 < nbytes ∧ nbytes ≤ kReadBufferSize ∧
        nbytes ≤ sock.recvQueue.length ∧
        (∀ fd' ∈ s.sockFdToClientAddr.keys, fd' ≠ fd →
          ∃ n, writeRes fd' = .ok n ∧ 0 < n ∧ n ≤ nbytes) ∧
        s' = { s with
          sockets := forwarded
            (Function.update s.sockets fd (some { sock with recvQueue := sock.recvQueue.drop nbytes }))
            fd (sock.recvQueue.take nbytes) writeRes s.sockFdToClientAddr.keys }) := by
  rw [clientMsgHandler] at h
  cases hsock : s.sockets fd with
  | none =>
      rw [hsock] at h
      exact Or.inl ⟨Or.inl rfl, (Option.some.inj h).symm⟩
  | some sock =>
      simp only [hsock] at h
      split at h
      · cases h
      · rename_i hread
        rw [Bool.not_eq_true, Bool.not_eq_false'] at hread
        match readRes, hread, h with
        | .error .eagain, hread, h =>
            rw [readAllowed, Bool.not_eq_true'] at hread
            exact Or.inr ⟨sock, rfl, Or.inr (Or.inl ⟨rfl, hread, (Option.some.inj h).symm⟩)⟩
        | .error .other, _, h => exact Or.inl ⟨Or.inr rfl, (Option.some.inj h).symm⟩
        | .ok 0, hread, h =>
            rw [readAllowed, Bool.and_eq_true, List.isEmpty_iff] at hread
            exact Or.inr ⟨sock, rfl,
              Or.inr (Or.inr (Or.inl ⟨rfl, hread.1, hread.2, (Option.some.inj h).symm⟩))⟩
        | .ok (n + 1), hread, h =>
            simp only [readAllowed, Bool.and_eq_true, decide_eq_true_eq] at hread
            simp only at h
            split at h
            · cases h
            · rename_i hwrites
              rw [Bool.not_eq_true, Bool.not_eq_false', List.all_eq_true] at hwrites
              cases h
              refine Or.inr ⟨sock, rfl, ?_⟩
              rcases forward_eq fd (sock.recvQueue.take (n + 1)) writeRes s.sockFdToClientAddr.nodupKeys
                (s.setSocket fd { sock with recvQueue := sock.recvQueue.drop (n + 1) }) with
                ⟨hexit, fd', hfd', hne, hfails⟩ | ⟨hok, heq⟩
              · refine Or.inl ⟨n + 1, rfl, Nat.succ_pos n, hread.2, ⟨fd', hfd', hne, ?_⟩, hexit, rfl⟩
                exact hfails.imp id fun hnone => by simpa [setSocket, hne] using hnone
              · refine Or.inr (Or.inr (Or.inr ⟨n + 1, rfl, Nat.succ_pos n, hread.1, hread.2, ?_, heq⟩))
                intro fd' hfd' hne
                obtain ⟨m, hm⟩ := hok fd' hfd' hne
                have hallowed := hwrites fd' hfd'
                rw [hm, writeAllowed, Bool.and_eq_true, decide_eq_true_eq, decide_eq_true_eq] at hallowed
                exact ⟨m, hm, hallowed⟩

/-- Every step ends the process or has one of the effects above. -/
theorem effect_of_next {s s' : TcpServer β} {label : Label β} (h : s.next label = some s') :
    Exits s label s' ∨ Effect s label s' := by
  cases label with
  | send fd bytes =>
      obtain ⟨sock, hsock, h⟩ := Option.bind_eq_some_iff.mp h
      split at h
      · cases h
      · rename_i heof
        exact Or.inr (Option.some.inj h ▸ .send bytes hsock (by simpa using heof))
  | arrive fd n =>
      obtain ⟨sock, hsock, h⟩ := Option.bind_eq_some_iff.mp h
      split at h
      · cases h
      · exact Or.inr (Option.some.inj h ▸ .arrive hsock (by omega) (by omega))
  | fin fd =>
      obtain ⟨sock, hsock, h⟩ := Option.bind_eq_some_iff.mp h
      split at h
      · cases h
      · rename_i hfin
        rw [not_or, Bool.not_eq_true, Bool.not_eq_true, Bool.not_eq_false', List.isEmpty_iff] at hfin
        exact Or.inr (Option.some.inj h ▸ .fin hsock hfin.1 hfin.2)
  | reset fd =>
      obtain ⟨sock, hsock, h⟩ := Option.bind_eq_some_iff.mp h
      exact Or.inr (Option.some.inj h ▸ .reset hsock)
  | stop => exact Or.inr (Option.some.inj h ▸ .stop)
  | epollWait res =>
      simp only [next] at h
      split at h
      · cases h
      · rename_i hidle
        rw [not_or, not_not] at hidle
        cases res with
        | error e => exact Or.inl (Option.some.inj h ▸ .epollWait e)
        | ok fds =>
            simp only at h
            split at h
            · rename_i hfds
              exact Or.inr (Option.some.inj h ▸
                .epollWait hidle.2 hfds.2.1 fun fd hfd =>
                  isReady_iff.mp (List.all_eq_true.mp hfds.2.2 fd hfd))
            · cases h
  | accept res fcntlRes epollCtlRes =>
      simp only [next] at h
      cases hbatch : s.epollEvents with
      | nil => simp [hbatch] at h
      | cons fd fds =>
          simp only [hbatch] at h
          split at h
          · rename_i hfd
            subst hfd
            rcases acceptEventHandler_eq h with ⟨e, rfl, rfl⟩ | ⟨conn, rfl, hfails, rfl⟩ |
              ⟨conn, rfl, rfl, rfl, hlisten, hfresh, heof, rfl⟩
            · exact Or.inl (.accept e fcntlRes epollCtlRes hbatch)
            · exact Or.inl (.register hbatch hfails)
            · exact Or.inr (.accept hbatch hlisten hfresh heof)
          · cases h
  | message readRes writeRes =>
      simp only [next] at h
      cases hbatch : s.epollEvents with
      | nil => simp [hbatch] at h
      | cons fd fds =>
          simp only [hbatch] at h
          split at h
          · cases h
          · rename_i hlisten
            rcases clientMsgHandler_eq h with ⟨hfails, rfl⟩ | ⟨sock, hsock,
              ⟨nbytes, rfl, hpos, hle, hfails, hexit, rfl⟩ | ⟨rfl, hread, rfl⟩ |
              ⟨rfl, hqueue, heof, rfl⟩ | ⟨nbytes, rfl, hpos, hbuffer, hle, hwrite, rfl⟩⟩
            · exact Or.inl (.read writeRes hbatch hlisten hfails)
            · exact Or.inl (.write hbatch hlisten hsock hpos hle rfl hfails hexit)
            · exact Or.inr (.again writeRes hbatch hlisten hsock hread)
            · exact Or.inr (.disconnect writeRes hbatch hlisten hsock hqueue heof)
            · exact Or.inr (.message hbatch hlisten hsock hpos hbuffer hle hwrite)

end ToyBox.TcpServer
