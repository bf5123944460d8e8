import ToyBox.TcpChat.Connections

/-! What `write` may take. The forwarding loop looks at the result of a `write` only to see whether it is -1,
so what a short `write` leaves of a chunk is never sent, and a failing one takes the process with it. A
client has been written what the others sent exactly as long as every `write` takes its whole chunk. -/

namespace ToyBox

open Cxx TcpServer

/-- What the event loop has done that decides what a client should have been written. -/
inductive ChatEvent (β : Type) where
  | accept (connFd : Fd)
  | read (sockFd : Fd) (chunk : List β)

/-- The server with what it has done since `Start`. -/
structure Broadcast (β : Type) where
  server : TcpServer β
  events : List (ChatEvent β) := []

namespace Broadcast

variable {β : Type} {listenSockfd : Fd}

/-- What a step adds to the events. -/
def observe (s : TcpServer β) : Label β → List (ChatEvent β)
  | .accept (.ok conn) _ _ => [.accept conn.connFd]
  | .message (.ok nbytes) _ =>
      match s.epollEvents.head?.bind fun fd => (s.sockets fd).map (fd, ·) with
      | some (fd, sock) => if nbytes = 0 then [] else [.read fd (sock.recvQueue.take nbytes)]
      | none => []
  | _ => []

def system (β : Type) (listenSockfd : Fd) : TransitionSystem (Broadcast β) (Label β) where
  start := { server := { listenSockfd } }
  step b label := do
    let server ← (TcpServer.system β listenSockfd).step b.server label
    some { server, events := b.events ++ observe b.server label }

/-- What one more event adds to what a client should have been written. -/
def hear (fd : Fd) (bytes : List β) : ChatEvent β → List β
  | .accept connFd => if connFd = fd then [] else bytes
  | .read sockFd chunk => if sockFd = fd then bytes else bytes ++ chunk

/-- The chunks read from the other clients since a client was accepted, in the order of the reads. -/
def heard (fd : Fd) (events : List (ChatEvent β)) : List β := events.foldl (hear fd) []

/-- Every connected client has been written all that was read from the others. -/
def Delivered (b : Broadcast β) : Prop :=
  ∀ fd sock, b.server.sockets fd = some sock → sock.written = heard fd b.events

/-- Every `write` of a chunk takes all of it. -/
def WritesAll (b : Broadcast β) : Label β → Prop
  | .message (.ok nbytes) writeRes => nbytes = 0 ∨ ∀ fd fds, b.server.epollEvents = fd :: fds →
      ∀ fd' ∈ b.server.sockFdToClientAddr, fd' ≠ fd → writeRes fd' = .ok nbytes
  | _ => True

@[simp] theorem heard_append (fd : Fd) (events events' : List (ChatEvent β)) :
    heard fd (events ++ events') = events'.foldl (hear fd) (heard fd events) := List.foldl_append

theorem server_reachable {guard : Broadcast β → Label β → Prop} {b : Broadcast β}
    (hb : (system β listenSockfd).ReachableBy guard b) :
    (TcpServer.system β listenSockfd).Reachable b.server := by
  refine hb.invariant (P := fun b => (TcpServer.system β listenSockfd).Reachable b.server) .start ?_
  intro b label b' _ hreach _ hstep
  obtain ⟨s', hserver, hstep⟩ := Option.bind_eq_some_iff.mp hstep
  cases hstep
  exact .step hreach trivial hserver

/-- A step after which every open socket has been written what it had been before. -/
theorem Delivered.of_same {b : Broadcast β} (h : Delivered b) {s' : TcpServer β} {label : Label β}
    (hobserve : observe b.server label = [])
    (hsockets : ∀ fd sock', s'.sockets fd = some sock' →
      ∃ sock, b.server.sockets fd = some sock ∧ sock'.written = sock.written) :
    Delivered { server := s', events := b.events ++ observe b.server label } := by
  intro fd sock' hsock'
  obtain ⟨sock, hsock, hwritten⟩ := hsockets fd sock' hsock'
  rw [hwritten, h fd sock hsock, hobserve, List.append_nil]

/-- A step that changes one open socket, and not what it has been written. -/
theorem Delivered.of_update {b : Broadcast β} (h : Delivered b) {label : Label β} {fd : Fd}
    {sock sock' : Socket β} (hobserve : observe b.server label = [])
    (hsock : b.server.sockets fd = some sock) (hwritten : sock'.written = sock.written) :
    Delivered { server := b.server.setSocket fd sock', events := b.events ++ observe b.server label } := by
  apply h.of_same hobserve
  intro fd' sock₁ hsock₁
  rcases update_eq_some hsock₁ with ⟨rfl, rfl⟩ | ⟨-, hsock₁⟩
  · exact ⟨sock, hsock, hwritten⟩
  · exact ⟨sock₁, hsock₁, rfl⟩

/-- A new client has been written nothing and has heard nothing. -/
theorem Delivered.of_accept {b : Broadcast β} (h : Delivered b) {s' : TcpServer β} {label : Label β}
    {connFd : Fd} {conn : Socket β} (hobserve : observe b.server label = [.accept connFd])
    (hsockets : s'.sockets = Function.update b.server.sockets connFd (some conn))
    (hwritten : conn.written = []) :
    Delivered { server := s', events := b.events ++ observe b.server label } := by
  intro fd sock hsock
  rw [hobserve, heard_append, List.foldl_cons, List.foldl_nil, hear]
  simp only [hsockets] at hsock
  rcases update_eq_some hsock with ⟨rfl, rfl⟩ | ⟨hne, hsock⟩
  · rw [if_pos rfl, hwritten]
  · rw [if_neg (Ne.symm hne), h fd sock hsock]

theorem observe_read {s : TcpServer β} {fd : Fd} {fds : List Fd} {sock : Socket β} {nbytes : Nat}
    (hbatch : s.epollEvents = fd :: fds) (hsock : s.sockets fd = some sock) (hpos : 0 < nbytes)
    (writeRes : Fd → Except Errno Nat) :
    observe s (.message (.ok nbytes) writeRes) = [.read fd (sock.recvQueue.take nbytes)] := by
  simp [observe, hbatch, hsock, Nat.ne_of_gt hpos]

/-- A chunk that every other client has been written in full. -/
theorem Delivered.of_message {b : Broadcast β} (h : Delivered b) (hs : Consistent b.server)
    {s' : TcpServer β} {nbytes : Nat} {writeRes : Fd → Except Errno Nat} (hpos : nbytes ≠ 0)
    (hwrites : WritesAll b (.message (.ok nbytes) writeRes))
    (he : Effect b.server (.message (.ok nbytes) writeRes) s') :
    Delivered { server := s', events := b.events ++ observe b.server (.message (.ok nbytes) writeRes) } := by
  cases he with
  | disconnect => exact absurd rfl hpos
  | @message fd fds sock _ _ hbatch _ hsock hlt _ hle _ =>
      intro fd' sock' hsock'
      rw [observe_read hbatch hsock hlt, heard_append, List.foldl_cons, List.foldl_nil, hear]
      simp only [forwarded_eq_map] at hsock'
      obtain ⟨sock₁, hsock₁, rfl⟩ := Option.map_eq_some_iff.mp hsock'
      rcases update_eq_some hsock₁ with ⟨rfl, rfl⟩ | ⟨hne, hsock₁⟩
      · rw [if_pos rfl, if_neg (fun hmem => hmem.2 rfl)]
        exact h fd' sock hsock
      · have htable : fd' ∈ b.server.sockFdToClientAddr := (hs.mem_table fd').mpr ⟨sock₁, hsock₁⟩
        have hwrite := hwrites.resolve_left hpos fd fds hbatch fd' htable hne
        rw [if_neg (Ne.symm hne), if_pos ⟨AList.mem_keys.mp htable, hne⟩, hwrite, taken,
          List.take_of_length_le (List.length_take_le _ _), Socket.write, h fd' sock₁ hsock₁]

theorem Delivered.effect {b : Broadcast β} (h : Delivered b) (hs : Consistent b.server)
    {s' : TcpServer β} {label : Label β} (hwrites : WritesAll b label) (he : Effect b.server label s') :
    Delivered { server := s', events := b.events ++ observe b.server label } := by
  cases id he with
  | send bytes hsock | arrive hsock | fin hsock | reset hsock => exact h.of_update rfl hsock rfl
  | stop | again => exact h.of_same rfl fun fd sock' hsock' => ⟨sock', hsock', rfl⟩
  | epollWait =>
      apply h.of_same rfl
      intro fd sock' hsock'
      obtain ⟨sock, hsock, rfl⟩ := Option.map_eq_some_iff.mp hsock'
      refine ⟨sock, hsock, ?_⟩
      split <;> rfl
  | accept => exact h.of_accept rfl rfl rfl
  | @disconnect fd fds sock writeRes hbatch _ hsock =>
      have hobserve : observe b.server (.message (.ok 0) writeRes) = [] := by
        simp [observe, hbatch, hsock]
      apply h.of_same hobserve
      intro fd' sock' hsock'
      by_cases hfd : fd' = fd
      · simp [hfd] at hsock'
      · exact ⟨sock', by simpa [hfd] using hsock', rfl⟩
  | message _ _ _ hpos => exact h.of_message hs (Nat.ne_of_gt hpos) hwrites he

theorem Delivered.exits {b : Broadcast β} (h : Delivered b) (hs : Consistent b.server)
    {s' : TcpServer β} {label : Label β} (hwrites : WritesAll b label) (he : Exits b.server label s') :
    Delivered { server := s', events := b.events ++ observe b.server label } := by
  cases he with
  | epollWait | accept => exact h.of_same rfl fun fd sock' hsock' => ⟨sock', hsock', rfl⟩
  | register => exact h.of_accept rfl rfl rfl
  | @read fd fds readRes writeRes hbatch hlisten hfails =>
      have hobserve : observe b.server (.message readRes writeRes) = [] := by
        rcases hfails with hnone | rfl
        · cases readRes with
          | error e => rfl
          | ok nbytes => simp [observe, hbatch, hnone]
        · rfl
      exact h.of_same hobserve fun fd sock' hsock' => ⟨sock', hsock', rfl⟩
  | write hbatch hlisten hsock hpos hle hs₁ hfails =>
      obtain ⟨fd', hfd', hne, hfails⟩ := hfails
      have htable := AList.mem_keys.mpr hfd'
      have hwrite := (hwrites.resolve_left (Nat.ne_of_gt hpos)) _ _ hbatch fd' htable hne
      obtain ⟨sock', hsock'⟩ := (hs.mem_table fd').mp htable
      simp [hwrite, hsock'] at hfails

/-! ### Incomplete writes -/

/-- A socket whose `write` fails is left as it was. -/
theorem exists_unwritten {sockFd : Fd} (chunk : List β) {writeRes : Fd → Except Errno Nat} {fds : List Fd}
    (hnodup : fds.Nodup) {s : TcpServer β} (h : WriteFails s sockFd writeRes fds) :
    ∃ fd ∈ fds, fd ≠ sockFd ∧ (forward sockFd chunk writeRes fds s).sockets fd = s.sockets fd := by
  induction fds generalizing s with
  | nil =>
      obtain ⟨fd, hfd, -⟩ := h
      exact absurd hfd List.not_mem_nil
  | cons fd fds ih =>
      obtain ⟨hnotin, hnodup⟩ := List.nodup_cons.mp hnodup
      obtain ⟨fd', hfd', hne, hfails⟩ := h
      rw [forward]
      by_cases hsender : fd = sockFd
      · have hmem : fd' ∈ fds := (List.mem_cons.mp hfd').resolve_left fun h => hne (h.trans hsender)
        obtain ⟨fd₁, hfd₁, hunwritten⟩ := ih hnodup ⟨fd', hmem, hne, hfails⟩
        rw [if_pos hsender]
        exact ⟨fd₁, List.mem_cons_of_mem fd hfd₁, hunwritten⟩
      · rw [if_neg hsender]
        cases hwrite : writeRes fd with
        | error e => exact ⟨fd, List.mem_cons_self, hsender, rfl⟩
        | ok n =>
            cases hsock : s.sockets fd with
            | none => exact ⟨fd, List.mem_cons_self, hsender, hsock.symm ▸ rfl⟩
            | some sock =>
                have hmem : fd' ∈ fds := (List.mem_cons.mp hfd').resolve_left fun h => by
                  subst h
                  simp [hwrite, hsock] at hfails
                have hother : ∀ fd₁ ∈ fds, (s.setSocket fd (sock.write (chunk.take n))).sockets fd₁ =
                    s.sockets fd₁ := fun fd₁ hfd₁ => Function.update_of_ne (ne_of_mem_of_not_mem hfd₁ hnotin) _ _
                obtain ⟨fd₁, hfd₁, hne₁, hunwritten⟩ := ih hnodup (s := s.setSocket fd (sock.write (chunk.take n)))
                  ⟨fd', hmem, hne, hfails.imp id fun hnone => (hother fd' hmem).trans hnone⟩
                exact ⟨fd₁, List.mem_cons_of_mem fd hfd₁, hne₁, hunwritten.trans (hother fd₁ hfd₁)⟩

/-- A client that has been written less than the chunk just read from another. -/
theorem not_delivered_of_short {b : Broadcast β} (h : Delivered b) {s' : TcpServer β} {label : Label β}
    {fd fd' : Fd} {chunk bytes : List β} {sock sock' : Socket β}
    (hobserve : observe b.server label = [.read fd chunk]) (hne : fd' ≠ fd)
    (hsock : b.server.sockets fd' = some sock) (hsock' : s'.sockets fd' = some sock')
    (hwritten : sock'.written = sock.written ++ bytes) (hshort : bytes.length < chunk.length) :
    ¬Delivered { server := s', events := b.events ++ observe b.server label } := by
  intro hdelivered
  have hheard := hdelivered fd' sock' hsock'
  rw [hobserve, heard_append, List.foldl_cons, List.foldl_nil, hear, if_neg (Ne.symm hne),
    ← h fd' sock hsock, hwritten] at hheard
  have hlength := congrArg List.length (List.append_cancel_left hheard)
  omega

/-- A step with an incomplete `write` leaves some client without a part of the chunk. -/
theorem not_delivered_of_not_writesAll {b : Broadcast β} (h : Delivered b) (hs : Consistent b.server)
    {s' : TcpServer β} {label : Label β} (hwrites : ¬WritesAll b label)
    (hstep : Exits b.server label s' ∨ Effect b.server label s') :
    ¬Delivered { server := s', events := b.events ++ observe b.server label } := by
  match label with
  | .send .. | .arrive .. | .fin .. | .reset .. | .stop | .epollWait .. | .accept .. |
      .message (.error _) _ => exact absurd trivial hwrites
  | .message (.ok nbytes) writeRes =>
      simp only [WritesAll, not_or, not_forall] at hwrites
      obtain ⟨hpos, fd, fds, hbatch, fd', htable, hne, hwrite⟩ := hwrites
      have hpos : 0 < nbytes := Nat.pos_of_ne_zero hpos
      have hopen : ∀ fd ∈ b.server.sockFdToClientAddr.keys, ∃ sock, b.server.sockets fd = some sock :=
        fun fd hfd => (hs.mem_table fd).mp (AList.mem_keys.mpr hfd)
      rcases hstep with hexit | heffect
      · cases hexit with
        | read _ hbatch' hlisten hfails =>
            obtain ⟨sock, hsock⟩ := (hs.mem_events _ (by simp [hbatch'])).resolve_left hlisten
            simp [hsock] at hfails
        | @write fd fds sock _ _ s₁ hbatch' hlisten hsock _ hle hs₁ hfails =>
            have hother : ∀ fd', fd' ≠ fd → s₁.sockets fd' = b.server.sockets fd' := fun fd' hne => by
              rw [hs₁, setSocket_sockets, Function.update_of_ne hne]
            have hfails₁ : WriteFails s₁ fd writeRes b.server.sockFdToClientAddr.keys := by
              obtain ⟨fd', hfd', hne, hfails⟩ := hfails
              exact ⟨fd', hfd', hne, hfails.imp id fun hnone => (hother fd' hne).trans hnone⟩
            obtain ⟨fd₁, hfd₁, hne₁, hunwritten⟩ := exists_unwritten (sock.recvQueue.take nbytes)
              b.server.sockFdToClientAddr.nodupKeys hfails₁
            obtain ⟨sock₁, hsock₁⟩ := hopen fd₁ hfd₁
            refine not_delivered_of_short h (observe_read hbatch' hsock hpos writeRes) hne₁ hsock₁
              (hunwritten.trans ((hother fd₁ hne₁).trans hsock₁)) (List.append_nil _).symm ?_
            rw [List.length_nil, List.length_take_of_le hle]
            exact hpos
      · cases heffect with
        | disconnect => exact absurd hpos (lt_irrefl 0)
        | @message _ _ sock _ _ hbatch' _ hsock _ _ hle hok =>
            cases hbatch.symm.trans hbatch'
            obtain ⟨sock', hsock'⟩ := (hs.mem_table fd').mp htable
            obtain ⟨n, hn, -, hn_le⟩ := hok fd' (AList.mem_keys.mp htable) hne
            have hlt : n < nbytes := lt_of_le_of_ne hn_le fun h => hwrite (h ▸ hn)
            have hshort : forwarded (Function.update b.server.sockets fd
                (some { sock with recvQueue := sock.recvQueue.drop nbytes })) fd
                (sock.recvQueue.take nbytes) writeRes b.server.sockFdToClientAddr.keys fd' =
                  some (sock'.write ((sock.recvQueue.take nbytes).take n)) := by
              rw [forwarded, if_pos ⟨AList.mem_keys.mp htable, hne⟩, Function.update_of_ne hne, hsock', hn]
              rfl
            refine not_delivered_of_short h (observe_read hbatch hsock hpos writeRes) hne hsock' hshort rfl ?_
            rw [List.length_take, List.length_take_of_le hle]
            omega

/-- In a run whose writes all take the whole chunk every client has been written all that was read from
the others; the first `write` that takes less of a chunk loses the rest of it. -/
theorem delivered_reachableBy (β : Type) (listenSockfd : Fd) :
    (∀ b, (system β listenSockfd).ReachableBy WritesAll b → Delivered b) ∧
    ∀ b label b', (system β listenSockfd).ReachableBy WritesAll b → ¬WritesAll b label →
      (system β listenSockfd).step b label = some b' → ¬Delivered b' := by
  have hdelivered : ∀ b, (system β listenSockfd).ReachableBy WritesAll b → Delivered b := by
    intro b hb
    refine hb.invariant (fun fd sock hsock => nomatch hsock) ?_
    intro b label b' hb h hwrites hstep
    obtain ⟨s', hserver, hstep⟩ := Option.bind_eq_some_iff.mp hstep
    cases hstep
    obtain ⟨hrun, hexit | heffect⟩ := effect_of_step hserver
    · exact h.exits (consistent_of_reachable (server_reachable hb) hrun) hwrites hexit
    · exact h.effect (consistent_of_reachable (server_reachable hb) hrun) hwrites heffect
  refine ⟨hdelivered, fun b label b' hb hwrites hstep => ?_⟩
  obtain ⟨s', hserver, hstep⟩ := Option.bind_eq_some_iff.mp hstep
  cases hstep
  obtain ⟨hrun, hnext⟩ := effect_of_step hserver
  exact not_delivered_of_not_writesAll (hdelivered b hb)
    (consistent_of_reachable (server_reachable hb) hrun) hwrites hnext

/-- A client writes "hi", and the socket of another takes it. -/
def fullWrite : List (Label UInt8) :=
  [.epollWait (.ok [3]),
    .accept (.ok { connFd := 5, cliAddress := ascii "127.0.0.1:4000" }) (.ok ()) (.ok ()),
    .epollWait (.ok [3]),
    .accept (.ok { connFd := 6, cliAddress := ascii "127.0.0.1:4001" }) (.ok ()) (.ok ()),
    .send 5 (ascii "hi"),
    .arrive 5 2,
    .epollWait (.ok [5]),
    .message (.ok 2) fun _ => .ok 2]

theorem delivered_reachableBy_fullWrite :
    ∃ b, (system UInt8 3).run (system UInt8 3).start fullWrite = some b ∧
      (system UInt8 3).ReachableBy WritesAll b ∧ Delivered b ∧
      (b.server.sockets 6).map Socket.written = some (ascii "hi") := by
  obtain ⟨b, hrun, hwritten⟩ : ∃ b, (system UInt8 3).run (system UInt8 3).start fullWrite = some b ∧
      (b.server.sockets 6).map Socket.written = some (ascii "hi") := ⟨_, rfl, rfl⟩
  have hwrites : ∀ label ∈ fullWrite, ∀ b : Broadcast UInt8, WritesAll b label := by
    simp [fullWrite, WritesAll]
  have hb : (system UInt8 3).ReachableBy WritesAll b := .run .start hwrites hrun
  exact ⟨b, hrun, hb, (delivered_reachableBy UInt8 3).1 b hb, hwritten⟩

/-- A client writes "hi", and the socket of another takes one byte of it. -/
def shortWrite : List (Label UInt8) :=
  [.epollWait (.ok [3]),
    .accept (.ok { connFd := 5, cliAddress := ascii "127.0.0.1:4000" }) (.ok ()) (.ok ()),
    .epollWait (.ok [3]),
    .accept (.ok { connFd := 6, cliAddress := ascii "127.0.0.1:4001" }) (.ok ()) (.ok ()),
    .send 5 (ascii "hi"),
    .arrive 5 2,
    .epollWait (.ok [5]),
    .message (.ok 2) fun _ => .ok 1]

/-- The other byte is lost, though the process goes on and both clients stay connected. -/
theorem not_delivered_shortWrite : ¬∀ b, (system UInt8 3).Reachable b → Delivered b := by
  intro hdelivered
  have hrun : ∃ b, (system UInt8 3).run (system UInt8 3).start shortWrite = some b ∧
      ∃ sock, b.server.sockets 6 = some sock ∧ sock.written = ascii "h" ∧
        heard 6 b.events = ascii "hi" := ⟨_, rfl, _, rfl, rfl, rfl⟩
  obtain ⟨b, hb, sock, hsock, hwritten, hheard⟩ := hrun
  have := hdelivered b (TransitionSystem.reachable_of_run hb) 6 sock hsock
  rw [hwritten, hheard] at this
  exact absurd this (by decide)

end Broadcast

end ToyBox
