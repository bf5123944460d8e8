import ToyBox.TcpChat.Effect

/-! The table of connections follows the kernel: while the process runs, the descriptors in
`sock_fd_to_client_addr_` are those of the open accepted sockets, all of them in the epoll set, and every
event of the batch is for one of them or for the listening socket. -/

namespace ToyBox.TcpServer

variable {β : Type}

structure Consistent (s : TcpServer β) : Prop where
  mem_table : ∀ fd, fd ∈ s.sockFdToClientAddr ↔ ∃ sock, s.sockets fd = some sock
  registered : ∀ fd sock, s.sockets fd = some sock → sock.registered = true
  listen : s.sockets s.listenSockfd = none
  nodup : s.epollEvents.Nodup
  mem_events : ∀ fd ∈ s.epollEvents, fd = s.listenSockfd ∨ ∃ sock, s.sockets fd = some sock

/-- A change of the sockets that neither opens, closes nor unregisters one. -/
structure SameSockets (sockets sockets' : Fd → Option (Socket β)) : Prop where
  isSome : ∀ fd, (∃ sock, sockets' fd = some sock) ↔ ∃ sock, sockets fd = some sock
  registered : (∀ fd sock, sockets fd = some sock → sock.registered = true) →
    ∀ fd sock, sockets' fd = some sock → sock.registered = true

theorem SameSockets.refl (sockets : Fd → Option (Socket β)) : SameSockets sockets sockets :=
  ⟨fun _ => Iff.rfl, fun h => h⟩

theorem SameSockets.trans {sockets sockets' sockets'' : Fd → Option (Socket β)}
    (h : SameSockets sockets sockets') (h' : SameSockets sockets' sockets'') :
    SameSockets sockets sockets'' :=
  ⟨fun fd => (h'.isSome fd).trans (h.isSome fd), fun hreg => h'.registered (h.registered hreg)⟩

theorem sameSockets_update {sockets : Fd → Option (Socket β)} {fd : Fd} {sock sock' : Socket β}
    (hsock : sockets fd = some sock) (hreg : sock'.registered = sock.registered) :
    SameSockets sockets (Function.update sockets fd (some sock')) := by
  constructor
  · intro fd'
    by_cases hfd : fd' = fd
    · subst hfd
      simp [hsock]
    · simp [hfd]
  · intro hall fd' sock'' h
    by_cases hfd : fd' = fd
    · subst hfd
      rw [Function.update_self] at h
      cases h
      rw [hreg]
      exact hall _ _ hsock
    · rw [Function.update_of_ne hfd] at h
      exact hall _ _ h

theorem sameSockets_map {sockets : Fd → Option (Socket β)} {f : Fd → Socket β → Socket β}
    (hreg : ∀ fd sock, (f fd sock).registered = sock.registered) :
    SameSockets sockets fun fd => (sockets fd).map (f fd) := by
  constructor
  · intro fd
    simp
  · intro hall fd sock h
    obtain ⟨sock', hsock, rfl⟩ := Option.map_eq_some_iff.mp h
    rw [hreg]
    exact hall _ _ hsock

theorem forwarded_eq_map (sockets : Fd → Option (Socket β)) (sockFd : Fd) (chunk : List β)
    (writeRes : Fd → Except Errno Nat) (fds : List Fd) :
    forwarded sockets sockFd chunk writeRes fds = fun fd => (sockets fd).map fun sock =>
      if fd ∈ fds ∧ fd ≠ sockFd then sock.write (taken chunk (writeRes fd)) else sock := by
  funext fd
  rw [forwarded]
  by_cases h : fd ∈ fds ∧ fd ≠ sockFd
  · simp only [if_pos h]
  · simp only [if_neg h, Option.map_id']

theorem sameSockets_forwarded (sockets : Fd → Option (Socket β)) (sockFd : Fd) (chunk : List β)
    (writeRes : Fd → Except Errno Nat) (fds : List Fd) :
    SameSockets sockets (forwarded sockets sockFd chunk writeRes fds) := by
  rw [forwarded_eq_map]
  apply sameSockets_map
  intro fd sock
  split <;> rfl

theorem Consistent.sameSockets {s s' : TcpServer β} (h : Consistent s)
    (hsockets : SameSockets s.sockets s'.sockets) (hlisten : s'.listenSockfd = s.listenSockfd)
    (htable : s'.sockFdToClientAddr = s.sockFdToClientAddr)
    (hevents : s'.epollEvents.Sublist s.epollEvents) : Consistent s' where
  mem_table fd := by rw [htable, h.mem_table, hsockets.isSome]
  registered := hsockets.registered h.registered
  listen := by
    rw [← Option.not_isSome_iff_eq_none, Option.isSome_iff_exists, hlisten, hsockets.isSome]
    simp [h.listen]
  nodup := hevents.nodup h.nodup
  mem_events fd hfd := by
    rw [hlisten, hsockets.isSome]
    exact h.mem_events fd (hevents.subset hfd)

theorem Consistent.effect {s s' : TcpServer β} {label : Label β} (h : Consistent s)
    (he : Effect s label s') : Consistent s' := by
  cases he with
  | send bytes hsock heof =>
      exact h.sameSockets (sameSockets_update hsock rfl) rfl rfl (.refl _)
  | arrive hsock hn hle =>
      exact h.sameSockets (sameSockets_update hsock rfl) rfl rfl (.refl _)
  | fin hsock heof hflight =>
      exact h.sameSockets (sameSockets_update hsock rfl) rfl rfl (.refl _)
  | reset hsock =>
      exact h.sameSockets (sameSockets_update hsock rfl) rfl rfl (.refl _)
  | stop => exact h.sameSockets (.refl _) rfl rfl (.refl _)
  | @epollWait fds hbatch hnodup hready =>
      have hsame : SameSockets s.sockets (s.clearEdges fds).sockets :=
        sameSockets_map fun fd sock => by split <;> rfl
      have hclear : Consistent (s.clearEdges fds) := h.sameSockets hsame rfl rfl (.refl _)
      refine ⟨hclear.mem_table, hclear.registered, hclear.listen, hnodup, fun fd hfd => ?_⟩
      exact (hready fd hfd).imp id fun ⟨sock, hsock, _⟩ => (hsame.isSome fd).mpr ⟨sock, hsock⟩
  | @accept fds conn hbatch hlisten hfresh heof =>
      have hnodup := h.nodup
      have hevents := h.mem_events
      rw [hbatch] at hnodup hevents
      refine ⟨fun fd => ?_, fun fd sock hsock => ?_, ?_, (List.nodup_cons.mp hnodup).2, fun fd hfd => ?_⟩
      · by_cases hfd : fd = conn.connFd
        · simp [hfd]
        · simp [AList.mem_insert, hfd, h.mem_table fd]
      · by_cases hfd : fd = conn.connFd
        · subst hfd
          simp only [Function.update_self, Option.some.injEq] at hsock
          rw [← hsock]
        · simp only [Function.update_of_ne hfd] at hsock
          exact h.registered fd sock hsock
      · exact (Function.update_of_ne (Ne.symm hlisten) _ _).trans h.listen
      · refine (hevents fd (List.mem_cons_of_mem _ hfd)).imp id fun ⟨sock, hsock⟩ => ?_
        have hne : fd ≠ conn.connFd := by
          rintro rfl
          rw [hfresh] at hsock
          cases hsock
        exact ⟨sock, by simpa [hne] using hsock⟩
  | again writeRes hbatch hlisten hsock hread =>
      exact h.sameSockets (.refl _) rfl rfl (by rw [hbatch]; exact List.sublist_cons_self _ _)
  | @disconnect fd fds sock writeRes hbatch hlisten hsock hqueue heof =>
      have hnodup := h.nodup
      have hevents := h.mem_events
      rw [hbatch] at hnodup hevents
      obtain ⟨hnotin, hnodup⟩ := List.nodup_cons.mp hnodup
      refine ⟨fun fd' => ?_, fun fd' sock' hsock' => ?_, ?_, hnodup, fun fd' hfd' => ?_⟩
      · by_cases hfd : fd' = fd
        · simp [hfd, AList.mem_erase]
        · simp [AList.mem_erase, hfd, h.mem_table fd']
      · by_cases hfd : fd' = fd
        · simp [hfd] at hsock'
        · simp only [Function.update_of_ne hfd] at hsock'
          exact h.registered fd' sock' hsock'
      · exact (Function.update_of_ne (Ne.symm hlisten) _ _).trans h.listen
      · refine (hevents fd' (List.mem_cons_of_mem _ hfd')).imp id fun ⟨sock', hsock'⟩ => ?_
        have hne : fd' ≠ fd := fun heq => hnotin (heq ▸ hfd')
        exact ⟨sock', by simpa [hne] using hsock'⟩
  | @message fd fds sock nbytes writeRes hbatch hlisten hsock hpos hbuffer hle hwrite =>
      have hread : SameSockets s.sockets (Function.update s.sockets fd
          (some { sock with recvQueue := sock.recvQueue.drop nbytes })) :=
        sameSockets_update hsock rfl
      exact h.sameSockets (hread.trans (sameSockets_forwarded _ fd _ writeRes _)) rfl rfl
        (by rw [hbatch]; exact List.sublist_cons_self _ _)

/-! ### Runs -/

variable {listenSockfd : Fd}

theorem effect_of_step {s s' : TcpServer β} {label : Label β}
    (h : (system β listenSockfd).step s label = some s') :
    s.exited = false ∧ (Exits s label s' ∨ Effect s label s') := by
  simp only [system] at h
  split at h
  · cases h
  · rename_i hrun
    exact ⟨by simpa using hrun, effect_of_next h⟩

theorem consistent_start : Consistent (system β listenSockfd).start :=
  ⟨fun fd => by simp [system], fun _ _ h => by simp [system] at h, rfl, List.nodup_nil,
    fun fd hfd => absurd hfd List.not_mem_nil⟩

/-- While the process runs, its table is that of the open sockets. -/
theorem consistent_of_reachable {s : TcpServer β} (hs : (system β listenSockfd).Reachable s)
    (hrun : s.exited = false) : Consistent s := by
  refine TransitionSystem.ReachableBy.invariant (P := fun s => s.exited = false → Consistent s)
    (fun _ => consistent_start) ?_ hs hrun
  intro s label s' _ hinv _ hstep hrun'
  obtain ⟨hrun, hexit | heffect⟩ := effect_of_step hstep
  · rw [hexit.exited] at hrun'
    cases hrun'
  · exact (hinv hrun).effect heffect

/-! ### The calls of an event -/

/-- The descriptors of the epoll instance. -/
def epollSet (s : TcpServer β) : Set Fd :=
  {fd | fd = s.listenSockfd ∨ ∃ sock, s.sockets fd = some sock ∧ sock.registered = true}

/-- The `write` calls that `forward` makes, each with the socket that is open under its descriptor when
the call is made. -/
def writeCalls (sockFd : Fd) (chunk : List β) (writeRes : Fd → Except Errno Nat) :
    List Fd → TcpServer β → List (Fd × Option (Socket β))
  | [], _ => []
  | fd :: fds, s =>
      if fd = sockFd then writeCalls sockFd chunk writeRes fds s
      else
        (fd, s.sockets fd) ::
          match writeRes fd, s.sockets fd with
          | .ok n, some sock =>
              writeCalls sockFd chunk writeRes fds (s.setSocket fd (sock.write (chunk.take n)))
          | _, _ => []

/-- A socket that the loop changes is one it writes to. -/
theorem mem_writeCalls_of_forward_ne {sockFd fd : Fd} {chunk : List β}
    {writeRes : Fd → Except Errno Nat} {fds : List Fd} {s : TcpServer β}
    (h : (forward sockFd chunk writeRes fds s).sockets fd ≠ s.sockets fd) :
    fd ∈ (writeCalls sockFd chunk writeRes fds s).map Prod.fst := by
  induction fds generalizing s with
  | nil => exact absurd rfl h
  | cons fd' fds ih =>
      rw [forward] at h
      rw [writeCalls]
      by_cases hsender : fd' = sockFd
      · rw [if_pos hsender] at h ⊢
        exact ih h
      · rw [if_neg hsender] at h ⊢
        rw [List.map_cons, List.mem_cons]
        by_cases hfd : fd = fd'
        · exact Or.inl hfd
        · refine Or.inr ?_
          cases hwrite : writeRes fd' with
          | error e => simp [hwrite, exit] at h
          | ok n =>
              cases hsock : s.sockets fd' with
              | none => simp [hwrite, hsock, exit] at h
              | some sock =>
                  simp only [hwrite, hsock] at h
                  apply ih
                  simpa [hfd] using h

/-- Writing to one open socket of a list leaves all of them open. -/
theorem writeCalls_open (sockFd : Fd) (chunk : List β) (writeRes : Fd → Except Errno Nat)
    {fds : List Fd} {s : TcpServer β} (hopen : ∀ fd ∈ fds, ∃ sock, s.sockets fd = some sock) :
    ∀ call ∈ writeCalls sockFd chunk writeRes fds s,
      call.1 ∈ fds ∧ call.1 ≠ sockFd ∧ ∃ sock, call.2 = some sock := by
  induction fds generalizing s with
  | nil => exact fun call hcall => absurd hcall List.not_mem_nil
  | cons fd fds ih =>
      intro call hcall
      rw [writeCalls] at hcall
      have htail : ∀ {s' : TcpServer β}, (∀ fd ∈ fds, ∃ sock, s'.sockets fd = some sock) →
          call ∈ writeCalls sockFd chunk writeRes fds s' →
            call.1 ∈ fd :: fds ∧ call.1 ≠ sockFd ∧ ∃ sock, call.2 = some sock := fun hopen hcall =>
        (ih hopen call hcall).imp (List.mem_cons_of_mem fd) id
      by_cases hsender : fd = sockFd
      · rw [if_pos hsender] at hcall
        exact htail (fun fd' hfd' => hopen fd' (List.mem_cons_of_mem fd hfd')) hcall
      · rw [if_neg hsender] at hcall
        rcases List.mem_cons.mp hcall with rfl | hcall
        · exact ⟨List.mem_cons_self, hsender, hopen fd List.mem_cons_self⟩
        · cases hwrite : writeRes fd with
          | error e => simp [hwrite] at hcall
          | ok n =>
              obtain ⟨sock, hsock⟩ := hopen fd List.mem_cons_self
              simp only [hwrite, hsock] at hcall
              refine htail (fun fd' hfd' => ?_) hcall
              have hsame : SameSockets s.sockets
                  (Function.update s.sockets fd (some (sock.write (chunk.take n)))) :=
                sameSockets_update hsock rfl
              exact (hsame.isSome fd').mpr (hopen fd' (List.mem_cons_of_mem fd hfd'))

/-- Between two events the table holds the open sockets, which are those of the epoll instance; the next
event is for the listening socket or a descriptor of the table, and answering it, in whatever order the
table is walked, writes to open descriptors of other clients only, and changes none that it does not write to. -/
theorem connectionTable_of_reachable {s : TcpServer β} (hs : (system β listenSockfd).Reachable s)
    (hrun : s.exited = false) :
    (∀ fd, fd ∈ s.sockFdToClientAddr ↔ ∃ sock, s.sockets fd = some sock) ∧
    (∀ fd, fd ∈ s.sockFdToClientAddr ↔ fd ∈ s.epollSet ∧ fd ≠ s.listenSockfd) ∧
    (∀ fd ∈ s.epollEvents, fd = s.listenSockfd ∨ fd ∈ s.sockFdToClientAddr) ∧
    ∀ fd fds, s.epollEvents = fd :: fds → fd ≠ s.listenSockfd →
      ∃ sock, s.sockets fd = some sock ∧ ∀ nbytes writeRes order,
        order.Perm s.sockFdToClientAddr.keys →
        let chunk := sock.recvQueue.take nbytes
        let s₁ := s.setSocket fd { sock with recvQueue := sock.recvQueue.drop nbytes }
        (∀ call ∈ writeCalls fd chunk writeRes order s₁,
          call.1 ∈ s.sockFdToClientAddr ∧ call.1 ≠ fd ∧ ∃ sock', call.2 = some sock') ∧
        ∀ fd', (forward fd chunk writeRes order s₁).sockets fd' ≠ s₁.sockets fd' →
          fd' ∈ (writeCalls fd chunk writeRes order s₁).map Prod.fst := by
  have h := consistent_of_reachable hs hrun
  refine ⟨h.mem_table, fun fd => ?_, fun fd hfd => ?_, fun fd fds hbatch hlisten => ?_⟩
  · rw [h.mem_table]
    constructor
    · rintro ⟨sock, hsock⟩
      refine ⟨Or.inr ⟨sock, hsock, h.registered fd sock hsock⟩, ?_⟩
      rintro rfl
      rw [h.listen] at hsock
      cases hsock
    · rintro ⟨hlisten | ⟨sock, hsock, -⟩, hne⟩
      · exact absurd hlisten hne
      · exact ⟨sock, hsock⟩
  · exact (h.mem_events fd hfd).imp id (h.mem_table fd).mpr
  · obtain ⟨sock, hsock⟩ := (h.mem_events fd (by simp [hbatch])).resolve_left hlisten
    refine ⟨sock, hsock, fun nbytes writeRes order horder => ⟨fun call hcall => ?_,
      fun fd' hchanged => mem_writeCalls_of_forward_ne hchanged⟩⟩
    have hread : SameSockets s.sockets (Function.update s.sockets fd
        (some { sock with recvQueue := sock.recvQueue.drop nbytes })) := sameSockets_update hsock rfl
    have htable : ∀ fd' ∈ order, fd' ∈ s.sockFdToClientAddr := fun fd' hfd' =>
      AList.mem_keys.mpr (horder.mem_iff.mp hfd')
    have hopen : ∀ fd' ∈ order, ∃ sock', (s.setSocket fd
        { sock with recvQueue := sock.recvQueue.drop nbytes }).sockets fd' = some sock' :=
      fun fd' hfd' => (hread.isSome fd').mpr ((h.mem_table fd').mp (htable fd' hfd'))
    exact (writeCalls_open fd _ writeRes hopen call hcall).imp (htable call.1) id

/-- One batch closes a descriptor and accepts the next client under the same number. -/
def reusedDescriptor : List (Label UInt8) :=
  [.epollWait (.ok [3]),
    .accept (.ok { connFd := 5, cliAddress := ascii "127.0.0.1:4000" }) (.ok ()) (.ok ()),
    .fin 5,
    .epollWait (.ok [5, 3]),
    .message (.ok 0) fun _ => .error .other,
    .accept (.ok { connFd := 5, cliAddress := ascii "127.0.0.1:4001" }) (.ok ()) (.ok ())]

theorem connectionTable_of_reachable_reusedDescriptor :
    ∃ s, (system UInt8 3).run (system UInt8 3).start reusedDescriptor = some s ∧
      s.exited = false ∧ s.sockFdToClientAddr.keys = [5] ∧
      ∀ fd, fd ∈ s.sockFdToClientAddr ↔ fd ∈ s.epollSet ∧ fd ≠ s.listenSockfd := by
  have hrun : ∃ s, (system UInt8 3).run (system UInt8 3).start reusedDescriptor = some s ∧
      s.exited = false ∧ s.sockFdToClientAddr.keys = [5] := ⟨_, rfl, rfl, rfl⟩
  obtain ⟨s, hs, hexit, hkeys⟩ := hrun
  exact ⟨s, hs, hexit, hkeys,
    (connectionTable_of_reachable (TransitionSystem.reachable_of_run hs) hexit).2.1⟩

end ToyBox.TcpServer
