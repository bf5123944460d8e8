import ToyBox.TcpChat.Connections

/-! Edge-triggered readiness. Every connection is registered with `EPOLLET`, and an event is answered with
one `read` of at most 1024 bytes. Nothing is left behind a read exactly when it takes the whole receive
queue with no FIN behind it, or a new edge is already raised. -/

namespace ToyBox.TcpServer

variable {β : Type}

/-- A connection without an edge that is not in the batch has nothing left to read. -/
def EdgeSound (s : TcpServer β) : Prop :=
  s.exited = false → ∀ fd sock, fd ∈ s.sockFdToClientAddr → s.sockets fd = some sock →
    sock.edge = false → fd ∉ s.epollEvents → sock.recvQueue = [] ∧ sock.eof = false

/-- A step that leaves nothing behind: a read that returns data takes all there is and no FIN is behind
it, or an edge has been raised since the event was reported, or the process ends in a `write`. -/
def Drains (s : TcpServer β) : Label β → Prop
  | .message (.ok nbytes) writeRes => ∀ fd fds sock, s.epollEvents = fd :: fds →
      s.sockets fd = some sock →
        nbytes = 0 ∨ sock.edge = true ∨ nbytes = sock.recvQueue.length ∧ sock.eof = false ∨
          ∃ fd' ∈ s.sockFdToClientAddr, fd' ≠ fd ∧ ∃ e, writeRes fd' = .error e
  | _ => True

/-- What comes to a connection raises its edge. -/
theorem EdgeSound.raise {s : TcpServer β} {fd : Fd} {sock sock₁ : Socket β} (h : EdgeSound s)
    (hs : Consistent s) (hsock : s.sockets fd = some sock) (hraised : sock₁.edge = sock.registered) :
    EdgeSound (s.setSocket fd sock₁) := by
  intro hrun fd' sock' htable hsock' hedge hevents
  by_cases hfd : fd' = fd
  · subst hfd
    rw [setSocket_sockets, Function.update_self] at hsock'
    obtain rfl := Option.some.inj hsock'
    rw [hraised, hs.registered fd' sock hsock] at hedge
    cases hedge
  · rw [setSocket_sockets, Function.update_of_ne hfd] at hsock'
    exact h hrun fd' sock' htable hsock' hedge hevents

theorem EdgeSound.effect {s s' : TcpServer β} {label : Label β} (h : EdgeSound s)
    (hrun : s.exited = false) (hs : Consistent s) (hdrains : Drains s label)
    (he : Effect s label s') : EdgeSound s' := by
  have hquiet := h hrun
  intro hrun' fd' sock' htable hsock' hedge hevents
  -- a connection the step does not touch
  have hframe : s.sockets fd' = some sock' → fd' ∉ s.epollEvents →
      sock'.recvQueue = [] ∧ sock'.eof = false := fun hsock hevents =>
    hquiet fd' sock' ((hs.mem_table fd').mpr ⟨sock', hsock⟩) hsock hedge hevents
  cases he with
  | @send fd sock bytes hsock heof =>
      by_cases hfd : fd' = fd
      · subst hfd
        simp only [setSocket_sockets, Function.update_self, Option.some.injEq] at hsock'
        subst hsock'
        exact hquiet fd' sock ((hs.mem_table fd').mpr ⟨sock, hsock⟩) hsock hedge hevents
      · exact hframe (by simpa [hfd] using hsock') hevents
  | @arrive fd sock n hsock hn hle => exact h.raise hs hsock rfl hrun' fd' sock' htable hsock' hedge hevents
  | @fin fd sock hsock heof hflight => exact h.raise hs hsock rfl hrun' fd' sock' htable hsock' hedge hevents
  | @reset fd sock hsock => exact h.raise hs hsock rfl hrun' fd' sock' htable hsock' hedge hevents
  | stop => exact hframe hsock' hevents
  | @epollWait fds hbatch hnodup hready =>
      obtain ⟨sock, hsock, hclear⟩ := Option.map_eq_some_iff.mp hsock'
      rw [if_neg hevents] at hclear
      subst hclear
      exact hframe hsock (by simp [hbatch])
  | @accept fds conn hbatch hlisten hfresh heof =>
      by_cases hfd : fd' = conn.connFd
      · subst hfd
        simp only [Function.update_self, Option.some.injEq] at hsock'
        subst hsock'
        simpa using hedge
      · have hsock : s.sockets fd' = some sock' := by simpa [hfd] using hsock'
        apply hframe hsock
        rw [hbatch, List.mem_cons, not_or]
        refine ⟨?_, hevents⟩
        rintro rfl
        rw [hs.listen] at hsock
        cases hsock
  | @again fd fds sock writeRes hbatch hlisten hsock hread =>
      by_cases hfd : fd' = fd
      · subst hfd
        obtain rfl := Option.some.inj (hsock.symm.trans hsock')
        simpa [Socket.readable] using hread
      · exact hframe hsock' (by simp [hbatch, hfd, hevents])
  | @disconnect fd fds sock writeRes hbatch hlisten hsock hqueue heof =>
      by_cases hfd : fd' = fd
      · subst hfd
        simp at hsock'
      · exact hframe (by simpa [hfd] using hsock') (by simp [hbatch, hfd, hevents])
  | @message fd fds sock nbytes writeRes hbatch hlisten hsock hpos hbuffer hle hwrite =>
      rw [forwarded_eq_map] at hsock'
      obtain ⟨sock₁, hsock₁, hmap⟩ := Option.map_eq_some_iff.mp hsock'
      by_cases hfd : fd' = fd
      · subst hfd
        rw [if_neg (fun hne => hne.2 rfl)] at hmap
        rw [Function.update_self] at hsock₁
        obtain rfl := Option.some.inj hsock₁
        subst hmap
        rcases hdrains fd' fds sock hbatch hsock with rfl | hraised | ⟨hall, heof⟩ | ⟨fd, hfd, hne, e, he⟩
        · exact absurd hpos (lt_irrefl 0)
        · rw [hraised] at hedge
          cases hedge
        · exact ⟨List.drop_eq_nil_of_le (Nat.le_of_eq hall.symm), heof⟩
        · obtain ⟨n, hn, -⟩ := hwrite fd (AList.mem_keys.mp hfd) hne
          rw [he] at hn
          cases hn
      · rw [Function.update_of_ne hfd] at hsock₁
        have hsame : sock₁.recvQueue = sock'.recvQueue ∧ sock₁.eof = sock'.eof ∧
            sock₁.edge = sock'.edge := by
          rw [← hmap]
          split <;> exact ⟨rfl, rfl, rfl⟩
        rw [← hsame.1, ← hsame.2.1]
        exact hquiet fd' sock₁ ((hs.mem_table fd').mpr ⟨sock₁, hsock₁⟩) hsock₁
          (hsame.2.2.trans hedge) (by simp [hbatch, hfd, hevents])

/-- A read that leaves something behind makes the state unsound. -/
theorem not_edgeSound_of_not_drains {s s' : TcpServer β} {label : Label β} (hs : Consistent s)
    (hrun : s.exited = false) (hdrains : ¬Drains s label) (hstep : s.next label = some s') :
    ¬EdgeSound s' := by
  match label with
  | .send .. | .arrive .. | .fin .. | .reset .. | .stop | .epollWait .. | .accept .. | .message (.error _) _ =>
      exact absurd trivial hdrains
  | .message (.ok nbytes) writeRes =>
      simp only [Drains, not_forall, not_or, not_and, not_exists, Bool.not_eq_false] at hdrains
      obtain ⟨fd, fds, sock, hbatch, hsock, hpos, hedge, hrest, hwrites⟩ := hdrains
      have hnodup := hs.nodup
      rw [hbatch] at hnodup
      have hwritten : ∀ fd' ∈ s.sockFdToClientAddr.keys, fd' ≠ fd →
          (∀ e, writeRes fd' ≠ .error e) ∧ s.sockets fd' ≠ none := fun fd' hfd' hne => by
        have htable := AList.mem_keys.mpr hfd'
        obtain ⟨sock', hsock'⟩ := (hs.mem_table fd').mp htable
        exact ⟨fun e => hwrites fd' htable hne e, by simp [hsock']⟩
      rcases effect_of_next hstep with hexit | heffect
      · cases hexit with
        | read _ hbatch' _ hfails =>
            cases hbatch.symm.trans hbatch'
            rcases hfails with hnone | hread
            · rw [hsock] at hnone
              cases hnone
            · cases hread
        | write hbatch' _ _ _ _ _ hfails _ =>
            cases hbatch.symm.trans hbatch'
            obtain ⟨fd', hfd', hne, ⟨e, he⟩ | hnone⟩ := hfails
            · exact absurd he ((hwritten fd' hfd' hne).1 e)
            · exact absurd hnone (hwritten fd' hfd' hne).2
      cases heffect with
      | disconnect => exact absurd rfl hpos
      | @message _ _ sock' _ _ hbatch' _ hsock' _ _ hle _ =>
        cases hbatch.symm.trans hbatch'
        obtain rfl : sock = sock' := Option.some.inj (hsock.symm.trans hsock')
        intro hsound
        have htable : fd ∈ s.sockFdToClientAddr := (hs.mem_table fd).mpr ⟨sock, hsock⟩
        obtain ⟨hqueue, heof⟩ := hsound hrun fd { sock with recvQueue := sock.recvQueue.drop nbytes } htable
          (by simp [forwarded]) (by simpa using hedge) (List.nodup_cons.mp hnodup).1
        have hlen : nbytes = sock.recvQueue.length := le_antisymm hle (List.drop_eq_nil_iff.mp hqueue)
        have := hrest hlen
        simp only at heof
        rw [this] at heof
        cases heof

theorem edgeSound_start (listenSockfd : Fd) : EdgeSound (system β listenSockfd).start :=
  fun _ fd _ htable => by simp [system] at htable

/-- Every state of a run whose reads leave nothing behind is sound, and the first read that leaves
something behind leads to a state that is not. -/
theorem edgeSound_reachableBy (β : Type) (listenSockfd : Fd) :
    (∀ s, (system β listenSockfd).ReachableBy Drains s → EdgeSound s) ∧
    ∀ s label s', (system β listenSockfd).ReachableBy Drains s → ¬Drains s label →
      (system β listenSockfd).step s label = some s' → ¬EdgeSound s' := by
  constructor
  · intro s hs
    apply hs.invariant (edgeSound_start listenSockfd)
    intro s label s' hs hsound hdrains hstep
    obtain ⟨hrun, hexit | heffect⟩ := effect_of_step hstep
    · intro hrun'
      rw [hexit.exited] at hrun'
      cases hrun'
    · exact hsound.effect hrun (consistent_of_reachable hs.reachable hrun) hdrains heffect
  · intro s label s' hs hdrains hstep
    have hrun := (effect_of_step hstep).1
    apply not_edgeSound_of_not_drains (consistent_of_reachable hs.reachable hrun) hrun hdrains
    simpa [system, hrun] using hstep

/-- A test for the guard: a read returns the end, or all bytes there are with no FIN behind them. -/
def takesAll (s : TcpServer β) : Label β → Bool
  | .message (.ok nbytes) _ =>
      nbytes = 0 || (s.epollEvents.head?.bind s.sockets).all fun sock => nbytes = sock.recvQueue.length && !sock.eof
  | _ => true

theorem drains_of_takesAll (s : TcpServer β) (label : Label β) (h : s.takesAll label = true) : Drains s label := by
  match label with
  | .send .. | .arrive .. | .fin .. | .reset .. | .stop | .epollWait .. | .accept .. | .message (.error _) _ => trivial
  | .message (.ok nbytes) writeRes =>
      intro fd fds sock hbatch hsock
      simp only [takesAll, hbatch, List.head?_cons, Option.bind_some, hsock, Option.all_some, Bool.or_eq_true,
        Bool.and_eq_true, decide_eq_true_eq, Bool.not_eq_true'] at h
      exact h.imp_right fun hall => .inr (.inl hall)

/-- A client says "hi" to another, and closes. -/
def hiThenClose : List (Label UInt8) :=
  [.epollWait (.ok [3]),
    .accept (.ok { connFd := 5, cliAddress := ascii "127.0.0.1:4000" }) (.ok ()) (.ok ()),
    .epollWait (.ok [3]),
    .accept (.ok { connFd := 6, cliAddress := ascii "127.0.0.1:4001" }) (.ok ()) (.ok ()),
    .send 5 (ascii "hi"),
    .arrive 5 2,
    .epollWait (.ok [5]),
    .message (.ok 2) fun _ => .ok 2,
    .fin 5,
    .epollWait (.ok [5]),
    .message (.ok 0) fun _ => .ok 0]

theorem edgeSound_reachableBy_hiThenClose :
    ∃ s, (system UInt8 3).run (system UInt8 3).start hiThenClose = some s ∧
      (system UInt8 3).ReachableBy Drains s ∧ EdgeSound s ∧ s.exited = false ∧ 5 ∉ s.sockFdToClientAddr ∧
      (s.sockets 6).map Socket.written = some (ascii "hi") := by
  obtain ⟨s, hrun, htest, hexited, hclosed, hwritten⟩ :
      ∃ s, (system UInt8 3).run (system UInt8 3).start hiThenClose = some s ∧
        (system UInt8 3).runIf takesAll (system UInt8 3).start hiThenClose = some s ∧ s.exited = false ∧
        5 ∉ s.sockFdToClientAddr ∧ (s.sockets 6).map Socket.written = some (ascii "hi") :=
    ⟨_, rfl, rfl, rfl, by decide, rfl⟩
  have hs : (system UInt8 3).ReachableBy Drains s := .runIf drains_of_takesAll .start htest
  exact ⟨s, hrun, hs, (edgeSound_reachableBy UInt8 3).1 s hs, hexited, hclosed, hwritten⟩

/-- A client says "hi" and closes before its socket is registered: one edge for the bytes and the FIN. -/
def hiAndClose : List (Label UInt8) :=
  [.epollWait (.ok [3]),
    .accept (.ok { connFd := 5, cliAddress := ascii "127.0.0.1:4000",
                   recvQueue := ascii "hi", eof := true }) (.ok ()) (.ok ()),
    .epollWait (.ok [5]),
    .message (.ok 2) fun _ => .ok 2]

/-- After the read the FIN is unread, with no edge and an empty batch. -/
theorem not_edgeSound_hiAndClose : ¬∀ s, (system UInt8 3).Reachable s → EdgeSound s := by
  intro hsound
  have hrun : ∃ s, (system UInt8 3).run (system UInt8 3).start hiAndClose = some s ∧
      s.exited = false ∧ 5 ∈ s.sockFdToClientAddr ∧ s.epollEvents = [] ∧
      ∃ sock, s.sockets 5 = some sock ∧ sock.edge = false ∧ sock.eof = true := by
    exact ⟨_, rfl, rfl, by decide, rfl, _, rfl, rfl, rfl⟩
  obtain ⟨s, hs, hexit, htable, hbatch, sock, hsock, hedge, heof⟩ := hrun
  have := hsound s (TransitionSystem.reachable_of_run hs) hexit 5 sock htable hsock hedge
    (by simp [hbatch])
  rw [heof] at this
  exact absurd this.2 (by decide)

end ToyBox.TcpServer
