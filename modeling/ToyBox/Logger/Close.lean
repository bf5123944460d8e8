import ToyBox.Logger.Delivery

/-! `Close`, called when all producers have returned: it comes back when the goroutine has written all that
entered the channel and every writer that can be flushed is flushed after that. -/

namespace ToyBox.Logger

variable {ι ω : Type}

/-- A writer that can be flushed is flushed, and no record is written after that. -/
def Flushed (isFlusher : ω → Bool) (events : List (Event ω)) (w : ω) : Prop :=
  isFlusher w = true → ∃ before after, events = before ++ .flush w :: after ∧
    ∀ e ∈ after, e.isWrite = false

theorem Flushed.append {isFlusher : ω → Bool} {events more : List (Event ω)} {w : ω}
    (h : Flushed isFlusher events w) (hmore : ∀ e ∈ more, e.isWrite = false) :
    Flushed isFlusher (events ++ more) w := by
  intro hw
  obtain ⟨before, after, hevents, hafter⟩ := h hw
  refine ⟨before, after ++ more, ?_, ?_⟩
  · rw [hevents, List.append_assoc]
    rfl
  · intro e he
    exact (List.mem_append.mp he).elim (hafter e) (hmore e)

/-- What `Close` has seen to, by where it is. -/
def Closer.Done (isFlusher : ω → Bool) (s : Logger ι ω) : Closer ω → Prop
  | .notCalled => s.closed = false
  | .waiting => ∀ w ∈ s.registeredAtClose, w ∈ s.writers
  | .flush writers => s.logWriter = .done ∧
      ∀ w ∈ s.registeredAtClose, w ∈ writers ∨ Flushed isFlusher s.events w
  | .returned => s.logWriter = .done ∧ ∀ w ∈ s.registeredAtClose, Flushed isFlusher s.events w

/-- The state of a logger whose producers return before it is closed. -/
structure Closing (isFlusher : ω → Bool) (s : Logger ι ω) : Prop where
  idle : s.closer ≠ .notCalled → ∀ p, s.producers p = .idle
  drained : s.logWriter = .done → s.closed = true ∧ s.recordChan = []
  c : s.c = true → s.logWriter = .done
  closer : s.closer.Done isFlusher s

variable {isFlusher : ω → Bool} {s s' : Logger ι ω}

/-- Until the goroutine is done `Close` does not flush. -/
theorem Closing.running (h : Closing isFlusher s) (hrunning : s.logWriter ≠ .done) :
    s.c = false ∧ (s.closer = .notCalled ∨ s.closer = .waiting) := by
  have hcloser := h.closer
  refine ⟨Bool.eq_false_iff.mpr (mt h.c hrunning), ?_⟩
  cases hpc : s.closer with
  | notCalled => exact .inl rfl
  | waiting => exact .inr rfl
  | flush writers =>
      rw [hpc] at hcloser
      exact absurd hcloser.1 hrunning
  | returned =>
      rw [hpc] at hcloser
      exact absurd hcloser.1 hrunning

/-- A step of the goroutine. -/
theorem Closing.setLogWriter {t : Logger ι ω} (h : Closing isFlusher s)
    (hrunning : s.logWriter ≠ .done)
    (hdrained : t.logWriter = .done → t.closed = true ∧ t.recordChan = [])
    (hc : t.c = true → s.c = true ∨ t.logWriter = .done)
    (hproducers : t.producers = s.producers := by rfl) (hclosed : t.closed = s.closed := by rfl)
    (hcloser : t.closer = s.closer := by rfl)
    (hregistered : t.registeredAtClose = s.registeredAtClose := by rfl)
    (hwriters : t.writers = s.writers := by rfl) : Closing isFlusher t := by
  obtain ⟨hcFalse, hpc⟩ := h.running hrunning
  refine ⟨?_, hdrained, ?_, ?_⟩
  · rw [hcloser, hproducers]
    exact h.idle
  · intro htc
    rcases hc htc with hsc | hdone
    · rw [hcFalse] at hsc
      cases hsc
    · exact hdone
  · have hdone := h.closer
    rw [hcloser]
    rcases hpc with hpc | hpc
    · rw [hpc] at hdone ⊢
      exact hclosed.trans hdone
    · rw [hpc] at hdone ⊢
      show ∀ w ∈ t.registeredAtClose, w ∈ t.writers
      rw [hregistered, hwriters]
      exact hdone

/-- A step of a producer, which is not idle or may still begin a call. -/
theorem Closing.setProducers {t : Logger ι ω} (h : Closing isFlusher s)
    (hnotCalled : s.closer = .notCalled) (hpc : t.logWriter = s.logWriter := by rfl)
    (hc : t.c = s.c := by rfl) (hclosed : t.closed = s.closed := by rfl)
    (hcloser : t.closer = s.closer := by rfl) : Closing isFlusher t := by
  have hopen : s.closed = false := by
    have := h.closer
    rwa [hnotCalled] at this
  refine ⟨fun hne => absurd (hcloser.trans hnotCalled) hne, ?_, ?_, ?_⟩
  · intro hdone
    have := (h.drained (hpc ▸ hdone)).1
    rw [hopen] at this
    cases this
  · rw [hc, hpc]
    exact h.c
  · rw [hcloser, hnotCalled]
    exact hclosed.trans hopen

theorem Closing.notCalled (h : Closing isFlusher s) {p : ι} (hp : s.producers p ≠ .idle) :
    s.closer = .notCalled := by
  by_contra hne
  exact hp (h.idle hne p)

variable [DecidableEq ι]

theorem Closing.effect {label : Label ι ω} (h : Closing isFlusher s) (hguard : s.ClosesLast label)
    (he : Effect isFlusher s label s') : Closing isFlusher s' := by
  cases he with
  | registerWriter w =>
      refine ⟨h.idle, h.drained, h.c, ?_⟩
      have hdone := h.closer
      show s.closer.Done isFlusher _
      cases hpc : s.closer with
      | notCalled =>
          rw [hpc] at hdone
          exact hdone
      | waiting =>
          rw [hpc] at hdone
          exact fun w' hw' => List.mem_append_left _ (hdone w' hw')
      | flush writers =>
          rw [hpc] at hdone
          exact hdone
      | returned =>
          rw [hpc] at hdone
          exact hdone
  | setLevel level => exact ⟨h.idle, h.drained, h.c, h.closer⟩
  | filtered hlevel => exact ⟨h.idle, h.drained, h.c, h.closer⟩
  | deliver hlevel hidle => exact h.setProducers hguard
  | @getNew p call hget =>
      exact h.setProducers (h.notCalled (by rw [hget]; nofun))
  | @getPooled p call r hget hpool =>
      exact h.setProducers (h.notCalled (by rw [hget]; nofun))
  | @set p r pc timestamp f hheld hheld' hcall hfilled =>
      have hnotIdle : s.producers p ≠ .idle := by
        intro hidle
        rw [hidle] at hheld
        cases hheld
      exact h.setProducers (h.notCalled hnotIdle)
  | @send p r call timestamp hsend hclosed =>
      exact h.setProducers (h.notCalled (by rw [hsend]; nofun))
  | drop r => exact ⟨h.idle, h.drained, h.c, h.closer⟩
  | @receive r rest first hpc hchan =>
      exact h.setLogWriter (by rw [hpc]; cases first <;> nofun) nofun .inl
  | @stop first hpc hchan hclosed =>
      exact h.setLogWriter (by rw [hpc]; cases first <;> nofun) (fun _ => ⟨hclosed, hchan⟩)
        (fun _ => .inr rfl)
  | range hpc => exact h.setLogWriter (by rw [hpc]; nofun) nofun .inl
  | write hpc => exact h.setLogWriter (by rw [hpc]; nofun) nofun .inl
  | @writeEnd r first hpc =>
      exact h.setLogWriter (by rw [hpc]; nofun) (by cases first <;> nofun) .inl
  | put hpc => exact h.setLogWriter (by rw [hpc]; nofun) nofun .inl
  | @timer _ pc events hbetween hbetween' hevents =>
      refine h.setLogWriter ?_ ?_ .inl
      · intro hdone
        rw [hdone] at hbetween
        exact hbetween
      · intro hdone
        rw [show pc = .done from hdone] at hbetween'
        exact hbetween'.elim
  | close hcloser =>
      refine ⟨fun _ => hguard, fun hdone => ⟨rfl, (h.drained hdone).2⟩, h.c, fun w hw => hw⟩
  | closeReceive hcloser hc =>
      have hdone := h.closer
      rw [hcloser] at hdone
      exact ⟨fun _ => h.idle (by rw [hcloser]; nofun), h.drained, nofun,
        h.c hc, fun w hw => .inl (hdone w hw)⟩
  | @closeFlush w writers hcloser =>
      have hdone := h.closer
      rw [hcloser] at hdone
      refine ⟨fun _ => h.idle (by rw [hcloser]; nofun), h.drained, h.c, hdone.1, fun w' hw' => ?_⟩
      rcases hdone.2 w' hw' with hmem | hflushed
      · rcases List.mem_cons.mp hmem with rfl | hmem
        · refine .inr fun hw => ⟨s.events, [], ?_, fun e he => absurd he List.not_mem_nil⟩
          show s.events ++ (if isFlusher w' then [.flush w'] else []) = _
          rw [if_pos hw]
        · exact .inl hmem
      · exact .inr (hflushed.append (isWrite_of_closeFlush isFlusher w))
  | closeEnd hcloser =>
      have hdone := h.closer
      rw [hcloser] at hdone
      exact ⟨fun _ => h.idle (by rw [hcloser]; nofun), h.drained, h.c, hdone.1,
        fun w hw => (hdone.2 w hw).resolve_left List.not_mem_nil⟩

/-! ### Every interleaving -/

/-- What the logger promises: no record has two holders, every call that is not below the level sends one
record and no other call does, and the writers get the records in the order in which they entered the channel. When `Close` has
returned, each record has gone to the writers registered when it was taken out, and after that every writer
that can be flushed was flushed. -/
structure Contract (isFlusher : ω → Bool) (s : Logger ι ω) : Prop where
  unique : ∀ holder holder' r, s.Holds holder r → s.Holds holder' r → holder = holder'
  once : s.recordChan.Nodup ∧ s.recordPool.Nodup
  levelChecked : s.LevelChecked
  accepted : s.Accepted
  registered : ∀ (i : Nat) (registered : List ω), s.dequeued[i]? = some registered →
    registered <+: (s.ranged[i]?).getD s.writers
  inOrder : writes s.events <+: deliveries s.ranged s.records
  returned : s.closer = .returned →
    writes s.events = deliveries s.ranged s.records ∧
    s.dequeued.length = s.records.length ∧ List.Forall₂ (· <+: ·) s.dequeued s.ranged ∧
    (∀ p, s.passed p = callsEntered s.entered p) ∧
    ∀ w ∈ s.registeredAtClose, Flushed isFlusher s.events w

/-- The invariants of a run. -/
structure Invariant (isFlusher : ω → Bool) (s : Logger ι ω) : Prop where
  exclusive : s.Exclusive
  intact : s.Intact
  delivered : s.Delivered
  levelChecked : s.LevelChecked
  accepted : s.Accepted
  closing : Closing isFlusher s

theorem invariant_start (heap : Addr → Record) :
    Invariant isFlusher ({ heap } : Logger ι ω) where
  exclusive := by
    refine ⟨fun holder holder' r hr hr' => ?_, List.nodup_nil, List.nodup_nil, fun holder r hr => ?_⟩
    all_goals
      cases holder with
      | producer p => cases hr
      | channel => cases hr
      | logWriter => cases hr
      | recordPool => cases hr
  intact := ⟨nofun, Nat.le_refl _, rfl, nofun⟩
  delivered := ⟨rfl, nofun, rfl⟩
  levelChecked := fun _ => rfl
  accepted := fun _ => rfl
  closing := ⟨fun _ _ => rfl, nofun, nofun, rfl⟩

theorem Invariant.effect {label : Label ι ω} (h : Invariant isFlusher s) (hguard : s.ClosesLast label)
    (he : Effect isFlusher s label s') : Invariant isFlusher s' where
  exclusive := h.exclusive.effect he
  intact := h.intact.effect h.exclusive he
  delivered := h.delivered.effect h.intact h.exclusive he
  levelChecked := h.levelChecked.effect he
  accepted := h.accepted.effect he
  closing := h.closing.effect hguard he

theorem Invariant.contract (h : Invariant isFlusher s) : Contract isFlusher s where
  unique := h.exclusive.unique
  once := ⟨h.exclusive.chan_nodup, h.exclusive.pool_nodup⟩
  levelChecked := h.levelChecked
  accepted := h.accepted
  registered := h.delivered.registered
  inOrder := ⟨_, h.delivered.written⟩
  returned hreturned := by
    have hcloser := h.closing.closer
    rw [hreturned] at hcloser
    obtain ⟨hdone, hflushed⟩ := hcloser
    have hwritten := h.delivered.written
    rw [hdone] at hwritten
    have hlength : s.dequeued.length = s.ranged.length := by
      have := h.delivered.length_eq
      rwa [hdone] at this
    have hall : s.dequeued.length = s.records.length := by
      have hpending := h.intact.pending
      rw [(h.closing.drained hdone).2, List.map_nil, List.drop_eq_nil_iff] at hpending
      exact Nat.le_antisymm h.intact.dequeued_le hpending
    refine ⟨?_, hall, ?_, ?_, hflushed⟩
    · rw [← hwritten]
      exact (List.append_nil _).symm
    · rw [List.forall₂_iff_get]
      refine ⟨hlength, fun i hi hi' => ?_⟩
      have hprefix := h.delivered.registered i _ (List.getElem?_eq_getElem hi)
      rw [List.getElem?_eq_getElem hi'] at hprefix
      exact hprefix
    · intro p
      have hidle := h.closing.idle (by rw [hreturned]; nofun) p
      have haccepted := h.accepted p
      rw [hidle] at haccepted
      rw [← h.levelChecked p]
      exact haccepted.trans (List.append_nil _)

/-- Whatever the interleaving of producers, goroutine, timers and pool, and whatever the memory held, the
logger keeps what it promises, if `Close` is called once, when all producers have returned. -/
theorem contract_of_reachable (isFlusher isRotater : ω → Bool) (heap : Addr → Record) {s : Logger ι ω}
    (hs : (system isFlusher isRotater heap).ReachableBy ClosesLast s) : Contract isFlusher s := by
  apply Invariant.contract
  induction hs with
  | start => exact invariant_start heap
  | step _ hguard hstep ih => exact ih.effect hguard (effect_of_next hstep)

/-- One producer logs one record to one writer, and one below the level, and `Close` returns. -/
theorem contract_of_reachable_oneRecord :
    let call : Call := ⟨.info, ascii "start", ascii "main.go:1"⟩
    ∃ s : Logger Unit Bool, Contract id s ∧ s.closer = .returned ∧ (s.calls ()).length = 2 ∧ s.passed () = [call] ∧
      s.events = [.write true (call.record (ascii "t")), .flush true] := by
  intro call
  have h₀ : TransitionSystem.ReachableBy
      (system id id fun _ => ⟨[], [], [], .debug⟩ : TransitionSystem (Logger Unit Bool) _) ClosesLast _ :=
    .start
  have h₁ := h₀.step (a := Label.registerWriter true) trivial rfl
  have h₂ := h₁.step (a := Label.setLevel LogLevel.info.toInt) trivial rfl
  have h₃ := h₂.step (a := Label.deliver () ⟨.debug, ascii "detail", ascii "main.go:2"⟩) rfl rfl
  have h₄ := h₃.step (a := Label.deliver () call) rfl rfl
  have h₅ := h₄.step (a := Label.get () none) trivial rfl
  have h₆ := h₅.step (a := Label.set () []) trivial rfl
  have h₇ := h₆.step (a := Label.set () []) trivial rfl
  have h₈ := h₇.step (a := Label.set () (ascii "t")) trivial rfl
  have h₉ := h₈.step (a := Label.set () []) trivial rfl
  have h₁₀ := h₉.step (a := Label.send ()) trivial rfl
  have h₁₁ := h₁₀.step (a := Label.receive) trivial rfl
  have h₁₂ := h₁₁.step (a := Label.range) trivial rfl
  have h₁₃ := h₁₂.step (a := Label.write) trivial rfl
  have h₁₄ := h₁₃.step (a := Label.write) trivial rfl
  have h₁₅ := h₁₄.step (a := Label.close) (fun _ => rfl) rfl
  have h₁₆ := h₁₅.step (a := Label.receive) trivial rfl
  have h₁₇ := h₁₆.step (a := Label.closeReceive) trivial rfl
  have h₁₈ := h₁₇.step (a := Label.closeFlush) trivial rfl
  have h₁₉ := h₁₈.step (a := Label.closeFlush) trivial rfl
  exact ⟨_, contract_of_reachable id id (fun _ => ⟨[], [], [], .debug⟩) h₁₉, rfl, rfl, rfl, rfl⟩

end ToyBox.Logger
