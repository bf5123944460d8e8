import ToyBox.Library.TransitionSystem

/-! Two arguments about whole runs. A forward simulation: each step of one system is matched by one step of
another or by none, so that what the first reaches is related to something the second reaches, and one who sees the
steps that are matched sees the same of both. A measure: where
every step lowers it but some that raise it by a bounded amount, a run has no more steps than the measure at its
start and the steps of the second kind allow. Measures of states with lists add up weights. -/

namespace ToyBox

/-- The weights of the elements of a list, added up. -/
def weight {α : Type*} (f : α → Nat) : List α → Nat
  | [] => 0
  | a :: l => f a + weight f l

section Weight

variable {α : Type*} (f : α → Nat)

@[simp] theorem weight_nil : weight f [] = 0 := rfl

@[simp] theorem weight_cons (a : α) (l : List α) : weight f (a :: l) = f a + weight f l := rfl

@[simp] theorem weight_append (l l' : List α) : weight f (l ++ l') = weight f l + weight f l' := by
  induction l with
  | nil => simp
  | cons a l ih => rw [List.cons_append, weight_cons, weight_cons, ih, Nat.add_assoc]

theorem weight_map {β : Type*} (g : β → α) (l : List β) : weight f (l.map g) = weight (fun b => f (g b)) l := by
  induction l with
  | nil => rfl
  | cons b l ih => rw [List.map_cons, weight_cons, weight_cons, ih]

theorem weight_congr {f g : α → Nat} {l : List α} (h : ∀ a ∈ l, f a = g a) : weight f l = weight g l := by
  induction l with
  | nil => rfl
  | cons a l ih =>
      rw [weight_cons, weight_cons, h a List.mem_cons_self, ih fun b hb => h b (List.mem_cons_of_mem a hb)]

/-- One element changes. -/
theorem weight_set {l : List α} {i : Nat} {a : α} (h : l[i]? = some a) (a' : α) :
    weight f (l.set i a') + f a = weight f l + f a' := by
  induction l generalizing i with
  | nil => cases h
  | cons b l ih =>
      cases i with
      | zero =>
          cases h
          simp only [List.set_cons_zero, weight_cons]
          omega
      | succ i =>
          have hset := ih (by simpa using h)
          simp only [List.set_cons_succ, weight_cons]
          omega

end Weight

namespace TransitionSystem

variable {σ α τ β : Type*} {T : TransitionSystem σ α} {U : TransitionSystem τ β}

/-- One step, or none. -/
def StepOrStay (U : TransitionSystem τ β) (t t' : τ) : Prop := t' = t ∨ ∃ b, U.step t b = some t'

theorem Reachable.stepOrStay {t t' : τ} (ht : U.Reachable t) (h : U.StepOrStay t t') : U.Reachable t' := by
  rcases h with rfl | ⟨b, hstep⟩
  · exact ht
  · exact .step ht trivial hstep

/-- The step of a label, if there is one. -/
def stepIf (U : TransitionSystem τ β) (t : τ) : Option β → Option τ
  | some b => U.step t b
  | none => some t

theorem stepOrStay_of_stepIf {t t' : τ} {b : Option β} (h : U.stepIf t b = some t') : U.StepOrStay t t' := by
  cases b with
  | none => exact .inl (Option.some.inj h).symm
  | some b => exact .inr ⟨b, h⟩

/-- The second system can follow the first. -/
structure Simulates (T : TransitionSystem σ α) (U : TransitionSystem τ β) (R : σ → τ → Prop) : Prop where
  start : R T.start U.start
  step : ∀ s a s' t, R s t → T.step s a = some s' → ∃ t', U.StepOrStay t t' ∧ R s' t'

theorem Simulates.exists_reachable {R : σ → τ → Prop} (h : Simulates T U R) {s : σ} (hs : T.Reachable s) :
    ∃ t, U.Reachable t ∧ R s t := by
  induction hs with
  | start => exact ⟨U.start, .start, h.start⟩
  | step _ _ hstep ih =>
      obtain ⟨t, ht, hrel⟩ := ih
      obtain ⟨t', hmove, hrel'⟩ := h.step _ _ _ t hrel hstep
      exact ⟨t', ht.stepOrStay hmove, hrel'⟩

/-- What is seen of a run by one who sees something of some of its steps. -/
def observe {γ : Type*} (T : TransitionSystem σ α) (see : σ → α → σ → Option γ) (s : σ) : List α → List γ
  | [] => []
  | a :: labels =>
      match T.step s a with
      | none => []
      | some s' => (see s a s').toList ++ observe T see s' labels

section Observe

variable {γ : Type*} {see : σ → α → σ → Option γ} {see' : τ → β → τ → Option γ}

theorem observe_cons {s s' : σ} {a : α} (h : T.step s a = some s') (labels : List α) :
    T.observe see s (a :: labels) = (see s a s').toList ++ T.observe see s' labels := by
  rw [observe, h]

/-- Where each step is matched by a step of which the same is seen, or by none if nothing is seen of it, the same is
seen of the runs. -/
theorem exists_run_of_observed {R : σ → τ → Prop}
    (hstep : ∀ s a s' t, R s t → T.step s a = some s' →
      (see s a s' = none ∧ R s' t) ∨ ∃ b t', U.step t b = some t' ∧ see' t b t' = see s a s' ∧ R s' t')
    {s s' : σ} {t : τ} (h : R s t) {labels : List α} (hrun : T.run s labels = some s') :
    ∃ labels' t', U.run t labels' = some t' ∧ U.observe see' t labels' = T.observe see s labels ∧ R s' t' := by
  induction labels generalizing s t with
  | nil =>
      cases hrun
      exact ⟨[], t, rfl, rfl, h⟩
  | cons a labels ih =>
      obtain ⟨s₁, hfirst, hrest⟩ := run_cons.mp hrun
      rw [observe_cons hfirst]
      rcases hstep s a s₁ t h hfirst with ⟨hnone, h₁⟩ | ⟨b, t₁, hmove, hsee, h₁⟩
      · obtain ⟨labels', t', hrun', hobserve, h'⟩ := ih h₁ hrest
        rw [hnone]
        exact ⟨labels', t', hrun', hobserve, h'⟩
      · obtain ⟨labels', t', hrun', hobserve, h'⟩ := ih h₁ hrest
        refine ⟨b :: labels', t', run_cons.mpr ⟨t₁, hmove, hrun'⟩, ?_, h'⟩
        rw [observe_cons hmove, hsee, hobserve]

end Observe

/-- A refinement mapping: where it takes every step of a run that meets the guard to a step that meets another guard,
or to none, it takes what the run reaches to what is reached so. -/
theorem ReachableBy.mapBy {guard : σ → α → Prop} {guard' : τ → β → Prop} {f : σ → τ} (hstart : f T.start = U.start)
    (hstep : ∀ s a s', T.ReachableBy guard s → guard s a → T.step s a = some s' →
      f s' = f s ∨ ∃ b, guard' (f s) b ∧ U.step (f s) b = some (f s'))
    {s : σ} (hs : T.ReachableBy guard s) : U.ReachableBy guard' (f s) := by
  induction hs with
  | start =>
      rw [hstart]
      exact .start
  | step hs hguard h ih =>
      rcases hstep _ _ _ hs hguard h with hstay | ⟨b, hguard', hmove⟩
      · rw [hstay]
        exact ih
      · exact .step ih hguard' hmove

/-- So it is where the other system has no guard. -/
theorem ReachableBy.map {guard : σ → α → Prop} {f : σ → τ} (hstart : f T.start = U.start)
    (hstep : ∀ s a s', T.ReachableBy guard s → guard s a → T.step s a = some s' → U.StepOrStay (f s) (f s'))
    {s : σ} (hs : T.ReachableBy guard s) : U.Reachable (f s) := by
  refine ReachableBy.mapBy hstart (fun s a s' hs hguard h => ?_) hs
  exact (hstep s a s' hs hguard h).imp_right fun ⟨b, hmove⟩ => ⟨b, trivial, hmove⟩

/-- The length of a run, bounded by the measure at its start and the number of free steps. -/
theorem length_le_measure {P : σ → Prop} {allowed : α → Prop} (measure : σ → Nat) (isFree : α → Bool) (cost : Nat)
    (hP : ∀ s a s', P s → T.step s a = some s' → P s')
    (hfree : ∀ s a s', P s → isFree a = true → T.step s a = some s' → measure s' ≤ measure s + cost)
    (hstep : ∀ s a s', P s → allowed a → isFree a = false → T.step s a = some s' → measure s' < measure s)
    {s s' : σ} {labels : List α} (hs : P s) (hallowed : ∀ a ∈ labels, allowed a) (hrun : T.run s labels = some s') :
    labels.length + measure s' ≤ measure s + (cost + 1) * labels.countP isFree := by
  induction labels generalizing s with
  | nil =>
      cases hrun
      simp
  | cons a labels ih =>
      obtain ⟨s₁, hfirst, hrest⟩ := run_cons.mp hrun
      have hlater := ih (hP s a s₁ hs hfirst) (fun a' ha' => hallowed a' (List.mem_cons_of_mem a ha')) hrest
      cases ha : isFree a with
      | true =>
          have hone := hfree s a s₁ hs ha hfirst
          rw [List.length_cons, List.countP_cons_of_pos ha, Nat.mul_succ]
          omega
      | false =>
          have hone := hstep s a s₁ hs (hallowed a List.mem_cons_self) ha hfirst
          rw [List.length_cons, List.countP_cons_of_neg (by simp [ha])]
          omega

end TransitionSystem

end ToyBox
