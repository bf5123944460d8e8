import Mathlib.Logic.Basic

/-! Labelled transition systems: a start state and a partial step function, whose label fixes everything
a step leaves open (which thread moves, what a system call returns). A guard selects the runs whose
steps all meet a condition on the state before the step and its label. -/

namespace ToyBox

/-- A start state and what each label does to a state, if it can happen there. -/
structure TransitionSystem (σ α : Type*) where
  start : σ
  step : σ → α → Option σ

namespace TransitionSystem

variable {σ α : Type*} (T : TransitionSystem σ α)

/-- The states that runs reach by steps that meet the guard. -/
inductive ReachableBy (guard : σ → α → Prop) : σ → Prop
  | start : ReachableBy guard T.start
  | step {s s' : σ} {a : α} :
      ReachableBy guard s → guard s a → T.step s a = some s' → ReachableBy guard s'

/-- The states that runs reach. -/
abbrev Reachable : σ → Prop := T.ReachableBy fun _ _ => True

/-- The state after a sequence of labels. -/
def run (s : σ) : List α → Option σ
  | [] => some s
  | a :: labels => (T.step s a).bind fun s' => run s' labels

/-- The state after a sequence of labels, if every step passes a test. -/
def runIf (test : σ → α → Bool) (s : σ) : List α → Option σ
  | [] => some s
  | a :: labels => if test s a then (T.step s a).bind fun s' => runIf test s' labels else none

variable {T}

theorem ReachableBy.mono {guard guard' : σ → α → Prop} (h : ∀ s a, guard s a → guard' s a) {s : σ}
    (hs : T.ReachableBy guard s) : T.ReachableBy guard' s := by
  induction hs with
  | start => exact .start
  | step _ hguard hstep ih => exact .step ih (h _ _ hguard) hstep

/-- What holds at the start and is kept by every step from a reachable state holds of every reachable
state. -/
theorem ReachableBy.invariant {guard : σ → α → Prop} {P : σ → Prop} (hstart : P T.start)
    (hstep : ∀ s a s', T.ReachableBy guard s → P s → guard s a → T.step s a = some s' → P s')
    {s : σ} (hs : T.ReachableBy guard s) : P s := by
  induction hs with
  | start => exact hstart
  | step hs hguard h ih => exact hstep _ _ _ hs ih hguard h

theorem ReachableBy.reachable {guard : σ → α → Prop} {s : σ} (hs : T.ReachableBy guard s) :
    T.Reachable s :=
  hs.mono fun _ _ _ => trivial

theorem run_cons {s s' : σ} {a : α} {labels : List α} :
    T.run s (a :: labels) = some s' ↔ ∃ s₁, T.step s a = some s₁ ∧ T.run s₁ labels = some s' :=
  Option.bind_eq_some_iff

/-- A run from a reachable state whose labels meet the guard ends in a reachable state. -/
theorem ReachableBy.run {guard : σ → α → Prop} {s s' : σ} (hs : T.ReachableBy guard s) {labels : List α}
    (hguard : ∀ a ∈ labels, ∀ s, guard s a) (h : T.run s labels = some s') :
    T.ReachableBy guard s' := by
  induction labels generalizing s with
  | nil => exact Option.some.inj h ▸ hs
  | cons a labels ih =>
      obtain ⟨s₁, hstep, hrest⟩ := run_cons.mp h
      exact ih (.step hs (hguard a List.mem_cons_self s) hstep)
        (fun a' ha' => hguard a' (List.mem_cons_of_mem a ha')) hrest

/-- A run whose steps pass a test for the guard. -/
theorem ReachableBy.runIf {guard : σ → α → Prop} {test : σ → α → Bool} (htest : ∀ s a, test s a = true → guard s a)
    {s s' : σ} (hs : T.ReachableBy guard s) {labels : List α} (h : T.runIf test s labels = some s') :
    T.ReachableBy guard s' := by
  induction labels generalizing s with
  | nil => exact Option.some.inj h ▸ hs
  | cons a labels ih =>
      rw [TransitionSystem.runIf] at h
      split at h
      · rename_i hpasses
        obtain ⟨s₁, hstep, hrest⟩ := Option.bind_eq_some_iff.mp h
        exact ih (.step hs (htest s a hpasses) hstep) hrest
      · cases h

/-- A run from a reachable state ends in a reachable state. -/
theorem Reachable.run {s s' : σ} (hs : T.Reachable s) {labels : List α}
    (h : T.run s labels = some s') : T.Reachable s' :=
  ReachableBy.run hs (fun _ _ _ => trivial) h

theorem reachable_of_run {labels : List α} {s : σ} (h : T.run T.start labels = some s) :
    T.Reachable s :=
  Reachable.run .start h

end TransitionSystem

end ToyBox
