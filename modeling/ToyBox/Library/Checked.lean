import Mathlib.Data.List.Forall2

/-! Loops of checked computations: a `mapM` in `Except` succeeds exactly when every step does. -/

namespace ToyBox.Checked

variable {ε α β : Type}

theorem bind_eq_ok_iff {x : Except ε α} {f : α → Except ε β} {b : β} :
    (x >>= f) = .ok b ↔ ∃ a, x = .ok a ∧ f a = .ok b := by
  cases x with
  | error e => simp [bind, Except.bind]
  | ok a => simp [bind, Except.bind]

theorem ok_bind (a : α) (f : α → Except ε β) : (Except.ok a >>= f) = f a := rfl

theorem bind_of_eq_ok {x : Except ε α} {a : α} (h : x = .ok a) (f : α → Except ε β) :
    (x >>= f) = f a := by
  rw [h, ok_bind]

theorem eq_ok_of_toOption {x : Except ε α} {a : α} (h : x.toOption = some a) : x = .ok a := by
  cases x with
  | error e => cases h
  | ok b => rw [Option.some.inj h]

theorem bind_of_eq_error {x : Except ε α} {e : ε} (h : x = .error e) (f : α → Except ε β) :
    (x >>= f) = .error e := by
  rw [h]
  rfl

/-- Every member of a list is related to one of the other list. -/
theorem exists_of_mem_left {R : α → β → Prop} {l : List α} {r : List β} (h : List.Forall₂ R l r) {a : α}
    (ha : a ∈ l) : ∃ b ∈ r, R a b := by
  induction h with
  | nil => exact absurd ha List.not_mem_nil
  | @cons a' b l r hstep hrest ih =>
      rcases List.mem_cons.mp ha with rfl | ha
      · exact ⟨b, List.mem_cons_self, hstep⟩
      · obtain ⟨b', hb', hrel⟩ := ih ha
        exact ⟨b', List.mem_cons_of_mem b hb', hrel⟩

theorem exists_of_mem_right {R : α → β → Prop} {l : List α} {r : List β} (h : List.Forall₂ R l r) {b : β}
    (hb : b ∈ r) : ∃ a ∈ l, R a b :=
  exists_of_mem_left h.flip hb

theorem mapM_eq_ok_iff {f : α → Except ε β} {l : List α} {r : List β} :
    l.mapM f = .ok r ↔ List.Forall₂ (fun a b => f a = .ok b) l r := by
  induction l generalizing r with
  | nil =>
      rw [List.mapM_nil, List.forall₂_nil_left_iff]
      exact ⟨fun h => (Except.ok.inj h).symm, fun h => h ▸ rfl⟩
  | cons a l ih =>
      rw [List.mapM_cons]
      constructor
      · intro h
        obtain ⟨b, hb, h⟩ := bind_eq_ok_iff.mp h
        obtain ⟨r', hbs, h⟩ := bind_eq_ok_iff.mp h
        obtain rfl : b :: r' = r := Except.ok.inj h
        exact .cons hb (ih.mp hbs)
      · intro h
        cases h with
        | cons hb hbs => rw [hb, ok_bind, ih.mpr hbs]; rfl

/-- The loop succeeds when every step does. -/
theorem exists_mapM_eq_ok {f : α → Except ε β} {l : List α} (h : ∀ a ∈ l, ∃ b, f a = .ok b) :
    ∃ r, l.mapM f = .ok r := by
  induction l with
  | nil => exact ⟨[], rfl⟩
  | cons a l ih =>
      obtain ⟨b, hb⟩ := h a List.mem_cons_self
      obtain ⟨r, hbs⟩ := ih fun a ha => h a (List.mem_cons_of_mem _ ha)
      exact ⟨b :: r, mapM_eq_ok_iff.mpr (.cons hb (mapM_eq_ok_iff.mp hbs))⟩

theorem length_mapM {f : α → Except ε β} {l : List α} {r : List β} (h : l.mapM f = .ok r) :
    r.length = l.length :=
  (mapM_eq_ok_iff.mp h).length_eq.symm

theorem mapM_eq_ok_map_iff {f : α → Except ε β} {g : α → β} {l : List α} :
    l.mapM f = .ok (l.map g) ↔ ∀ a ∈ l, f a = .ok (g a) := by
  rw [mapM_eq_ok_iff, List.forall₂_map_right_iff, List.forall₂_same]

theorem mapM_map_eq_ok_map_iff {γ : Type} {f : α → Except ε β} {g : γ → α} {h : γ → β} {l : List γ} :
    (l.map g).mapM f = .ok (l.map h) ↔ ∀ c ∈ l, f (g c) = .ok (h c) := by
  rw [mapM_eq_ok_iff, List.forall₂_map_left_iff, List.forall₂_map_right_iff, List.forall₂_same]

/-- Every result of the loop is the result of some step. -/
theorem exists_of_mem_mapM {f : α → Except ε β} {l : List α} {r : List β}
    (h : l.mapM f = .ok r) {b : β} (hb : b ∈ r) : ∃ a ∈ l, f a = .ok b :=
  exists_of_mem_right (mapM_eq_ok_iff.mp h) hb

/-- The loop over `0, …, n - 1` puts the result of step `i` at place `i`. -/
theorem getElem?_mapM_range {f : Nat → Except ε β} {n : Nat} {r : List β} (h : (List.range n).mapM f = .ok r)
    {i : Nat} (hi : i < n) : ∃ b, r[i]? = some b ∧ f i = .ok b := by
  have hsteps := mapM_eq_ok_iff.mp h
  have hlen := hsteps.length_eq
  rw [List.length_range] at hlen
  have hlt : i < r.length := hlen ▸ hi
  refine ⟨r[i], List.getElem?_eq_getElem hlt, ?_⟩
  have hstep := hsteps.get (by rw [List.length_range]; exact hi) hlt
  rwa [List.get_eq_getElem, List.getElem_range] at hstep

theorem mapM_range_eq_ok {f : Nat → Except ε β} {r : List β}
    (h : ∀ i (hi : i < r.length), f i = .ok r[i]) : (List.range r.length).mapM f = .ok r := by
  rw [mapM_eq_ok_iff, List.forall₂_iff_get]
  refine ⟨List.length_range, fun i _ hi => ?_⟩
  rw [List.get_eq_getElem, List.getElem_range]
  exact h i hi

end ToyBox.Checked
