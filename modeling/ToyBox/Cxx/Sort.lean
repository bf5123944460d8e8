import Mathlib.Data.List.Sort

/-! `std::sort` with a comparator. The order in which equivalent elements come out is the library's
choice, so the algorithm is a parameter of the models that sort; what every implementation gives is
a permutation of the range, and an ordered one when the comparator is a strict weak ordering on the
range. (Where it is none, C++ promises nothing; the implementations at hand only swap elements of the
range, and the model keeps that much.) -/

namespace ToyBox.Cxx

variable {α : Type}

/-- The comparator requirement of `std::sort`, on the elements of one range. -/
structure StrictWeakOrder (comp : α → α → Bool) (range : List α) : Prop where
  irrefl : ∀ a ∈ range, comp a a = false
  trans : ∀ a ∈ range, ∀ b ∈ range, ∀ c ∈ range, comp a b → comp b c → comp a c
  incomparable_trans : ∀ a ∈ range, ∀ b ∈ range, ∀ c ∈ range,
    comp a b = false → comp b a = false → comp b c = false → comp c b = false → comp a c = false

/-- No later element of the range is less than an earlier one. -/
def Ordered (comp : α → α → Bool) (range : List α) : Prop :=
  range.Pairwise fun a b => comp b a = false

/-- An implementation of `std::sort` on ranges of row numbers. -/
structure StdSort where
  sort : (Nat → Nat → Bool) → List Nat → List Nat
  perm : ∀ comp range, (sort comp range).Perm range
  ordered : ∀ comp range, StrictWeakOrder comp range → Ordered comp (sort comp range)

namespace StrictWeakOrder

variable {comp : α → α → Bool} {range : List α}

theorem of_subset {part : List α} (h : StrictWeakOrder comp range) (hsub : part ⊆ range) :
    StrictWeakOrder comp part where
  irrefl a ha := h.irrefl a (hsub ha)
  trans a ha b hb c hc := h.trans a (hsub ha) b (hsub hb) c (hsub hc)
  incomparable_trans a ha b hb c hc := h.incomparable_trans a (hsub ha) b (hsub hb) c (hsub hc)

theorem asymm (h : StrictWeakOrder comp range) {a b : α} (ha : a ∈ range) (hb : b ∈ range)
    (hab : comp a b) : comp b a = false := by
  by_contra hba
  have hloop := h.trans a ha b hb a ha hab (by simpa using hba)
  rw [h.irrefl a ha] at hloop
  exact Bool.noConfusion hloop

/-- An asymmetric comparator whose negation is transitive. -/
theorem of_negTrans (hasymm : ∀ a ∈ range, ∀ b ∈ range, comp a b → comp b a = false)
    (hneg : ∀ a ∈ range, ∀ b ∈ range, ∀ c ∈ range, comp a b = false → comp b c = false → comp a c = false) :
    StrictWeakOrder comp range where
  irrefl a ha := by
    by_contra haa
    have haa : comp a a = true := by simpa using haa
    rw [hasymm a ha a ha haa] at haa
    exact Bool.noConfusion haa
  trans a ha b hb c hc hab hbc := by
    by_contra hac
    have hab' := hneg a ha c hc b hb (by simpa using hac) (hasymm b hb c hc hbc)
    rw [hab'] at hab
    exact Bool.noConfusion hab
  incomparable_trans a ha b hb c hc hab _ hbc _ := hneg a ha b hb c hc hab hbc

/-- "Not greater" is transitive. -/
theorem not_gt_trans (h : StrictWeakOrder comp range) {a b c : α} (ha : a ∈ range) (hb : b ∈ range)
    (hc : c ∈ range) (hba : comp b a = false) (hcb : comp c b = false) : comp c a = false := by
  by_contra hca
  have hca : comp c a := by simpa using hca
  have hbc : comp b c = false := by
    by_contra hbc
    have := h.trans b hb c hc a ha (by simpa using hbc) hca
    rw [hba] at this
    exact Bool.noConfusion this
  have hab : comp a b = false := by
    by_contra hab
    have := h.trans c hc a ha b hb hca (by simpa using hab)
    rw [hcb] at this
    exact Bool.noConfusion this
  have := h.incomparable_trans c hc b hb a ha hcb hbc hba hab
  rw [this] at hca
  exact Bool.noConfusion hca

end StrictWeakOrder

/-- Insertion of one element before the first that is not less than it. -/
def insertBy (comp : α → α → Bool) (a : α) : List α → List α
  | [] => [a]
  | b :: range => if comp b a then b :: insertBy comp a range else a :: b :: range

def insertionSort (comp : α → α → Bool) : List α → List α
  | [] => []
  | a :: range => insertBy comp a (insertionSort comp range)

theorem perm_insertBy (comp : α → α → Bool) (a : α) (range : List α) :
    (insertBy comp a range).Perm (a :: range) := by
  induction range with
  | nil => exact .refl _
  | cons b range ih =>
      rw [insertBy]
      split
      · exact (ih.cons b).trans (.swap a b range)
      · exact .refl _

theorem perm_insertionSort (comp : α → α → Bool) (range : List α) :
    (insertionSort comp range).Perm range := by
  induction range with
  | nil => exact .refl _
  | cons a range ih => exact (perm_insertBy comp a _).trans (ih.cons a)

theorem ordered_insertBy {comp : α → α → Bool} (a : α) (range : List α)
    (h : StrictWeakOrder comp (a :: range)) (hrange : Ordered comp range) :
    Ordered comp (insertBy comp a range) := by
  induction range with
  | nil => exact List.pairwise_singleton _ _
  | cons b range ih =>
      obtain ⟨hb, htail⟩ := List.pairwise_cons.mp hrange
      rw [insertBy]
      split
      case isTrue hlt =>
        refine List.pairwise_cons.mpr ⟨fun c hc => ?_, ih (h.of_subset (by simp)) htail⟩
        rcases List.mem_cons.mp ((perm_insertBy comp a range).subset hc) with rfl | hc
        · exact h.asymm (by simp) (by simp) hlt
        · exact hb c hc
      case isFalse hge =>
        have hge : comp b a = false := by simpa using hge
        refine List.pairwise_cons.mpr ⟨fun c hc => ?_, hrange⟩
        rcases List.mem_cons.mp hc with rfl | hc
        · exact hge
        · exact h.not_gt_trans (by simp) (by simp) (by simp [hc]) hge (hb c hc)

theorem ordered_insertionSort {comp : α → α → Bool} (range : List α)
    (h : StrictWeakOrder comp range) : Ordered comp (insertionSort comp range) := by
  induction range with
  | nil => exact List.Pairwise.nil
  | cons a range ih =>
      refine ordered_insertBy a _ (h.of_subset ?_) (ih (h.of_subset (by simp)))
      exact List.cons_subset_cons a (perm_insertionSort comp range).subset

/-- A `std::sort` that can be run. -/
def StdSort.insertion : StdSort where
  sort := insertionSort
  perm := perm_insertionSort
  ordered _ range h := ordered_insertionSort range h

end ToyBox.Cxx
