import Mathlib.Data.List.Forall2
import ToyBox.Library.Simulation

/-! The places of an ordered list, by counts. An element of an ordered list is not above a bound exactly when its place
is below the number of elements that are not; so two ordered lists with the same counts have the same elements up to
order. Counts add up over the parts of a collection, and the first elements of the parts have all counts up to their
number. So the first elements of a collection are those of the first elements of its parts. -/

namespace ToyBox

section Ranking

variable {α : Type*} (le : α → α → Prop)

open Classical in
/-- How many elements are not above a bound. -/
noncomputable def countUpTo (bound : α) (l : List α) : Nat := l.countP fun a => decide (le a bound)

variable {le}

theorem countUpTo_nil (bound : α) : countUpTo le bound [] = 0 := rfl

theorem countUpTo_cons_of_le {bound a : α} (h : le a bound) (l : List α) :
    countUpTo le bound (a :: l) = countUpTo le bound l + 1 :=
  List.countP_cons_of_pos (by simpa using h)

@[simp] theorem countUpTo_append (bound : α) (l l' : List α) :
    countUpTo le bound (l ++ l') = countUpTo le bound l + countUpTo le bound l' :=
  List.countP_append

theorem countUpTo_perm {l l' : List α} (h : l.Perm l') (bound : α) : countUpTo le bound l = countUpTo le bound l' :=
  h.countP_eq _

theorem countUpTo_flatten (bound : α) (parts : List (List α)) :
    countUpTo le bound parts.flatten = weight (countUpTo le bound) parts := by
  induction parts with
  | nil => rfl
  | cons part parts ih => rw [List.flatten_cons, countUpTo_append, ih, weight_cons]

variable [IsTrans α le]

/-- Where the first element is above the bound, they all are. -/
theorem countUpTo_cons_of_not_le {bound a : α} {l : List α} (hsorted : (a :: l).Pairwise le) (h : ¬le a bound) :
    countUpTo le bound (a :: l) = 0 := by
  refine List.countP_eq_zero.mpr fun b hb hle => ?_
  have hle : le b bound := by simpa using hle
  rcases List.mem_cons.mp hb with rfl | hb
  · exact h hle
  · exact h (trans_of le (List.rel_of_pairwise_cons hsorted hb) hle)

/-- The place of an element and the count of those not above the bound. -/
theorem le_bound_iff {bound : α} {l : List α} (hsorted : l.Pairwise le) {i : Nat} (hi : i < l.length) :
    le l[i] bound ↔ i < countUpTo le bound l := by
  induction l generalizing i with
  | nil => exact absurd hi (Nat.not_lt_zero i)
  | cons a l ih =>
      by_cases ha : le a bound
      · rw [countUpTo_cons_of_le ha]
        cases i with
        | zero => exact iff_of_true ha (Nat.succ_pos _)
        | succ i =>
            rw [List.getElem_cons_succ, ih hsorted.of_cons (Nat.lt_of_succ_lt_succ hi), Nat.succ_lt_succ_iff]
      · rw [countUpTo_cons_of_not_le hsorted ha]
        refine iff_of_false (fun hle => ha ?_) (Nat.not_lt_zero i)
        cases i with
        | zero => exact hle
        | succ i => exact trans_of le (List.rel_of_pairwise_cons hsorted (List.getElem_mem _)) hle

/-- The first elements of an ordered list have its counts, up to their number. -/
theorem countUpTo_take (bound : α) {l : List α} (hsorted : l.Pairwise le) (k : Nat) :
    countUpTo le bound (l.take k) = min k (countUpTo le bound l) := by
  induction l generalizing k with
  | nil => rw [List.take_nil, countUpTo_nil, Nat.min_zero]
  | cons a l ih =>
      cases k with
      | zero => rw [List.take_zero, countUpTo_nil, Nat.zero_min]
      | succ k =>
          rw [List.take_succ_cons]
          by_cases ha : le a bound
          · rw [countUpTo_cons_of_le ha, countUpTo_cons_of_le ha, ih hsorted.of_cons, Nat.succ_min_succ]
          · have hfirst : (a :: l.take k).Pairwise le := hsorted.sublist (List.take_sublist (k + 1) (a :: l))
            rw [countUpTo_cons_of_not_le hsorted ha, countUpTo_cons_of_not_le hfirst ha, Nat.min_zero]

/-- Weights that are cut at a bound, below it. -/
theorem min_weight_min (k : Nat) (f : α → Nat) (l : List α) :
    min k (weight (fun a => min k (f a)) l) = min k (weight f l) := by
  induction l with
  | nil => rfl
  | cons a l ih =>
      rw [weight_cons, weight_cons]
      omega

theorem length_flatten_eq_weight (parts : List (List α)) : parts.flatten.length = weight List.length parts := by
  induction parts with
  | nil => rfl
  | cons part parts ih => rw [List.flatten_cons, List.length_append, ih, weight_cons]

variable {parts : List (List α)} {all merge : List α} {k : Nat}

/-- The first elements of a collection and of the first elements of its parts, put together. -/
theorem min_countUpTo_eq (hparts : ∀ part ∈ parts, part.Pairwise le) (hall : all.Perm parts.flatten)
    (hmerge : merge.Perm (parts.map (List.take k)).flatten) (bound : α) :
    min k (countUpTo le bound all) = min k (countUpTo le bound merge) := by
  have hcut : weight (countUpTo le bound) (parts.map (List.take k)) =
      weight (fun part => min k (countUpTo le bound part)) parts := by
    rw [weight_map]
    exact weight_congr fun part hpart => countUpTo_take bound (hparts part hpart) k
  rw [countUpTo_perm hall, countUpTo_perm hmerge, countUpTo_flatten, countUpTo_flatten, hcut, min_weight_min]

theorem min_length_eq (hall : all.Perm parts.flatten) (hmerge : merge.Perm (parts.map (List.take k)).flatten) :
    min k all.length = min k merge.length := by
  have hcut : weight List.length (parts.map (List.take k)) = weight (fun part => min k part.length) parts := by
    rw [weight_map]
    exact weight_congr fun part _ => List.length_take
  rw [hall.length_eq, hmerge.length_eq, length_flatten_eq_weight, length_flatten_eq_weight, hcut, min_weight_min]

/-- The first elements of a collection are, up to order, the first of the first elements of its ordered parts. -/
theorem forall₂_take_of_parts [Std.Refl le] (hparts : ∀ part ∈ parts, part.Pairwise le) (hall : all.Perm parts.flatten)
    (hmerge : merge.Perm (parts.map (List.take k)).flatten) (hallSorted : all.Pairwise le)
    (hmergeSorted : merge.Pairwise le) :
    List.Forall₂ (fun a b => le a b ∧ le b a) (all.take k) (merge.take k) := by
  have hlength : (all.take k).length = (merge.take k).length := by
    rw [List.length_take, List.length_take]
    exact min_length_eq hall hmerge
  refine List.forall₂_iff_get.mpr ⟨hlength, fun i hi hi' => ?_⟩
  have hlt : i < k ∧ i < all.length := Nat.lt_min.mp (List.length_take ▸ hi)
  have hlt' : i < merge.length := (Nat.lt_min.mp (List.length_take ▸ hi')).2
  have hiff (bound : α) : le all[i] bound ↔ le merge[i] bound := by
    rw [le_bound_iff hallSorted hlt.2, le_bound_iff hmergeSorted hlt']
    have hcount := min_countUpTo_eq hparts hall hmerge bound
    omega
  rw [List.get_eq_getElem, List.get_eq_getElem, List.getElem_take, List.getElem_take]
  exact ⟨(hiff _).mpr (refl_of le _), (hiff _).mp (refl_of le _)⟩

end Ranking

end ToyBox
