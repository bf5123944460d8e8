import Mathlib.Data.List.Count
import Mathlib.Data.List.Dedup
import Mathlib.Data.List.Sort

/-! Sets, sorts and counts of a list. The order in which a set is walked and the order in which an unstable
sort leaves equal elements are parameters of the models that use them. -/

namespace ToyBox

variable {α β : Type}

/-- The order in which a set gives out the distinct elements of a list. -/
structure SetOrder (α : Type) where
  elems : List α → List α
  nodup : ∀ l, (elems l).Nodup
  mem_elems : ∀ {l a}, a ∈ elems l ↔ a ∈ l

/-- One such order, that of the last occurrences. -/
def SetOrder.dedup [DecidableEq α] : SetOrder α where
  elems := List.dedup
  nodup := List.nodup_dedup
  mem_elems := List.mem_dedup

/-- A sort that need not be stable. -/
structure SortOrder (le : α → α → Prop) where
  sort : List α → List α
  perm : ∀ l, (sort l).Perm l
  sorted : ∀ l, (sort l).Pairwise le

theorem SortOrder.mem_sort {le : α → α → Prop} (order : SortOrder le) {l : List α} {a : α} :
    a ∈ order.sort l ↔ a ∈ l :=
  (order.perm l).mem_iff

/-- Insertion is such a sort. -/
def SortOrder.insertion (le : α → α → Prop) [DecidableRel le] [Std.Total le] [IsTrans α le] : SortOrder le where
  sort := List.insertionSort le
  perm := List.perm_insertionSort le
  sorted := List.pairwise_insertionSort le

/-- The elements with one image number as many as one of them occurs exactly when it is the only one. -/
theorem count_filterMap_eq_count_iff [BEq α] [LawfulBEq α] [BEq β] [LawfulBEq β] {f : α → Option β} {l : List α}
    {a : α} {b : β} (ha : f a = some b) :
    (l.filterMap f).count b = l.count a ↔ ∀ a' ∈ l, f a' = some b → a' = a := by
  have himage : (l.filterMap f).count b = (l.filter fun x => f x == some b).length := by
    rw [List.count, List.countP_filterMap, List.countP_eq_length_filter]
    congr 1
    apply List.filter_congr
    intro x _
    cases f x <;> simp
  have hkey : l.count a = (l.filter fun x => f x == some b).count a :=
    (List.count_filter (by simp [ha])).symm
  rw [himage, hkey, eq_comm, List.count_eq_length]
  simp only [List.mem_filter, beq_iff_eq, and_imp, eq_comm (a := a)]

/-- No element has the image that is not counted. -/
theorem count_filterMap_eq_zero_iff [BEq β] [LawfulBEq β] {f : α → Option β} {l : List α} {b : β} :
    (l.filterMap f).count b = 0 ↔ ∀ a ∈ l, f a ≠ some b := by
  rw [List.count_eq_zero, List.mem_filterMap]
  push Not
  rfl

end ToyBox
