import Mathlib.Data.List.DropRight
import Mathlib.Data.List.Pairwise

/-! A log cut into segments under increasing keys: the closed segments, oldest first, and the one that is
being written. Under a retention bound the oldest closed segments are gone and the newest are kept. -/

namespace ToyBox

structure Segments (κ α : Type*) where
  closed : List (κ × List α) := []
  /-- The key of the segment that is being written. -/
  key : κ
  current : List α := []

namespace Segments

variable {κ α : Type*} (l : Segments κ α)

def append (xs : List α) : Segments κ α := { l with current := l.current ++ xs }

/-- The current segment is closed and a new one is begun. -/
def roll (key : κ) : Segments κ α := { closed := l.closed ++ [(l.key, l.current)], key }

/-- Everything that was written, in order. -/
def all : List α := l.closed.flatMap Prod.snd ++ l.current

/-- The keys of the closed segments. -/
def keys : List κ := l.closed.map Prod.fst

theorem all_append (xs : List α) : (l.append xs).all = l.all ++ xs :=
  (List.append_assoc _ _ _).symm

theorem all_roll (key : κ) : (l.roll key).all = l.all := by
  simp [all, roll]

@[simp] theorem keys_roll (key : κ) : (l.roll key).keys = l.keys ++ [l.key] := by
  simp [keys, roll]

/-- The keys increase, up to the key of the current segment. -/
def Increasing [LT κ] : Prop := (l.keys ++ [l.key]).Pairwise (· < ·)

variable {l}

theorem Increasing.roll [Preorder κ] (h : l.Increasing) {key : κ} (hlt : l.key < key) :
    (l.roll key).Increasing := by
  rw [Increasing, keys_roll, List.pairwise_append]
  refine ⟨h, List.pairwise_singleton _ _, ?_⟩
  intro k hk key' hkey'
  obtain rfl := List.mem_singleton.mp hkey'
  rcases List.mem_append.mp hk with hold | hlast
  · exact ((List.pairwise_append.mp h).2.2 k hold l.key List.mem_cons_self).trans hlt
  · obtain rfl := List.mem_singleton.mp hlast
    exact hlt

theorem Increasing.lt_key [LT κ] (h : l.Increasing) {k : κ} (hk : k ∈ l.keys) : k < l.key :=
  (List.pairwise_append.mp h).2.2 k hk l.key List.mem_cons_self

/-! ### Retention -/

/-- Of the closed segments at most `n` are kept, the newest, and only if they are `n` are others gone. -/
structure Retained (n : Nat) (l : Segments κ α) (gone kept : List (κ × List α)) : Prop where
  closed : l.closed = gone ++ kept
  length_le : kept.length ≤ n
  full : gone = [] ∨ kept.length = n

namespace Retained

variable {n : Nat} {gone kept : List (κ × List α)}

theorem append (h : l.Retained n gone kept) (xs : List α) : (l.append xs).Retained n gone kept :=
  ⟨h.closed, h.length_le, h.full⟩

/-- A segment is closed and there is room for it. -/
theorem roll (h : l.Retained n gone kept) (key : κ) (hroom : kept.length < n) :
    (l.roll key).Retained n gone (kept ++ [(l.key, l.current)]) where
  closed := by rw [Segments.roll, h.closed, List.append_assoc]
  length_le := by rw [List.length_append, List.length_singleton]; exact hroom
  full := .inl (h.full.resolve_right (Nat.ne_of_lt hroom))

/-- A segment is closed and the oldest one kept goes. -/
theorem roll_full (h : l.Retained n gone kept) (key : κ) (hfull : ¬kept.length < n)
    {oldest : κ × List α} {rest : List (κ × List α)}
    (hrest : kept ++ [(l.key, l.current)] = oldest :: rest) :
    (l.roll key).Retained n (gone ++ [oldest]) rest := by
  have hlength : kept.length = n := by
    have := h.length_le
    omega
  have hrestLength : rest.length = n := by
    have := congrArg List.length hrest
    simpa [hlength] using this.symm
  refine ⟨?_, hrestLength.le, .inr hrestLength⟩
  calc
    l.closed ++ [(l.key, l.current)] = gone ++ (kept ++ [(l.key, l.current)]) := by
      rw [h.closed, List.append_assoc]
    _ = gone ++ [oldest] ++ rest := by rw [hrest, List.append_assoc, List.singleton_append]

theorem keys (h : l.Retained n gone kept) : l.keys = gone.map Prod.fst ++ kept.map Prod.fst := by
  rw [Segments.keys, h.closed, List.map_append]

/-- A segment that is gone has another key than those that are kept. -/
theorem key_not_mem [Preorder κ] {oldest : κ × List α} (h : l.Retained n (gone ++ [oldest]) kept)
    (hincreasing : l.Increasing) : oldest.1 ∉ kept.map Prod.fst := by
  intro hmem
  have hpairwise := (List.pairwise_append.mp hincreasing).1
  rw [h.keys, List.pairwise_append] at hpairwise
  exact lt_irrefl _ (hpairwise.2.2 oldest.1 (by simp) oldest.1 hmem)

/-- What is kept are the last segments, as many as the bound allows. -/
theorem keys_kept (h : l.Retained n gone kept) :
    kept.map Prod.fst = l.keys.rtake (min l.keys.length n) := by
  have hlength : (kept.map Prod.fst).length = min l.keys.length n := by
    rw [h.keys, List.length_append, List.length_map, List.length_map]
    rcases h.full with hnone | hfull
    · rw [hnone, List.length_nil, Nat.zero_add, Nat.min_eq_left h.length_le]
    · rw [hfull, Nat.min_eq_right (Nat.le_add_left _ _)]
  symm
  calc
    l.keys.rtake (min l.keys.length n) = l.keys.drop (gone.map Prod.fst).length := by
      rw [← hlength, List.rtake, h.keys, List.length_append, Nat.add_sub_cancel]
    _ = kept.map Prod.fst := by rw [h.keys, List.drop_left]

end Retained

end Segments

end ToyBox
