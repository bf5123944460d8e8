import Mathlib.Data.List.Basic
import Mathlib.Data.List.Chain

/-! The nonempty pieces of a list between separators, and how they compose: cutting the list in two cuts
the pieces in two exactly when there is a separator on one side of the cut. -/

namespace ToyBox

variable {α : Type*} [DecidableEq α] (d : α)

/-- The nonempty pieces between the separators. -/
def pieces (l : List α) : List (List α) := (l.splitOn d).filter (· ≠ [])

/-- One side of a cut has a separator next to the cut. -/
def CutAt (a b : List α) : Prop := a.getLast? = some d ∨ b.head? = some d

instance (a b : List α) : Decidable (CutAt d a b) := inferInstanceAs (Decidable (_ ∨ _))

variable {d}

@[simp] theorem pieces_nil : pieces d ([] : List α) = [] := by
  simp [pieces]

theorem pieces_cons_separator (l : List α) : pieces d (d :: l) = pieces d l := by
  simp [pieces, List.splitOn_cons_eq_if_modifyHead]

/-- A piece ends before a separator and at the end of the list. -/
theorem pieces_cons_last {x : α} (hx : x ≠ d) {l : List α} (hl : l.head?.all (· = d)) :
    pieces d (x :: l) = [x] :: pieces d l := by
  cases l with
  | nil => simp [pieces, List.splitOn_cons_eq_if_modifyHead, hx]
  | cons y l =>
      obtain rfl : y = d := by simpa using hl
      simp [pieces, List.splitOn_cons_eq_if_modifyHead, hx]

/-- Elsewhere it goes on. -/
theorem pieces_cons_cons {x y : α} (hx : x ≠ d) (hy : y ≠ d) (l : List α) :
    pieces d (x :: y :: l) = (pieces d (y :: l)).modifyHead (x :: ·) := by
  simp only [pieces, List.splitOn_cons_eq_if_modifyHead, hx, hy, beq_iff_eq, if_false]
  cases l.splitOn d with
  | nil => rfl
  | cons piece rest => rfl

theorem pieces_cons_ne_nil {x : α} (hx : x ≠ d) (l : List α) : pieces d (x :: l) ≠ [] := by
  simp only [pieces, List.splitOn_cons_eq_if_modifyHead, hx, beq_iff_eq, if_false]
  cases hsplit : l.splitOn d with
  | nil => exact absurd hsplit (List.splitOn_ne_nil d l)
  | cons piece rest => simp

omit [DecidableEq α] in
theorem cutAt_cons {x : α} {a b : List α} (ha : a ≠ []) : CutAt d (x :: a) b ↔ CutAt d a b := by
  obtain ⟨y, a, rfl⟩ := List.exists_cons_of_ne_nil ha
  rw [CutAt, CutAt, List.getLast?_cons_cons]

/-- A cut next to a separator cuts no piece. -/
theorem pieces_append {a b : List α} (h : CutAt d a b) : pieces d (a ++ b) = pieces d a ++ pieces d b := by
  induction a with
  | nil => simp
  | cons x a ih =>
      by_cases hx : x = d
      · subst hx
        rw [List.cons_append, pieces_cons_separator, pieces_cons_separator]
        by_cases ha : a = []
        · simp [ha]
        · exact ih ((cutAt_cons ha).mp h)
      · cases a with
        | nil =>
            have hb : b.head?.all (· = d) := by
              rcases h with h | h
              · exact absurd (by simpa using h) hx
              · simp [h]
            rw [List.singleton_append, pieces_cons_last hx hb, pieces_cons_last hx rfl, pieces_nil]
            rfl
        | cons y a =>
            have hrest := ih ((cutAt_cons (List.cons_ne_nil y a)).mp h)
            simp only [List.cons_append] at hrest ⊢
            by_cases hy : y = d
            · subst hy
              rw [pieces_cons_last hx (by simp), pieces_cons_last hx (by simp), hrest,
                List.cons_append]
            · obtain ⟨piece, rest, hpieces⟩ := List.exists_cons_of_ne_nil (pieces_cons_ne_nil hy a)
              rw [pieces_cons_cons hx hy, pieces_cons_cons hx hy, hrest, hpieces]
              rfl

/-- Any other cut makes two pieces of one. -/
theorem length_pieces_append {a b : List α} (ha : a ≠ []) (hb : b ≠ []) (h : ¬CutAt d a b) :
    (pieces d (a ++ b)).length + 1 = (pieces d a).length + (pieces d b).length := by
  induction a with
  | nil => exact absurd rfl ha
  | cons x a ih =>
      cases a with
      | nil =>
          obtain ⟨z, b, rfl⟩ := List.exists_cons_of_ne_nil hb
          rw [CutAt, not_or] at h
          have hx : x ≠ d := by simpa using h.1
          have hz : z ≠ d := by simpa using h.2
          rw [List.singleton_append, pieces_cons_cons hx hz, pieces_cons_last hx rfl, pieces_nil,
            List.length_modifyHead, List.length_singleton]
          omega
      | cons y a =>
          have hrest := ih (List.cons_ne_nil y a) fun hcut => h ((cutAt_cons (List.cons_ne_nil y a)).mpr hcut)
          simp only [List.cons_append] at hrest ⊢
          by_cases hx : x = d
          · subst hx
            rw [pieces_cons_separator, pieces_cons_separator]
            exact hrest
          · by_cases hy : y = d
            · subst hy
              rw [pieces_cons_last hx (by simp), pieces_cons_last hx (by simp), List.length_cons,
                List.length_cons]
              omega
            · rw [pieces_cons_cons hx hy, pieces_cons_cons hx hy, List.length_modifyHead,
                List.length_modifyHead]
              exact hrest

theorem length_pieces_append_le (a b : List α) :
    (pieces d (a ++ b)).length ≤ (pieces d a).length + (pieces d b).length := by
  by_cases ha : a = []
  · simp [ha]
  by_cases hb : b = []
  · simp [hb]
  by_cases h : CutAt d a b
  · rw [pieces_append h, List.length_append]
  · have := length_pieces_append ha hb h
    omega

theorem length_pieces_flatten_le (chunks : List (List α)) :
    (pieces d chunks.flatten).length ≤ (chunks.flatMap (pieces d)).length := by
  induction chunks with
  | nil => simp
  | cons chunk chunks ih =>
      have := length_pieces_append_le (d := d) chunk chunks.flatten
      rw [List.flatten_cons, List.flatMap_cons, List.length_append]
      omega

theorem flatMap_pieces_of_isChain {chunks : List (List α)} (hne : ∀ chunk ∈ chunks, chunk ≠ [])
    (h : chunks.IsChain (CutAt d)) : chunks.flatMap (pieces d) = pieces d chunks.flatten := by
  induction chunks with
  | nil => simp
  | cons a chunks ih =>
      have hrest := ih (fun chunk hchunk => hne chunk (List.mem_cons_of_mem _ hchunk)) h.tail
      rw [List.flatMap_cons, List.flatten_cons, hrest]
      cases chunks with
      | nil => simp
      | cons b chunks =>
          obtain ⟨z, b, rfl⟩ :=
            List.exists_cons_of_ne_nil (hne b (List.mem_cons_of_mem _ List.mem_cons_self))
          have hcut : CutAt d a ((z :: b) :: chunks).flatten := (List.isChain_cons_cons.mp h).1
          rw [pieces_append hcut]

/-- As soon as no piece is lost, every cut is next to a separator. -/
theorem isChain_of_length_pieces {chunks : List (List α)} (hne : ∀ chunk ∈ chunks, chunk ≠ [])
    (h : (chunks.flatMap (pieces d)).length = (pieces d chunks.flatten).length) :
    chunks.IsChain (CutAt d) := by
  induction chunks with
  | nil => exact List.isChain_nil
  | cons a chunks ih =>
      cases chunks with
      | nil => exact List.isChain_singleton a
      | cons b chunks =>
          have ha := hne a List.mem_cons_self
          obtain ⟨z, b, rfl⟩ :=
            List.exists_cons_of_ne_nil (hne b (List.mem_cons_of_mem _ List.mem_cons_self))
          have hle := length_pieces_flatten_le (d := d) ((z :: b) :: chunks)
          rw [List.flatMap_cons, List.flatten_cons, List.length_append] at h
          by_cases hcut : CutAt d a ((z :: b) :: chunks).flatten
          · rw [pieces_append hcut, List.length_append] at h
            exact List.isChain_cons_cons.mpr
              ⟨hcut, ih (fun chunk hchunk => hne chunk (List.mem_cons_of_mem _ hchunk)) (by omega)⟩
          · -- a piece of `a` and one of the rest are one piece of the whole
            have hjoin := length_pieces_append ha (by simp) hcut
            omega

/-- The pieces of the chunks are those of the whole exactly when every cut is next to a separator. -/
theorem flatMap_pieces_eq_iff {chunks : List (List α)} (hne : ∀ chunk ∈ chunks, chunk ≠ []) :
    chunks.flatMap (pieces d) = pieces d chunks.flatten ↔ chunks.IsChain (CutAt d) :=
  ⟨fun h => isChain_of_length_pieces hne (congrArg List.length h), flatMap_pieces_of_isChain hne⟩

end ToyBox
