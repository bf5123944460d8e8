import ToyBox.LogParser.Sorted

/-! The order in which `Sort` lists the rows of a column, and where the metrics stand in it. -/

namespace ToyBox.LogParser

open Cxx Checked

/-- The order of the cells of a column that is none of floats: by their numbers for integers, by their bytes
for everything else. -/
def cellLe (dataType : DataType) (a b : Cell) : Prop :=
  match dataType with
  | .kInt => convertValueInt a ≤ convertValueInt b
  | _ => a ≤ b

/-- The `kMin` and the `kMax` of a column are cells of it, and every cell is between them. -/
def BetweenMinMax (p : LogParser) (colName : Bytes) (colIdx : Nat) (le : Cell → Cell → Prop) : Prop :=
  ∃ minCell maxCell, p.calculate colName (ascii "min") = .ok (some minCell) ∧
    p.calculate colName (ascii "max") = .ok (some maxCell) ∧
    (∃ row ∈ p.rawContent, row[colIdx]? = some minCell) ∧ (∃ row ∈ p.rawContent, row[colIdx]? = some maxCell) ∧
    ∀ row ∈ p.rawContent, ∃ cell, row[colIdx]? = some cell ∧ le minCell cell ∧ le cell maxCell

theorem cellLess_eq_false_iff {dataType : DataType} (hfloat : dataType ≠ .kFloat) (a b : Cell) :
    cellLess dataType b a = false ↔ cellLe dataType a b := by
  cases dataType with
  | kInt => exact decide_eq_false_iff_not.trans Int.not_lt
  | kFloat => exact absurd rfl hfloat
  | kString | kTelephone | kDate | kTimestamp => exact decide_eq_false_iff_not.trans List.not_lt

theorem cellLe_refl (dataType : DataType) (a : Cell) : cellLe dataType a a := by
  cases dataType with
  | kInt => exact Int.le_refl _
  | kFloat | kString | kTelephone | kDate | kTimestamp => exact List.le_refl a

theorem strictWeakOrder_cellLess {dataType : DataType} (hfloat : dataType ≠ .kFloat) (cells : List Cell) :
    StrictWeakOrder (cellLess dataType) cells := by
  apply StrictWeakOrder.of_negTrans
  · intro a _ b _ hab
    cases dataType with
    | kInt => exact decide_eq_false (Int.lt_asymm (of_decide_eq_true hab))
    | kFloat => exact absurd rfl hfloat
    | kString | kTelephone | kDate | kTimestamp =>
        exact decide_eq_false (List.lt_asymm (of_decide_eq_true hab))
  · intro a _ b _ c _ hab hbc
    rw [cellLess_eq_false_iff hfloat] at hab hbc ⊢
    cases dataType with
    | kInt => exact Int.le_trans hbc hab
    | kFloat => exact absurd rfl hfloat
    | kString | kTelephone | kDate | kTimestamp => exact List.le_trans hbc hab

section Listing

variable {p : LogParser} {colName : Bytes} {colIdx : Nat} {le : Cell → Cell → Prop} {rows : List Row}

/-- Rows at two places of a listing are in order. -/
theorem Listing.inOrder_of_le (h : Listing p colName colIdx le rows)
    (hrefl : ∀ row ∈ p.rawContent, InOrder le colIdx row row) {i j : Nat} {row row' : Row} (hij : i ≤ j)
    (hi : rows[i]? = some row) (hj : rows[j]? = some row') : InOrder le colIdx row row' := by
  obtain ⟨hi', rfl⟩ := List.getElem?_eq_some_iff.mp hi
  obtain ⟨hj', rfl⟩ := List.getElem?_eq_some_iff.mp hj
  rcases Nat.lt_or_eq_of_le hij with hlt | rfl
  · exact List.pairwise_iff_getElem.mp h.ordered i j hi' hj' hlt
  · exact hrefl _ (h.perm.subset (List.getElem_mem hi'))

/-- The ends of a listed column are its minimum and its maximum. -/
theorem Listing.between (h : Listing p colName colIdx le rows)
    (hrefl : ∀ row ∈ p.rawContent, InOrder le colIdx row row) (hrowCnt : p.rowCnt = p.rawContent.length) :
    BetweenMinMax p colName colIdx le := by
  obtain ⟨minRow, minCell, hminRow, hminCell, hmin⟩ := h.min
  obtain ⟨maxRow, maxCell, hmaxRow, hmaxCell, hmax⟩ := h.max
  refine ⟨minCell, maxCell, hmin, hmax, ⟨minRow, h.perm.subset (List.mem_of_getElem? hminRow), hminCell⟩,
    ⟨maxRow, h.perm.subset (List.mem_of_getElem? hmaxRow), hmaxCell⟩, fun row hrow => ?_⟩
  obtain ⟨i, hi⟩ := List.getElem?_of_mem (h.perm.symm.subset hrow)
  have hlt : i < p.rowCnt := by
    rw [hrowCnt, ← h.perm.length_eq]
    exact (List.getElem?_eq_some_iff.mp hi).1
  obtain ⟨c, cell, hc, hcell, hle⟩ := h.inOrder_of_le hrefl (Nat.zero_le i) hminRow hi
  obtain ⟨cell', d, hcell', hd, hle'⟩ := h.inOrder_of_le hrefl (by omega : i ≤ p.rowCnt - 1) hi hmaxRow
  cases hminCell.symm.trans hc
  cases hcell.symm.trans hcell'
  cases hmaxCell.symm.trans hd
  exact ⟨cell, hcell, hle, hle'⟩

theorem Listing.imp {le le' : Cell → Cell → Prop} {rows : List Row} (h : Listing p colName colIdx le rows)
    (himp : ∀ row ∈ p.rawContent, ∀ row' ∈ p.rawContent, ∀ cell cell', row[colIdx]? = some cell →
      row'[colIdx]? = some cell' → le cell cell' → le' cell cell') :
    Listing p colName colIdx le' rows where
  perm := h.perm
  ordered := by
    refine h.ordered.imp_of_mem ?_
    rintro row row' hrow hrow' ⟨cell, cell', hcell, hcell', hle⟩
    exact ⟨cell, cell', hcell, hcell',
      himp row (h.perm.subset hrow) row' (h.perm.subset hrow') cell cell' hcell hcell' hle⟩
  ascending := h.ascending
  descending := h.descending
  min := h.min
  max := h.max
  median := h.median

end Listing

/-- Every row of a sorted column has a cell in it. -/
theorem Stored.exists_cell {std : StdSort} {p : LogParser} (h : Stored std p) {colIdx : Nat}
    {dataType : DataType} (hcol : colIdx < p.colCnt)
    (htype : p.colIdx2colDataType.lookup colIdx = some dataType) :
    ∃ cells, columnCells p colIdx = .ok cells ∧
      ∀ row ∈ p.rawContent, ∃ cell ∈ cells, row[colIdx]? = some cell := by
  obtain ⟨column, -, hsort⟩ := h.sorted colIdx hcol
  rw [sortColumn] at hsort
  simp only [htype] at hsort
  obtain ⟨cells, hcells, -⟩ := bind_eq_ok_iff.mp hsort
  refine ⟨cells, hcells, fun row hrow => ?_⟩
  obtain ⟨i, hi⟩ := List.getElem?_of_mem hrow
  have hlt : i < p.rowCnt := by
    rw [h.rowCnt]
    exact (List.getElem?_eq_some_iff.mp hi).1
  obtain ⟨row', cell, hrow', hcell, hget⟩ := columnCells_getElem? hcells hlt
  cases hi.symm.trans hrow'
  exact ⟨cell, List.mem_of_getElem? hget, hcell⟩

/-- After `Parse` a column that is none of floats has a listing in its order, and its cells are between the
minimum and the maximum. That the rows are fewer than 2 ^ 63 is what a `std::vector` promises. -/
theorem parse_listing {std : StdSort} {files : Files} {p₀ p : LogParser} {colName : Bytes} {colIdx : Nat}
    {dataType : DataType} (hparse : p₀.parse std files = .ok (true, p))
    (hname : p.colName2colIdx.lookup colName = some colIdx) (hcol : colIdx < p.colCnt)
    (htype : p.colIdx2colDataType.lookup colIdx = some dataType) (hfloat : dataType ≠ .kFloat)
    (hsize : p.rowCnt < 2 ^ 63) :
    (∃ rows, Listing p colName colIdx (cellLe dataType) rows) ∧
      BetweenMinMax p colName colIdx (cellLe dataType) := by
  have hstored := parse_stored hparse
  obtain ⟨rows, hrows⟩ := hstored.exists_listing hname hcol htype hsize fun cells _ =>
    strictWeakOrder_cellLess hfloat cells
  simp only [cellLess_eq_false_iff hfloat] at hrows
  obtain ⟨cells, -, hcells⟩ := hstored.exists_cell hcol htype
  refine ⟨⟨rows, hrows⟩, hrows.between (fun row hrow => ?_) hstored.rowCnt⟩
  obtain ⟨cell, -, hcell⟩ := hcells row hrow
  exact ⟨cell, cell, hcell, hcell, cellLe_refl dataType cell⟩

/-- Three rows whose column "n" sorts as numbers. -/
def threeNumbers : Files := fun _ => some (ascii "n\tc\n10\tx\n9\ty\n10\tz\n")

theorem parse_listing_threeNumbers :
    ∃ p, (ofFile (ascii "log")).parse .insertion threeNumbers = .ok (true, p) ∧
      (∃ rows, Listing p (ascii "n") 0 (cellLe .kInt) rows) ∧ BetweenMinMax p (ascii "n") 0 (cellLe .kInt) :=
  ⟨_, rfl, parse_listing (show (ofFile (ascii "log")).parse .insertion threeNumbers = .ok (true, _) from rfl)
    (by decide) (by decide) (by decide) (by decide) (by decide)⟩

end ToyBox.LogParser
