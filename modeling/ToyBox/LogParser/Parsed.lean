import ToyBox.Library.Checked
import ToyBox.LogParser.LogParser

/-! `SortContent` and `StoreMetrics` on a table whose rows are wide enough: every access is in range,
the sorted index vectors are permutations of the rows, and what they leave behind answers every query
without an access out of range. -/

namespace ToyBox.LogParser

open Cxx Checked

/-- At least one row, and no row narrower than the columns. -/
structure Rectangular (p : LogParser) : Prop where
  rowCnt : p.rowCnt = p.rawContent.length
  rows_ne_nil : p.rawContent ≠ []
  width : ∀ row ∈ p.rawContent, p.colCnt ≤ row.length

/-- A parser the queries can use: one index vector per column that lists every row once, one metrics
map per column, and only positions of columns in the name map. -/
structure Parsed (p : LogParser) : Prop extends Rectangular p where
  sortedContentByCol_length : p.sortedContentByCol.length = p.colCnt
  sortedColumn_perm : ∀ column ∈ p.sortedContentByCol, column.Perm (List.range p.rowCnt)
  metricsDataByCol_length : p.metricsDataByCol.length = p.colCnt
  colIdx_lt : ∀ name i, p.colName2colIdx.lookup name = some i → i < p.colCnt

section Rectangular

variable {p : LogParser} (h : Rectangular p)

include h in
theorem Rectangular.rowCnt_pos : 0 < p.rowCnt := by
  rw [h.rowCnt]
  exact List.length_pos_of_ne_nil h.rows_ne_nil

include h in
/-- `raw_content_[row][col]` is in range. -/
theorem Rectangular.exists_cell {rowIdx colIdx : Nat} (hrow : rowIdx < p.rowCnt)
    (hcol : colIdx < p.colCnt) :
    ∃ row cell, subscript p.rawContent rowIdx .rawContent = .ok row ∧
      subscript row colIdx .cell = .ok cell := by
  rw [h.rowCnt] at hrow
  have hwidth := h.width _ (List.getElem_mem hrow)
  exact ⟨_, _, subscript_of_lt _ hrow, subscript_of_lt _ (hcol.trans_le hwidth)⟩

include h in
theorem Rectangular.exists_columnCells {colIdx : Nat} (hcol : colIdx < p.colCnt) :
    ∃ cells, columnCells p colIdx = .ok cells := by
  apply exists_mapM_eq_ok
  intro rowIdx hrow
  obtain ⟨row, cell, hr, hc⟩ := h.exists_cell (List.mem_range.mp hrow) hcol
  exact ⟨cell, by rw [hr, ok_bind, hc]⟩

include h in
theorem Rectangular.exists_sortColumn (std : StdSort) {colIdx : Nat} (hcol : colIdx < p.colCnt) :
    ∃ column, sortColumn std p colIdx = .ok column := by
  obtain ⟨cells, hcells⟩ := h.exists_columnCells hcol
  rw [sortColumn]
  cases p.colIdx2colDataType.lookup colIdx with
  | none => exact ⟨_, rfl⟩
  | some dataType => exact ⟨_, by simp only [hcells]; rfl⟩

/-- A sorted column lists every row once. -/
theorem perm_of_sortColumn {std : StdSort} {colIdx : Nat} {column : List Nat}
    (hsort : sortColumn std p colIdx = .ok column) : column.Perm (List.range p.rowCnt) := by
  rw [sortColumn] at hsort
  cases hlookup : p.colIdx2colDataType.lookup colIdx with
  | none =>
      simp only [hlookup] at hsort
      exact Except.ok.inj hsort ▸ .refl _
  | some dataType =>
      simp only [hlookup] at hsort
      obtain ⟨cells, -, hok⟩ := bind_eq_ok_iff.mp hsort
      exact Except.ok.inj hok ▸ std.perm _ _

include h in
theorem Rectangular.sortContent (std : StdSort) :
    ∃ sorted, LogParser.sortContent std p = .ok { p with sortedContentByCol := sorted } ∧
      sorted.length = p.colCnt ∧ ∀ column ∈ sorted, column.Perm (List.range p.rowCnt) := by
  obtain ⟨sorted, hsorted⟩ := exists_mapM_eq_ok (f := sortColumn std p) (l := List.range p.colCnt)
    fun colIdx hcol => h.exists_sortColumn std (List.mem_range.mp hcol)
  refine ⟨sorted, by rw [LogParser.sortContent, hsorted]; rfl, ?_, fun column hcolumn => ?_⟩
  · rw [length_mapM hsorted, List.length_range]
  · obtain ⟨colIdx, -, hsort⟩ := exists_of_mem_mapM hsorted hcolumn
    exact perm_of_sortColumn hsort

end Rectangular

section Metrics

variable {p : LogParser} (h : Rectangular p) (hlen : p.sortedContentByCol.length = p.colCnt)
  (hperm : ∀ column ∈ p.sortedContentByCol, column.Perm (List.range p.rowCnt))

include hlen hperm in
/-- A row number read from a sorted column is that of a row. -/
theorem exists_sortedRow {colIdx idx : Nat} (hcol : colIdx < p.colCnt) (hidx : idx < p.rowCnt) :
    ∃ column rowIdx, subscript p.sortedContentByCol colIdx .sortedContent = .ok column ∧
      subscript column idx .sortedColumn = .ok rowIdx ∧ rowIdx < p.rowCnt := by
  have hcol : colIdx < p.sortedContentByCol.length := hlen ▸ hcol
  have hcolumn := hperm _ (List.getElem_mem hcol)
  have hidx : idx < p.sortedContentByCol[colIdx].length := by
    rw [hcolumn.length_eq, List.length_range]; exact hidx
  exact ⟨_, _, subscript_of_lt _ hcol, subscript_of_lt _ hidx,
    List.mem_range.mp (hcolumn.subset (List.getElem_mem hidx))⟩

include h hlen hperm in
theorem exists_sortedCell {colIdx idx : Nat} (hcol : colIdx < p.colCnt) (hidx : idx < p.rowCnt) :
    ∃ cell, sortedCell p colIdx idx = .ok cell := by
  obtain ⟨column, rowIdx, hc, hr, hlt⟩ := exists_sortedRow hlen hperm hcol hidx
  obtain ⟨row, cell, hrow, hcell⟩ := h.exists_cell hlt hcol
  exact ⟨cell, by rw [sortedCell, hc, ok_bind, hr, ok_bind, hrow, ok_bind, hcell]⟩

include h hlen hperm in
theorem exists_columnMetrics {colIdx : Nat} (hcol : colIdx < p.colCnt) :
    ∃ metrics2value, columnMetrics p colIdx = .ok metrics2value := by
  have hpos := h.rowCnt_pos
  obtain ⟨minCell, hmin⟩ := exists_sortedCell h hlen hperm hcol hpos
  obtain ⟨maxCell, hmax⟩ := exists_sortedCell h hlen hperm hcol (Nat.sub_lt hpos Nat.one_pos)
  obtain ⟨medianCell, hmedian⟩ := exists_sortedCell h hlen hperm hcol
    (Nat.div_lt_self hpos Nat.one_lt_two)
  have hcells : ∃ cells, numericCells p colIdx = .ok cells := by
    rw [numericCells]
    split
    · exact h.exists_columnCells hcol
    · exact h.exists_columnCells hcol
    · exact ⟨_, rfl⟩
  obtain ⟨cells, hcells⟩ := hcells
  simp only [columnMetrics, hmin, hmax, hmedian, hcells, ok_bind]
  cases sumAndMean (p.colIdx2colDataType.lookup colIdx) cells p.rowCnt with
  | none => exact ⟨_, rfl⟩
  | some sumMean => exact ⟨_, rfl⟩

include h hlen hperm in
theorem exists_storeMetrics :
    ∃ metrics, LogParser.storeMetrics p = .ok { p with metricsDataByCol := metrics } ∧
      metrics.length = p.colCnt := by
  obtain ⟨metrics, hmetrics⟩ := exists_mapM_eq_ok (f := columnMetrics p) (l := List.range p.colCnt)
    fun colIdx hcol => exists_columnMetrics h hlen hperm (List.mem_range.mp hcol)
  refine ⟨metrics, by rw [LogParser.storeMetrics, hmetrics]; rfl, ?_⟩
  rw [length_mapM hmetrics, List.length_range]

end Metrics

/-- What `Parse` does after the rows are there. -/
def finish (std : StdSort) (p : LogParser) : Except Fault (Bool × LogParser) := do
  let p ← p.sortContent std
  let p ← p.storeMetrics
  .ok (true, p)

/-- On rows that are wide enough, sorting and storing the metrics make no access out of range, return
true and only fill in the sorted columns and the metrics. -/
theorem finish_rectangular (std : StdSort) {p : LogParser} (h : Rectangular p)
    (hname : ∀ name i, p.colName2colIdx.lookup name = some i → i < p.colCnt) :
    ∃ sorted metrics, finish std p =
        .ok (true, { p with sortedContentByCol := sorted, metricsDataByCol := metrics }) ∧
      Parsed { p with sortedContentByCol := sorted, metricsDataByCol := metrics } := by
  obtain ⟨sorted, hsort, hlen, hperm⟩ := h.sortContent std
  obtain ⟨metrics, hmetrics, hmlen⟩ := exists_storeMetrics
    (p := { p with sortedContentByCol := sorted }) ⟨h.rowCnt, h.rows_ne_nil, h.width⟩ hlen hperm
  refine ⟨sorted, metrics, ?_, ⟨h.rowCnt, h.rows_ne_nil, h.width⟩, hlen, hperm, hmlen, hname⟩
  rw [finish, hsort, ok_bind, hmetrics, ok_bind]

/-! ### Queries on a parsed table -/

theorem Parsed.exists_calculate {p : LogParser} (h : Parsed p) (colName metricName : Bytes) :
    ∃ answer, p.calculate colName metricName = .ok answer := by
  rw [calculate]
  cases hname : p.colName2colIdx.lookup colName with
  | none => exact ⟨none, rfl⟩
  | some colIdx =>
      cases kMetricsMap metricName with
      | none => exact ⟨none, rfl⟩
      | some metric =>
          have hcol := h.metricsDataByCol_length ▸ h.colIdx_lt colName colIdx hname
          exact ⟨_, by simp only [subscript_of_lt _ hcol]; rfl⟩

theorem Parsed.exists_sort {p : LogParser} (h : Parsed p) (colName : Bytes) (limit : Int)
    (isAsc isShowHeader : Bool) : ∃ answer, p.sort colName limit isAsc isShowHeader = .ok answer := by
  rw [LogParser.sort]
  cases hname : p.colName2colIdx.lookup colName with
  | none => exact ⟨none, rfl⟩
  | some colIdx =>
      have hcol := h.colIdx_lt colName colIdx hname
      have hrows : ∃ rows, (List.range (min (limit % 2 ^ 64).toNat p.rowCnt)).mapM (fun rowIdx => do
          let sortedColumn ← subscript p.sortedContentByCol colIdx .sortedContent
          let row ← subscript sortedColumn (if isAsc then rowIdx else p.rowCnt - 1 - rowIdx) .sortedColumn
          subscript p.rawContent row .rawContent) = .ok rows := by
        apply exists_mapM_eq_ok
        intro rowIdx hrow
        have hrow : rowIdx < p.rowCnt := (List.mem_range.mp hrow).trans_le (Nat.min_le_right _ _)
        have hidx : (if isAsc then rowIdx else p.rowCnt - 1 - rowIdx) < p.rowCnt := by
          split <;> omega
        obtain ⟨column, row, hc, hr, hlt⟩ := exists_sortedRow h.sortedContentByCol_length
          h.sortedColumn_perm hcol hidx
        rw [h.rowCnt] at hlt
        exact ⟨_, by rw [hc, ok_bind, hr, ok_bind, subscript_of_lt _ hlt]⟩
      obtain ⟨rows, hrows⟩ := hrows
      exact ⟨_, by simp only [hrows]; rfl⟩

end ToyBox.LogParser
