import Mathlib.Data.List.GetD
import ToyBox.LogParser.Parsed

/-! What `Parse` leaves behind for a column: an index vector that `std::sort` ordered by the column's
comparator, the cells of its first, last and middle row as metrics, and the sums of the numeric columns.
`Sort` reads that vector from one end or the other, so that both directions list one permutation of the
rows. -/

namespace ToyBox.LogParser

open Cxx Checked

/-- The comparator of a column type, on cells. -/
def cellLess (dataType : DataType) (a b : Cell) : Bool :=
  match dataType with
  | .kInt => convertValueInt a < convertValueInt b
  | .kTelephone | .kTimestamp | .kDate | .kString => a < b
  | .kFloat => (FloatStr.ofRaw a).lt (.ofRaw b)

/-- What `Parse` stored for the columns. -/
structure Stored (std : StdSort) (p : LogParser) : Prop where
  rowCnt : p.rowCnt = p.rawContent.length
  sorted : ∀ colIdx < p.colCnt, ∃ column, p.sortedContentByCol[colIdx]? = some column ∧
    sortColumn std p colIdx = .ok column
  metrics : ∀ colIdx < p.colCnt, ∃ metrics2value minCell maxCell medianCell,
    p.metricsDataByCol[colIdx]? = some metrics2value ∧
    sortedCell p colIdx 0 = .ok minCell ∧ metrics2value.lookup .kMin = some minCell ∧
    sortedCell p colIdx (p.rowCnt - 1) = .ok maxCell ∧ metrics2value.lookup .kMax = some maxCell ∧
    sortedCell p colIdx (p.rowCnt / 2) = .ok medianCell ∧ metrics2value.lookup .kMedian = some medianCell ∧
    ∀ cells sumMean, numericCells p colIdx = .ok cells →
      sumAndMean (p.colIdx2colDataType.lookup colIdx) cells p.rowCnt = some sumMean →
      metrics2value.lookup .kSum = some sumMean.1

/-- The rows a limit asks for: all of them if it is negative. -/
def limitedCnt (limit : Int) (rowCnt : Nat) : Nat := if limit < 0 then rowCnt else min limit.toNat rowCnt

/-- The answer of `Sort` with an optional header row. -/
def withHeader (p : LogParser) (isShowHeader : Bool) (rows : List Row) : List Row :=
  if isShowHeader then p.colNameList :: rows else rows

/-- Two rows whose cells of a column are in order. -/
def InOrder (le : Cell → Cell → Prop) (colIdx : Nat) (row row' : Row) : Prop :=
  ∃ cell cell', row[colIdx]? = some cell ∧ row'[colIdx]? = some cell' ∧ le cell cell'

/-- A metric is the cell of a column in one row. -/
def MetricAt (p : LogParser) (colName metricName : Bytes) (colIdx : Nat) (rows : List Row) (idx : Nat) : Prop :=
  ∃ row cell, rows[idx]? = some row ∧ row[colIdx]? = some cell ∧
    p.calculate colName metricName = .ok (some cell)

/-- A listing of all rows, ordered by one column, from whose ends `Sort` answers and whose first, last and
middle row give the metrics. -/
structure Listing (p : LogParser) (colName : Bytes) (colIdx : Nat) (le : Cell → Cell → Prop)
    (rows : List Row) : Prop where
  perm : rows.Perm p.rawContent
  ordered : rows.Pairwise (InOrder le colIdx)
  ascending : ∀ limit isShowHeader, -2 ^ 31 ≤ limit → limit < 2 ^ 31 →
    p.sort colName limit true isShowHeader =
      .ok (some (withHeader p isShowHeader (rows.take (limitedCnt limit p.rowCnt))))
  descending : ∀ limit isShowHeader, -2 ^ 31 ≤ limit → limit < 2 ^ 31 →
    p.sort colName limit false isShowHeader =
      .ok (some (withHeader p isShowHeader (rows.drop (p.rowCnt - limitedCnt limit p.rowCnt)).reverse))
  min : MetricAt p colName (ascii "min") colIdx rows 0
  max : MetricAt p colName (ascii "max") colIdx rows (p.rowCnt - 1)
  median : MetricAt p colName (ascii "median") colIdx rows (p.rowCnt / 2)

/-! ### What `Parse` stored -/

/-- The metrics of a column after `StoreMetrics`. -/
theorem columnMetrics_eq_ok {p : LogParser} {colIdx : Nat} {metrics2value : AList fun _ : Metrics => Bytes}
    (h : columnMetrics p colIdx = .ok metrics2value) :
    ∃ minCell maxCell medianCell,
      sortedCell p colIdx 0 = .ok minCell ∧ metrics2value.lookup .kMin = some minCell ∧
      sortedCell p colIdx (p.rowCnt - 1) = .ok maxCell ∧ metrics2value.lookup .kMax = some maxCell ∧
      sortedCell p colIdx (p.rowCnt / 2) = .ok medianCell ∧
        metrics2value.lookup .kMedian = some medianCell ∧
      ∀ cells sumMean, numericCells p colIdx = .ok cells →
        sumAndMean (p.colIdx2colDataType.lookup colIdx) cells p.rowCnt = some sumMean →
        metrics2value.lookup .kSum = some sumMean.1 := by
  rw [columnMetrics] at h
  obtain ⟨minCell, hmin, h⟩ := bind_eq_ok_iff.mp h
  obtain ⟨maxCell, hmax, h⟩ := bind_eq_ok_iff.mp h
  obtain ⟨medianCell, hmedian, h⟩ := bind_eq_ok_iff.mp h
  obtain ⟨cells, hcells, h⟩ := bind_eq_ok_iff.mp h
  refine ⟨minCell, maxCell, medianCell, hmin, ?_, hmax, ?_, hmedian, ?_, ?_⟩
  case refine_4 =>
    intro cells' sumMean hcells' hsum
    rw [hcells] at hcells'
    cases hcells'
    rw [hsum] at h
    cases h
    rw [AList.lookup_insert_ne (by decide), AList.lookup_insert]
  all_goals
    cases hsum : sumAndMean (p.colIdx2colDataType.lookup colIdx) cells p.rowCnt with
    | none =>
        rw [hsum] at h
        cases h
        simp [AList.lookup_insert_ne, AList.lookup_insert]
    | some sumMean =>
        rw [hsum] at h
        cases h
        simp [AList.lookup_insert_ne, AList.lookup_insert]

theorem finish_stored {std : StdSort} {q p : LogParser} {ok : Bool} (hrow : q.rowCnt = q.rawContent.length)
    (h : finish std q = .ok (ok, p)) : Stored std p := by
  obtain ⟨q₁, hsort, h⟩ := bind_eq_ok_iff.mp h
  obtain ⟨q₂, hmetrics, h⟩ := bind_eq_ok_iff.mp h
  obtain ⟨sorted, hsorted, hsort⟩ := bind_eq_ok_iff.mp hsort
  cases hsort
  obtain ⟨metrics, hstored, hmetrics⟩ := bind_eq_ok_iff.mp hmetrics
  cases hmetrics
  cases h
  refine ⟨hrow, ?_, ?_⟩
  · intro colIdx hcol
    obtain ⟨column, hget, hcolumn⟩ := getElem?_mapM_range hsorted hcol
    exact ⟨column, hget, hcolumn⟩
  · intro colIdx hcol
    obtain ⟨metrics2value, hget, hcolumn⟩ := getElem?_mapM_range hstored hcol
    obtain ⟨minCell, maxCell, medianCell, hcells⟩ := columnMetrics_eq_ok hcolumn
    exact ⟨metrics2value, minCell, maxCell, medianCell, hget, hcells⟩

theorem readContent_rowCnt {files : Files} {p q : LogParser} (h : readContent files p = .ok (true, q)) :
    q.rowCnt = q.rawContent.length := by
  rw [readContent] at h
  split at h
  case isTrue =>
    rw [parseRawContentFromFile] at h
    split at h
    · cases h
    · split at h
      · cases h
      · split at h
        · cases h
        · cases h
          rfl
  case isFalse =>
    rw [parseRawContent] at h
    split at h
    · cases h
    · obtain ⟨rows, -, h⟩ := bind_eq_ok_iff.mp h
      cases h
      rfl

/-- `Parse` reads the rows and then finishes. -/
theorem parse_eq_true {std : StdSort} {files : Files} {p₀ p : LogParser}
    (h : p₀.parse std files = .ok (true, p)) :
    ∃ q, readContent files p₀ = .ok (true, q) ∧ finish std q = .ok (true, p) := by
  rw [LogParser.parse] at h
  obtain ⟨⟨ok, q⟩, hread, h⟩ := bind_eq_ok_iff.mp h
  cases ok with
  | false => cases h
  | true => exact ⟨q, hread, h⟩

theorem parse_stored {std : StdSort} {files : Files} {p₀ p : LogParser}
    (h : p₀.parse std files = .ok (true, p)) : Stored std p := by
  obtain ⟨q, hread, hfinish⟩ := parse_eq_true h
  exact finish_stored (readContent_rowCnt hread) hfinish

/-! ### The cells of a column -/

section Column

variable {p : LogParser} {colIdx : Nat} {cells : List Cell}

theorem subscript_eq_ok_iff {α : Type} {vec : List α} {idx : Nat} {fault : Nat → Fault} {value : α} :
    subscript vec idx fault = .ok value ↔ vec[idx]? = some value := by
  rw [subscript]
  cases vec[idx]? with
  | none => simp
  | some found => simp

theorem length_columnCells (h : columnCells p colIdx = .ok cells) : cells.length = p.rowCnt := by
  rw [length_mapM h, List.length_range]

/-- The cells of a column are those of its rows. -/
theorem columnCells_getElem? (h : columnCells p colIdx = .ok cells) {rowIdx : Nat} (hrow : rowIdx < p.rowCnt) :
    ∃ row cell, p.rawContent[rowIdx]? = some row ∧ row[colIdx]? = some cell ∧ cells[rowIdx]? = some cell := by
  obtain ⟨cell, hcell, hstep⟩ := getElem?_mapM_range h hrow
  obtain ⟨row, hraw, hget⟩ := bind_eq_ok_iff.mp hstep
  exact ⟨row, cell, subscript_eq_ok_iff.mp hraw, subscript_eq_ok_iff.mp hget, hcell⟩

/-- The comparator `SortContent` makes of the cells compares the cells of two rows. -/
theorem columnLess_eq (dataType : DataType) (cells : List Cell) (a b : Nat) :
    columnLess dataType cells a b = cellLess dataType (cells.getD a []) (cells.getD b []) := by
  cases dataType with
  | kInt =>
      have hget : ∀ i, (cells.map convertValueInt).getD i 0 = convertValueInt (cells.getD i []) :=
        fun _ => List.getD_map cells [] convertValueInt
      rw [columnLess, cellLess]
      dsimp only
      rw [hget, hget]
  | kFloat =>
      have hget : ∀ i, (cells.map FloatStr.ofRaw).getD i (.ofRaw []) = .ofRaw (cells.getD i []) :=
        fun _ => List.getD_map cells [] FloatStr.ofRaw
      rw [columnLess, cellLess]
      dsimp only
      rw [hget, hget]
  | kString | kTelephone | kDate | kTimestamp => rfl

/-- A strict weak ordering of the cells is one of the row numbers. -/
theorem strictWeakOrder_columnLess {dataType : DataType} (h : StrictWeakOrder (cellLess dataType) cells) :
    StrictWeakOrder (columnLess dataType cells) (List.range cells.length) := by
  have hmem : ∀ i ∈ List.range cells.length, cells.getD i [] ∈ cells := by
    intro i hi
    have hlt := List.mem_range.mp hi
    rw [List.getD_eq_getElem cells [] hlt]
    exact List.getElem_mem hlt
  refine ⟨fun a ha => ?_, fun a ha b hb c hc => ?_, fun a ha b hb c hc => ?_⟩
  · rw [columnLess_eq]
    exact h.irrefl _ (hmem a ha)
  · rw [columnLess_eq, columnLess_eq, columnLess_eq]
    exact h.trans _ (hmem a ha) _ (hmem b hb) _ (hmem c hc)
  · rw [columnLess_eq, columnLess_eq, columnLess_eq, columnLess_eq, columnLess_eq]
    exact h.incomparable_trans _ (hmem a ha) _ (hmem b hb) _ (hmem c hc)

end Column

/-! ### The listing of a column -/

section Listing

variable {std : StdSort} {p : LogParser} {colName : Bytes} {colIdx : Nat} {column : List Nat}

/-- The rows in the order of an index vector. -/
def sortedRows (p : LogParser) (column : List Nat) : List Row :=
  column.map fun rowIdx => p.rawContent.getD rowIdx []

theorem length_sortedRows (p : LogParser) (column : List Nat) :
    (sortedRows p column).length = column.length :=
  List.length_map _

theorem sortedRows_perm (hrowCnt : p.rowCnt = p.rawContent.length) (hperm : column.Perm (List.range p.rowCnt)) :
    (sortedRows p column).Perm p.rawContent := by
  have hrange : (List.range p.rowCnt).map (fun rowIdx => p.rawContent.getD rowIdx []) = p.rawContent := by
    apply List.ext_getElem
    · rw [List.length_map, List.length_range, hrowCnt]
    · intro i _ hi
      rw [List.getElem_map, List.getElem_range, List.getD_eq_getElem _ _ hi]
  have hmap := hperm.map fun rowIdx => p.rawContent.getD rowIdx []
  rwa [hrange] at hmap

/-- One access of `Sort`. -/
theorem subscript_sortedRows (hrowCnt : p.rowCnt = p.rawContent.length)
    (hperm : column.Perm (List.range p.rowCnt)) (hcolumn : p.sortedContentByCol[colIdx]? = some column)
    {idx : Nat} (hidx : idx < (sortedRows p column).length) :
    (do
      let sortedColumn ← subscript p.sortedContentByCol colIdx .sortedContent
      let row ← subscript sortedColumn idx .sortedColumn
      subscript p.rawContent row .rawContent) = .ok (sortedRows p column)[idx] := by
  have hlt : idx < column.length := length_sortedRows p column ▸ hidx
  have hrow : column[idx] < p.rawContent.length := by
    rw [← hrowCnt]
    exact List.mem_range.mp (hperm.subset (List.getElem_mem hlt))
  rw [subscript_getElem? _ hcolumn, ok_bind, subscript_of_lt _ hlt, ok_bind, subscript_of_lt _ hrow]
  congr 1
  simp only [sortedRows, List.getElem_map, List.getD_eq_getElem _ _ hrow]

/-- `size_t actual_limit = limit`, cut down to the row count. -/
theorem actualLimit_eq {limit : Int} {rowCnt : Nat} (hlow : -2 ^ 31 ≤ limit) (hhigh : limit < 2 ^ 31)
    (hsize : rowCnt < 2 ^ 63) : min (limit % 2 ^ 64).toNat rowCnt = limitedCnt limit rowCnt := by
  rw [limitedCnt]
  split <;> omega

theorem limitedCnt_le (limit : Int) (rowCnt : Nat) : limitedCnt limit rowCnt ≤ rowCnt := by
  rw [limitedCnt]
  split <;> omega

variable (hrowCnt : p.rowCnt = p.rawContent.length) (hperm : column.Perm (List.range p.rowCnt))
  (hcolumn : p.sortedContentByCol[colIdx]? = some column)
  (hname : p.colName2colIdx.lookup colName = some colIdx) (hsize : p.rowCnt < 2 ^ 63)

include hperm in
theorem length_sortedRows_eq : (sortedRows p column).length = p.rowCnt := by
  rw [length_sortedRows, hperm.length_eq, List.length_range]

include hrowCnt hperm hcolumn hname hsize

theorem sort_ascending {limit : Int} (isShowHeader : Bool) (hlow : -2 ^ 31 ≤ limit) (hhigh : limit < 2 ^ 31) :
    p.sort colName limit true isShowHeader =
      .ok (some (withHeader p isShowHeader ((sortedRows p column).take (limitedCnt limit p.rowCnt)))) := by
  have hlen : ((sortedRows p column).take (limitedCnt limit p.rowCnt)).length = limitedCnt limit p.rowCnt := by
    rw [List.length_take, length_sortedRows_eq hperm]
    exact Nat.min_eq_left (limitedCnt_le _ _)
  rw [LogParser.sort, hname]
  dsimp only
  rw [actualLimit_eq hlow hhigh hsize, ← hlen, mapM_range_eq_ok, ok_bind, hlen, withHeader]
  intro i hi
  rw [if_pos rfl, List.getElem_take]
  exact subscript_sortedRows hrowCnt hperm hcolumn _

theorem sort_descending {limit : Int} (isShowHeader : Bool) (hlow : -2 ^ 31 ≤ limit) (hhigh : limit < 2 ^ 31) :
    p.sort colName limit false isShowHeader =
      .ok (some (withHeader p isShowHeader
        ((sortedRows p column).drop (p.rowCnt - limitedCnt limit p.rowCnt)).reverse)) := by
  have hle := limitedCnt_le limit p.rowCnt
  have hrows := length_sortedRows_eq hperm
  have hlen : ((sortedRows p column).drop (p.rowCnt - limitedCnt limit p.rowCnt)).reverse.length =
      limitedCnt limit p.rowCnt := by
    rw [List.length_reverse, List.length_drop, hrows]
    omega
  rw [LogParser.sort, hname]
  dsimp only
  rw [actualLimit_eq hlow hhigh hsize, ← hlen, mapM_range_eq_ok, ok_bind, hlen, withHeader]
  intro i hi
  have hi' := hlen ▸ hi
  have hidx : p.rowCnt - 1 - i < (sortedRows p column).length := by omega
  rw [if_neg Bool.false_ne_true, subscript_sortedRows hrowCnt hperm hcolumn hidx, List.getElem_reverse,
    List.getElem_drop]
  congr 2
  rw [List.length_drop, hrows]
  omega

end Listing

section Listing

variable {std : StdSort} {p : LogParser} {colName : Bytes} {colIdx : Nat} {dataType : DataType}
  {cells : List Cell}

/-- The sorted rows are in order when the comparator is a strict weak ordering of the cells. -/
theorem sortedRows_ordered (hcells : columnCells p colIdx = .ok cells)
    (hswo : StrictWeakOrder (cellLess dataType) cells) :
    (sortedRows p (std.sort (columnLess dataType cells) (List.range p.rowCnt))).Pairwise
      (InOrder (fun a b => cellLess dataType b a = false) colIdx) := by
  have hlen := length_columnCells hcells
  have hordered := std.ordered _ _ (strictWeakOrder_columnLess hswo)
  rw [hlen] at hordered
  rw [sortedRows, List.pairwise_map]
  refine hordered.imp_of_mem ?_
  intro a b ha hb hle
  have hlt : ∀ i ∈ std.sort (columnLess dataType cells) (List.range p.rowCnt), i < p.rowCnt :=
    fun i hi => List.mem_range.mp ((std.perm _ _).subset hi)
  obtain ⟨row, cell, hrow, hcell, hget⟩ := columnCells_getElem? hcells (hlt a ha)
  obtain ⟨row', cell', hrow', hcell', hget'⟩ := columnCells_getElem? hcells (hlt b hb)
  rw [columnLess_eq, List.getD_eq_getElem?_getD, List.getD_eq_getElem?_getD, hget, hget'] at hle
  refine ⟨cell, cell', ?_, ?_, hle⟩
  · rw [List.getD_eq_getElem?_getD, hrow]
    exact hcell
  · rw [List.getD_eq_getElem?_getD, hrow']
    exact hcell'

/-- A stored metric is the cell of the row at its place. -/
theorem metricAt_of_sortedCell {column : List Nat} {idx : Nat} {metric : Metrics} {metricName : Bytes}
    {cell : Cell} {metrics2value : AList fun _ : Metrics => Bytes}
    (hname : p.colName2colIdx.lookup colName = some colIdx)
    (hcolumn : p.sortedContentByCol[colIdx]? = some column) (hsorted : sortedCell p colIdx idx = .ok cell)
    (hmetrics : p.metricsDataByCol[colIdx]? = some metrics2value)
    (hmetric : kMetricsMap metricName = some metric) (hlookup : metrics2value.lookup metric = some cell) :
    MetricAt p colName metricName colIdx (sortedRows p column) idx := by
  obtain ⟨column', hget, hsorted⟩ := bind_eq_ok_iff.mp hsorted
  obtain ⟨rowIdx, hrowIdx, hsorted⟩ := bind_eq_ok_iff.mp hsorted
  obtain ⟨row, hrow, hcell⟩ := bind_eq_ok_iff.mp hsorted
  rw [subscript_eq_ok_iff] at hget hrowIdx hrow hcell
  rw [hcolumn] at hget
  cases hget
  refine ⟨row, cell, ?_, hcell, ?_⟩
  · rw [sortedRows, List.getElem?_map, hrowIdx, Option.map_some, List.getD_eq_getElem?_getD, hrow]
    rfl
  · rw [LogParser.calculate, hname]
    dsimp only
    rw [hmetric]
    dsimp only
    rw [subscript_getElem? _ hmetrics, ok_bind, hlookup]

/-- What `Parse` stored for a column whose comparator is a strict weak ordering of its cells. -/
theorem Stored.exists_listing (h : Stored std p) (hname : p.colName2colIdx.lookup colName = some colIdx)
    (hcol : colIdx < p.colCnt) (htype : p.colIdx2colDataType.lookup colIdx = some dataType)
    (hsize : p.rowCnt < 2 ^ 63)
    (hswo : ∀ cells, columnCells p colIdx = .ok cells → StrictWeakOrder (cellLess dataType) cells) :
    ∃ rows, Listing p colName colIdx (fun a b => cellLess dataType b a = false) rows := by
  obtain ⟨column, hcolumn, hsort⟩ := h.sorted colIdx hcol
  obtain ⟨metrics2value, minCell, maxCell, medianCell, hmetrics, hmin, hkMin, hmax, hkMax, hmedian, hkMedian, -⟩ :=
    h.metrics colIdx hcol
  have hperm := perm_of_sortColumn hsort
  have hordered : (sortedRows p column).Pairwise
      (InOrder (fun a b => cellLess dataType b a = false) colIdx) := by
    rw [sortColumn] at hsort
    simp only [htype] at hsort
    obtain ⟨cells, hcells, hsort⟩ := bind_eq_ok_iff.mp hsort
    cases hsort
    exact sortedRows_ordered hcells (hswo cells hcells)
  exact ⟨sortedRows p column,
    { perm := sortedRows_perm h.rowCnt hperm
      ordered := hordered
      ascending := fun _ isShowHeader => sort_ascending h.rowCnt hperm hcolumn hname hsize isShowHeader
      descending := fun _ isShowHeader => sort_descending h.rowCnt hperm hcolumn hname hsize isShowHeader
      min := metricAt_of_sortedCell hname hcolumn hmin hmetrics (by decide) hkMin
      max := metricAt_of_sortedCell hname hcolumn hmax hmetrics (by decide) hkMax
      median := metricAt_of_sortedCell hname hcolumn hmedian hmetrics (by decide) hkMedian }⟩

end Listing

end ToyBox.LogParser
