import ToyBox.Library.Ranking
import ToyBox.LogParser.ColumnOrder
import ToyBox.LogParser.FileOrder
import ToyBox.LogParser.IntSum

/-! The queries over all files, from the answers of the single files. Among files with one header, the rows that are
merged are those of the files with the column types of the first. Over these files the least of their minima is the
minimum and the greatest of their maxima the maximum, the sum is the sum of their sums, narrowed, and the first rows in
the order of a column are the first of their first rows. -/

namespace ToyBox.LogParser

open Cxx Checked

/-- The paths of the files whose rows are merged. -/
def mergedPaths (files : Files) (filePaths : List Bytes) : List Bytes :=
  match tablesOf files filePaths with
  | [] => []
  | first :: _ => filePaths.filter fun filePath => (tableOf files filePath).any (·.types = first.types)

/-- The cell of a column in a row. -/
def cellAt (colIdx : Nat) (row : Row) : Cell := row.getD colIdx []

/-- The order in which `Sort` lists rows by a column. -/
def RowLe (dataType : DataType) (colIdx : Nat) (isAsc : Bool) (row row' : Row) : Prop :=
  if isAsc then cellLe dataType (cellAt colIdx row) (cellAt colIdx row')
  else cellLe dataType (cellAt colIdx row') (cellAt colIdx row)

theorem cellLe_trans {dataType : DataType} {a b c : Cell} (hab : cellLe dataType a b) (hbc : cellLe dataType b c) :
    cellLe dataType a c := by
  cases dataType with
  | kInt => exact Int.le_trans hab hbc
  | kFloat | kString | kTelephone | kDate | kTimestamp => exact List.le_trans hab hbc

instance (dataType : DataType) (colIdx : Nat) (isAsc : Bool) : IsTrans Row (RowLe dataType colIdx isAsc) where
  trans a b c hab hbc := by
    cases isAsc with
    | true => exact @cellLe_trans dataType _ _ _ hab hbc
    | false => exact @cellLe_trans dataType _ _ _ hbc hab

instance (dataType : DataType) (colIdx : Nat) (isAsc : Bool) : Std.Refl (RowLe dataType colIdx isAsc) where
  refl a := by
    cases isAsc <;> exact cellLe_refl dataType (cellAt colIdx a)

theorem cellAt_eq {colIdx : Nat} {row : Row} {cell : Cell} (h : row[colIdx]? = some cell) :
    cellAt colIdx row = cell := by
  rw [cellAt, List.getD_eq_getElem?_getD, h]
  rfl

/-! ### A column of one parser -/

/-- A column of a parser that has parsed. -/
structure Column (std : StdSort) (files : Files) (p : LogParser) (colName : Bytes) (colIdx : Nat)
    (dataType : DataType) : Prop where
  fullyParsed : FullyParsed std files p
  colName2colIdx : p.colName2colIdx.lookup colName = some colIdx
  lt_colCnt : colIdx < p.colCnt
  dataType : p.colIdx2colDataType.lookup colIdx = some dataType

section Column

variable {std : StdSort} {files : Files} {p : LogParser} {colName : Bytes} {colIdx : Nat} {dataType : DataType}

theorem Loaded.column {header : Row} {types : List DataType} {rows : List Row}
    (h : Loaded std p header types rows) (hparsed : FullyParsed std files p)
    (hname : IsLastIndex header colName colIdx) (htype : types[colIdx]? = some dataType) :
    Column std files p colName colIdx dataType ∧ p.rawContent = rows ∧ p.rowCnt = rows.length := by
  obtain ⟨p₀, sorted, metrics, hp₀, rfl⟩ := h.eq_loads
  refine ⟨⟨hparsed, (hp₀.colIdx colName colIdx).mpr hname, ?_, (hp₀.dataType colIdx).trans htype⟩,
    hp₀.rawContent, hp₀.rowCnt⟩
  show colIdx < p₀.colCnt
  rw [hp₀.colCnt]
  exact (List.getElem?_eq_some_iff.mp hname.1).1

theorem Column.exists_listing (h : Column std files p colName colIdx dataType) (hfloat : dataType ≠ .kFloat)
    (hsize : p.rowCnt < 2 ^ 63) :
    p.rowCnt = p.rawContent.length ∧ BetweenMinMax p colName colIdx (cellLe dataType) ∧
      ∃ rows, Listing p colName colIdx (cellLe dataType) rows := by
  obtain ⟨q, hparse⟩ := h.fullyParsed
  have hstored := parse_stored hparse
  obtain ⟨rows, hrows⟩ := hstored.exists_listing h.colName2colIdx h.lt_colCnt h.dataType hsize fun cells _ =>
    strictWeakOrder_cellLess hfloat cells
  simp only [cellLess_eq_false_iff hfloat] at hrows
  obtain ⟨cells, -, hcells⟩ := hstored.exists_cell h.lt_colCnt h.dataType
  refine ⟨hstored.rowCnt, hrows.between (fun row hrow => ?_) hstored.rowCnt, rows, hrows⟩
  obtain ⟨cell, -, hcell⟩ := hcells row hrow
  exact ⟨cell, cell, hcell, hcell, cellLe_refl dataType cell⟩

/-- `Sort` without a header row answers with the first rows of a listing in its order. -/
theorem Listing.exists_listed {rows : List Row} (h : Listing p colName colIdx (cellLe dataType) rows)
    (hrowCnt : p.rowCnt = p.rawContent.length) (isAsc : Bool) :
    ∃ listed : List Row, listed.Perm p.rawContent ∧ listed.Pairwise (RowLe dataType colIdx isAsc) ∧
      ∀ limit, -2 ^ 31 ≤ limit → limit < 2 ^ 31 →
        p.sort colName limit isAsc false = .ok (some (listed.take (limitedCnt limit p.rowCnt))) := by
  have hordered : rows.Pairwise (RowLe dataType colIdx true) := h.ordered.imp fun hle => by
    obtain ⟨cell, cell', hcell, hcell', hle⟩ := hle
    show cellLe dataType _ _
    rwa [cellAt_eq hcell, cellAt_eq hcell']
  cases isAsc with
  | true => exact ⟨rows, h.perm, hordered, fun limit hlow hhigh => h.ascending limit false hlow hhigh⟩
  | false =>
      refine ⟨rows.reverse, rows.reverse_perm.trans h.perm, List.pairwise_reverse.mpr hordered, ?_⟩
      intro limit hlow hhigh
      rw [h.descending limit false hlow hhigh, List.take_reverse, h.perm.length_eq, hrowCnt]
      rfl

theorem columnCells_eq_map {cells : List Cell} (h : columnCells p colIdx = .ok cells)
    (hrowCnt : p.rowCnt = p.rawContent.length) : cells = p.rawContent.map (cellAt colIdx) := by
  refine List.ext_getElem ?_ fun i hi hi' => ?_
  · rw [length_columnCells h, hrowCnt, List.length_map]
  · obtain ⟨row, cell, hrow, hcell, hget⟩ := columnCells_getElem? h (length_columnCells h ▸ hi)
    obtain ⟨hlt, rfl⟩ := List.getElem?_eq_some_iff.mp hrow
    rw [List.getElem_map, cellAt_eq hcell]
    exact (List.getElem?_eq_some_iff.mp hget).2

/-- The sum of a column of integers, by its rows. -/
theorem Column.sum (h : Column std files p colName colIdx .kInt) :
    p.calculate colName (ascii "sum") =
      .ok (some (toStringInt (toInt32 (exactSum (p.rawContent.map (cellAt colIdx)))))) := by
  obtain ⟨q, hparse⟩ := h.fullyParsed
  have hstored := parse_stored hparse
  obtain ⟨cells, hcells, -⟩ := hstored.exists_cell h.lt_colCnt h.dataType
  rw [calculate_sum hparse h.colName2colIdx h.lt_colCnt h.dataType hcells,
    columnCells_eq_map hcells hstored.rowCnt]

end Column

theorem exactSum_append (cells cells' : List Cell) : exactSum (cells ++ cells') = exactSum cells + exactSum cells' := by
  rw [exactSum, List.map_append, List.sum_append]
  rfl

/-- Sums that are narrowed first. -/
theorem toInt32_sum (parts : List (List Cell)) :
    toInt32 (parts.map fun part => toInt32 (exactSum part)).sum = toInt32 (exactSum parts.flatten) := by
  induction parts with
  | nil => rfl
  | cons part parts ih =>
      rw [List.map_cons, List.sum_cons, toInt32_add, Int.add_comm, ← toInt32_add, ih, toInt32_add, Int.add_comm,
        List.flatten_cons, exactSum_append]

/-! ### The files that are merged -/

section Merged

variable {std : StdSort} {files : Files} {header : Bytes} {filePaths : List Bytes} {m : LogParserMgr}
  {merged : LogParser} {colName : Bytes} {colIdx : Nat} {dataType : DataType}

/-- The rows of the file at a path. -/
def rowsAt (files : Files) (filePath : Bytes) : List Row := (tableOf files filePath).elim [] Table.rows

/-- A column of the merged parser, and the same column of the parser of each file that is merged. -/
structure MergedColumn (std : StdSort) (files : Files) (filePaths : List Bytes) (m : LogParserMgr)
    (merged : LogParser) (colName : Bytes) (colIdx : Nat) (dataType : DataType) : Prop where
  column : Column std files merged colName colIdx dataType
  rawContent : merged.rawContent = (mergedPaths files filePaths).flatMap (rowsAt files)
  single : ∀ filePath ∈ mergedPaths files filePaths, ∃ p, m.logName2logParser.lookup filePath = some p ∧
    Column std files p colName colIdx dataType ∧ p.rawContent = rowsAt files filePath ∧ p.rowCnt ≤ merged.rowCnt

theorem query_calculateAllFiles {metricName cell : Bytes} (hmerged : m.mergedLogParser = some merged)
    (h : merged.calculate colName metricName = .ok (some cell)) :
    m.query (.calculateAllFiles colName metricName) = .ok (some (.value cell)) := by
  rw [LogParserMgr.query, LogParserMgr.target, hmerged]
  show LogParserMgr.Query.call _ merged = _
  rw [LogParserMgr.Query.call, h]
  rfl

theorem query_calculateSingleFile {filePath metricName cell : Bytes} {p : LogParser}
    (hlookup : m.logName2logParser.lookup filePath = some p) (h : p.calculate colName metricName = .ok (some cell)) :
    m.query (.calculateSingleFile filePath colName metricName) = .ok (some (.value cell)) := by
  rw [LogParserMgr.query, LogParserMgr.target, hlookup]
  show LogParserMgr.Query.call _ p = _
  rw [LogParserMgr.Query.call, h]
  rfl

theorem query_sortAllFiles {limit : Int} {isAsc : Bool} {rows : List Row} (hmerged : m.mergedLogParser = some merged)
    (h : merged.sort colName limit isAsc false = .ok (some rows)) :
    m.query (.sortAllFiles colName limit isAsc false) = .ok (some (.rows rows)) := by
  rw [LogParserMgr.query, LogParserMgr.target, hmerged]
  show LogParserMgr.Query.call _ merged = _
  rw [LogParserMgr.Query.call, h]
  rfl

theorem query_sortSingleFile {filePath : Bytes} {limit : Int} {isAsc : Bool} {rows : List Row} {p : LogParser}
    (hlookup : m.logName2logParser.lookup filePath = some p)
    (h : p.sort colName limit isAsc false = .ok (some rows)) :
    m.query (.sortSingleFile filePath colName limit isAsc false) = .ok (some (.rows rows)) := by
  rw [LogParserMgr.query, LogParserMgr.target, hlookup]
  show LogParserMgr.Query.call _ p = _
  rw [LogParserMgr.Query.call, h]
  rfl

theorem MergedColumn.sum (h : MergedColumn std files filePaths m merged colName colIdx .kInt)
    (hmerged : m.mergedLogParser = some merged) :
    ∃ sums : List Int,
      List.Forall₂ (fun filePath sum => m.query (.calculateSingleFile filePath colName (ascii "sum")) =
        .ok (some (.value (toStringInt sum)))) (mergedPaths files filePaths) sums ∧
      m.query (.calculateAllFiles colName (ascii "sum")) =
        .ok (some (.value (toStringInt (toInt32 sums.sum)))) := by
  let cellsAt (filePath : Bytes) : List Cell := (rowsAt files filePath).map (cellAt colIdx)
  refine ⟨(mergedPaths files filePaths).map fun filePath => toInt32 (exactSum (cellsAt filePath)), ?_, ?_⟩
  · rw [List.forall₂_map_right_iff, List.forall₂_same]
    intro filePath hpath
    obtain ⟨p, hlookup, hcolumn, hraw, -⟩ := h.single filePath hpath
    rw [query_calculateSingleFile hlookup hcolumn.sum, hraw]
  · have hcells : merged.rawContent.map (cellAt colIdx) = ((mergedPaths files filePaths).map cellsAt).flatten := by
      rw [h.rawContent, List.map_flatMap, List.flatMap]
    have hsum := toInt32_sum ((mergedPaths files filePaths).map cellsAt)
    rw [List.map_map] at hsum
    rw [query_calculateAllFiles hmerged h.column.sum, hcells, ← hsum]
    rfl

/-- How many rows a limit asks of each file and of all. -/
def askedCnt (limit : Int) (rowCnt : Nat) : Nat := if limit < 0 then rowCnt else limit.toNat

/-- A limit takes as many rows from a list that is no longer. -/
theorem take_limitedCnt {α : Type} {l : List α} (limit : Int) {cnt rowCnt : Nat} (hlength : l.length = cnt)
    (hle : cnt ≤ rowCnt) : l.take (limitedCnt limit cnt) = l.take (askedCnt limit rowCnt) := by
  rw [limitedCnt, askedCnt]
  split
  · rw [List.take_of_length_le hlength.le, List.take_of_length_le (hlength.trans_le hle)]
  · rw [← hlength, ← List.take_take, List.take_length]

/-- The listing of each file that is merged. -/
theorem MergedColumn.exists_parts (h : MergedColumn std files filePaths m merged colName colIdx dataType)
    (hfloat : dataType ≠ .kFloat) (hsize : merged.rowCnt < 2 ^ 63) {limit : Int} (isAsc : Bool)
    (hlow : -2 ^ 31 ≤ limit) (hhigh : limit < 2 ^ 31) :
    ∃ parts : Bytes → List Row, ∀ filePath ∈ mergedPaths files filePaths,
      (parts filePath).Perm (rowsAt files filePath) ∧ (parts filePath).Pairwise (RowLe dataType colIdx isAsc) ∧
        m.query (.sortSingleFile filePath colName limit isAsc false) =
          .ok (some (.rows ((parts filePath).take (askedCnt limit merged.rowCnt)))) := by
  have hone : ∀ filePath ∈ mergedPaths files filePaths, ∃ part : List Row,
      part.Perm (rowsAt files filePath) ∧ part.Pairwise (RowLe dataType colIdx isAsc) ∧
        m.query (.sortSingleFile filePath colName limit isAsc false) =
          .ok (some (.rows (part.take (askedCnt limit merged.rowCnt)))) := by
    intro filePath hpath
    obtain ⟨p, hlookup, hcolumn, hraw, hcnt⟩ := h.single filePath hpath
    obtain ⟨hrowCnt, -, rows, hrows⟩ := hcolumn.exists_listing hfloat (Nat.lt_of_le_of_lt hcnt hsize)
    obtain ⟨listed, hperm, hordered, hsort⟩ := hrows.exists_listed hrowCnt isAsc
    refine ⟨listed, hraw ▸ hperm, hordered, ?_⟩
    rw [← take_limitedCnt limit (hperm.length_eq.trans hrowCnt.symm) hcnt]
    exact query_sortSingleFile hlookup (hsort limit hlow hhigh)
  choose! parts hparts using hone
  exact ⟨parts, hparts⟩

theorem MergedColumn.sort (h : MergedColumn std files filePaths m merged colName colIdx dataType)
    (hmerged : m.mergedLogParser = some merged) (hfloat : dataType ≠ .kFloat) (hsize : merged.rowCnt < 2 ^ 63)
    (limit : Int) (isAsc : Bool) (hlow : -2 ^ 31 ≤ limit) (hhigh : limit < 2 ^ 31) :
    ∃ rows tops, m.query (.sortAllFiles colName limit isAsc false) = .ok (some (.rows rows)) ∧
      List.Forall₂ (fun filePath top => m.query (.sortSingleFile filePath colName limit isAsc false) =
        .ok (some (.rows top))) (mergedPaths files filePaths) tops ∧
      ∀ merge : List Row, merge.Perm tops.flatten → merge.Pairwise (RowLe dataType colIdx isAsc) →
        List.Forall₂ (fun row row' => RowLe dataType colIdx isAsc row row' ∧ RowLe dataType colIdx isAsc row' row)
          rows (merge.take rows.length) := by
  obtain ⟨hrowCnt, -, rows, hrows⟩ := h.column.exists_listing hfloat hsize
  obtain ⟨all, hall, hallOrdered, hsort⟩ := hrows.exists_listed hrowCnt isAsc
  obtain ⟨parts, hparts⟩ := h.exists_parts hfloat hsize isAsc hlow hhigh
  let paths := mergedPaths files filePaths
  let k := askedCnt limit merged.rowCnt
  have htake : all.take (limitedCnt limit merged.rowCnt) = all.take k :=
    take_limitedCnt limit (hall.length_eq.trans hrowCnt.symm) Nat.le.refl
  refine ⟨all.take k, (paths.map parts).map (List.take k), ?_, ?_, fun merge hmerge hordered => ?_⟩
  · exact query_sortAllFiles hmerged (htake ▸ hsort limit hlow hhigh)
  · rw [List.map_map, List.forall₂_map_right_iff, List.forall₂_same]
    exact fun filePath hpath => (hparts filePath hpath).2.2
  · have hpartsOrdered : ∀ part ∈ paths.map parts, part.Pairwise (RowLe dataType colIdx isAsc) := by
      intro part hpart
      obtain ⟨filePath, hpath, rfl⟩ := List.mem_map.mp hpart
      exact (hparts filePath hpath).2.1
    have hflatten : all.Perm (paths.map parts).flatten := by
      refine hall.trans ?_
      rw [h.rawContent, List.flatMap]
      refine List.Perm.flatten_congr ?_
      rw [List.forall₂_map_left_iff, List.forall₂_map_right_iff, List.forall₂_same]
      exact fun filePath hpath => (hparts filePath hpath).1.symm
    have hlength : merge.take (all.take k).length = merge.take k := by
      rw [List.length_take, min_length_eq hflatten hmerge, ← List.take_take, List.take_length]
    rw [hlength]
    exact forall₂_take_of_parts hpartsOrdered hflatten hmerge hallOrdered hordered

end Merged

end ToyBox.LogParser
