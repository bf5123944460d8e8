import ToyBox.LogParser.Merge

/-! The outcomes of `LogParserMgr::Parse` on a fresh manager. The rows of the collected files go through
the constructor's consistency check and through `ParseRawContent`, which looks at the columns of the
first file only. So the outcome is decided by the first header and by the widths and types of the
tables. -/

namespace ToyBox.LogParser

open Cxx Checked

/-- Every table is as wide as the first one, or differs from it in the type of a common column. -/
def SameWidths (first : Table) (tables : List Table) : Prop :=
  ∀ table ∈ tables,
    table.header.length = first.header.length ∨ agree table.types first.types = false

/-- What `Parse` returns and leaves behind. -/
def parseFresh (std : StdSort) (files : Files) (filePaths : List Bytes) :
    Except Fault (Bool × LogParserMgr) :=
  (LogParserMgr.ofPaths filePaths).parse std files

/-- A merged parser with the columns and rows it should have. -/
structure HoldsMerged (p : LogParser) (first : Table) (tables : List Table) : Prop where
  colNameList : p.colNameList = first.header
  colCnt : p.colCnt = first.header.length
  rawContent : p.rawContent = mergedRows first tables
  dataType : ∀ i, p.colIdx2colDataType.lookup i = first.types[i]?

/-- The merged parser when the first header repeats a name: no rows, but a name map. -/
structure Unparsed (p : LogParser) (first : Table) : Prop where
  rawContent : p.rawContent = []
  sortedContentByCol : p.sortedContentByCol = []
  metricsDataByCol : p.metricsDataByCol = []
  rowCnt : p.rowCnt = 0
  colIdx : ∀ name i, p.colName2colIdx.lookup name = some i ↔ IsLastIndex first.header name i

section Merged

variable (std : StdSort) (files : Files) {p : LogParser} {first : Table} (hp : Holds p first)

include hp in
/-- The constructor keeps the rows exactly when no column name occurs twice. -/
theorem ofRows_eq (rows : List Row) :
    LogParser.ofRows rows p.colName2colIdx p.colIdx2colDataType p.colNameList =
      { rawContent := if first.header.Nodup then rows else []
        isFromFile := false
        colCnt := first.header.length
        colNameList := first.header
        colName2colIdx := p.colName2colIdx
        colIdx2colDataType := p.colIdx2colDataType } := by
  have hkeep : (first.header.length ≠ p.colName2colIdx.entries.length ∨
      first.header.length ≠ p.colIdx2colDataType.entries.length) ↔ ¬first.header.Nodup := by
    rw [hp.length_dataType, ← not_congr hp.length_colIdx]
    simp
  rw [LogParser.ofRows, hp.colNameList]
  by_cases hnodup : first.header.Nodup
  · rw [if_neg (fun h => hkeep.mp h hnodup), if_pos hnodup]
  · rw [if_pos (hkeep.mpr hnodup), if_neg hnodup]

include hp in
theorem parse_ofRows_duplicate (hdup : ¬first.header.Nodup) (rows : List Row) :
    ∃ merged, (LogParser.ofRows rows p.colName2colIdx p.colIdx2colDataType p.colNameList).parse std
      files = .ok (false, merged) ∧ Unparsed merged first := by
  rw [ofRows_eq hp, if_neg hdup]
  exact ⟨_, rfl, rfl, rfl, rfl, rfl, hp.colIdx⟩

include hp in
theorem parse_ofRows_error (hnodup : first.header.Nodup) {rows : List Row} {row : Row}
    (hrow : row ∈ rows) (hagree : agree (rowTypes row) first.types = true)
    (hshort : row.length < first.types.length) :
    ∃ col, (LogParser.ofRows rows p.colName2colIdx p.colIdx2colDataType p.colNameList).parse std
      files = .error (.cell col) := by
  rw [ofRows_eq hp, if_pos hnodup]
  let q : LogParser :=
    { rawContent := rows
      isFromFile := false
      colCnt := first.header.length
      colNameList := first.header
      colName2colIdx := p.colName2colIdx
      colIdx2colDataType := p.colIdx2colDataType }
  have htyped : TypedBy q first.types := ⟨first.length_types.symm, hp.dataType⟩
  obtain ⟨col, hcol⟩ := filterRows_error htyped rows hrow hagree hshort
  refine ⟨col, ?_⟩
  have hread : readContent files q = .error (.cell col) := by
    rw [readContent, if_neg (by simp [q]), parseRawContent, if_neg (List.ne_nil_of_mem hrow), hcol]
    rfl
  rw [show LogParser.parse std files q = _ from rfl, LogParser.parse, hread]
  rfl

include hp in
theorem parse_ofRows_merged (hnodup : first.header.Nodup) (tables : List Table)
    (hfirst : first ∈ tables) (hwidth : ∀ row ∈ tables.flatMap Table.rows,
      agree (rowTypes row) first.types → first.types.length ≤ row.length) :
    ∃ merged, (LogParser.ofRows (tables.flatMap Table.rows) p.colName2colIdx p.colIdx2colDataType
        p.colNameList).parse std files = .ok (true, merged) ∧
      HoldsMerged merged first tables ∧ Parsed merged ∧
      Loaded std merged first.header first.types (mergedRows first tables) := by
  rw [ofRows_eq hp, if_pos hnodup]
  let q : LogParser :=
    { rawContent := tables.flatMap Table.rows
      isFromFile := false
      colCnt := first.header.length
      colNameList := first.header
      colName2colIdx := p.colName2colIdx
      colIdx2colDataType := p.colIdx2colDataType }
  have htyped : TypedBy q first.types := ⟨first.length_types.symm, hp.dataType⟩
  obtain ⟨row, hrow⟩ := List.exists_mem_of_ne_nil _ first.rows_ne_nil
  -- the rows of the first file are kept, so the merged rows are not empty
  have hmem : row ∈ tables.flatMap Table.rows := List.mem_flatMap.mpr ⟨first, hfirst, hrow⟩
  have hkept : row ∈ mergedRows first tables := by
    refine List.mem_filter.mpr ⟨hmem, ?_⟩
    rw [first.rowTypes_eq row hrow]
    exact agree_self _
  let q' : LogParser := { q with
    rawContent := mergedRows first tables
    rowCnt := (mergedRows first tables).length }
  have hread : readContent files q = .ok (true, q') := by
    rw [readContent, if_neg (by simp [q]), parseRawContent, if_neg (List.ne_nil_of_mem hmem),
      filterRows_eq htyped _ hwidth]
    rfl
  have hrect : Rectangular q' :=
    ⟨rfl, List.ne_nil_of_mem hkept, fun row hrow => by
      obtain ⟨hmem, hagree⟩ := List.mem_filter.mp hrow
      show first.header.length ≤ row.length
      rw [← first.length_types]
      exact hwidth row hmem hagree⟩
  have hname : ∀ name i, q'.colName2colIdx.lookup name = some i → i < q'.colCnt := by
    intro name i hlookup
    have := hp.colIdx_lt name i hlookup
    rwa [hp.colCnt] at this
  obtain ⟨sorted, metrics, hfinish, hparsed⟩ := finish_rectangular std hrect hname
  refine ⟨{ q' with sortedContentByCol := sorted, metricsDataByCol := metrics },
    (parse_of_readContent_true std hread).trans hfinish, ⟨rfl, rfl, rfl, hp.dataType⟩, hparsed,
    q', ⟨rfl, rfl, rfl, rfl, hp.dataType, hp.colIdx, rfl, rfl⟩, hfinish⟩

include hp in
/-- What there is when the merged parser returns true. -/
theorem parse_ofRows_of_true {tables : List Table} (hfirst : first ∈ tables) {merged : LogParser}
    (hparse : (LogParser.ofRows (tables.flatMap Table.rows) p.colName2colIdx p.colIdx2colDataType
      p.colNameList).parse std files = .ok (true, merged)) :
    first.header.Nodup ∧
    (∀ table ∈ tables, agree table.types first.types = true → first.header.length ≤ table.header.length) ∧
    Loaded std merged first.header first.types (mergedRows first tables) := by
  have hnodup : first.header.Nodup := by
    by_contra hdup
    obtain ⟨merged', hfalse, -⟩ := parse_ofRows_duplicate std files hp hdup (tables.flatMap Table.rows)
    cases hparse.symm.trans hfalse
  have hwidth : ∀ row ∈ tables.flatMap Table.rows, agree (rowTypes row) first.types = true →
      first.types.length ≤ row.length := by
    intro row hrow hagree
    by_contra hshort
    obtain ⟨col, herror⟩ := parse_ofRows_error std files hp hnodup hrow hagree (by omega)
    cases hparse.symm.trans herror
  obtain ⟨merged', hparse', -, -, hloaded⟩ := parse_ofRows_merged std files hp hnodup tables hfirst hwidth
  cases hparse.symm.trans hparse'
  refine ⟨hnodup, fun table htable hagree => ?_, hloaded⟩
  obtain ⟨row, hrow⟩ := List.exists_mem_of_ne_nil _ table.rows_ne_nil
  have htypes := table.rowTypes_eq row hrow
  have := hwidth row (List.mem_flatMap.mpr ⟨table, htable, hrow⟩) (htypes.symm ▸ hagree)
  rwa [← length_rowTypes row, htypes, first.length_types, table.length_types] at this

end Merged

/-! ### The outcomes -/

variable (std : StdSort) {files : Files} {filePaths : List Bytes}

/-- No file has a table. -/
theorem parseFresh_nil (htables : tablesOf files filePaths = []) :
    ∃ m, parseFresh std files filePaths = .ok (false, m) ∧ m.mergedLogParser = none ∧
      MapParsed std files m.logName2logParser := by
  obtain ⟨m, hnone, hfiles, hparse⟩ := parse_ofPaths_eq std files filePaths
  rw [htables] at hparse
  exact ⟨m, hparse, hnone, hfiles.mapParsed⟩

variable {first : Table} {rest : List Table} (htables : tablesOf files filePaths = first :: rest)

include htables in
/-- The first header repeats a name. -/
theorem parseFresh_duplicate (hdup : ¬first.header.Nodup) :
    ∃ m p, parseFresh std files filePaths = .ok (false, m) ∧ m.mergedLogParser = some p ∧
      Unparsed p first := by
  obtain ⟨m, -, -, hparse⟩ := parse_ofPaths_eq std files filePaths
  rw [htables] at hparse
  obtain ⟨p, hp, hparse⟩ := hparse
  obtain ⟨merged, hmerged, hunparsed⟩ := parse_ofRows_duplicate std files hp hdup
    ((first :: rest).flatMap Table.rows)
  exact ⟨{ m with mergedLogParser := some merged }, merged,
    by rw [parseFresh, hparse, hmerged]; rfl, rfl, hunparsed⟩

include htables in
/-- A narrower table agrees with the first one on its columns. -/
theorem parseFresh_narrow (hnodup : first.header.Nodup) {table : Table} (hmem : table ∈ first :: rest)
    (hagree : agree table.types first.types = true)
    (hnarrow : table.header.length < first.header.length) :
    ∃ col, parseFresh std files filePaths = .error (.cell col) := by
  obtain ⟨m, -, -, hparse⟩ := parse_ofPaths_eq std files filePaths
  rw [htables] at hparse
  obtain ⟨p, hp, hparse⟩ := hparse
  obtain ⟨row, hrow⟩ := List.exists_mem_of_ne_nil _ table.rows_ne_nil
  have htypes := table.rowTypes_eq row hrow
  have hlen : row.length = table.header.length := by
    rw [← length_rowTypes, htypes, table.length_types]
  obtain ⟨col, herror⟩ := parse_ofRows_error std files hp hnodup
    (List.mem_flatMap.mpr ⟨table, hmem, hrow⟩) (htypes ▸ hagree)
    (by rw [hlen, first.length_types]; exact hnarrow)
  exact ⟨col, by rw [parseFresh, hparse, herror]; rfl⟩

include htables in
/-- No table is narrower than the first one within agreeing columns. -/
theorem parseFresh_merged (hnodup : first.header.Nodup)
    (hwidth : ∀ table ∈ first :: rest, agree table.types first.types = true →
      first.header.length ≤ table.header.length) :
    ∃ m p, parseFresh std files filePaths = .ok (true, m) ∧ m.mergedLogParser = some p ∧
      HoldsMerged p first (first :: rest) ∧ Parsed p ∧ FullyParsed std files p ∧
      Loaded std p first.header first.types (mergedRows first (first :: rest)) ∧
      HoldsFiles std files filePaths m := by
  obtain ⟨m, -, hfiles, hparse⟩ := parse_ofPaths_eq std files filePaths
  rw [htables] at hparse
  obtain ⟨p, hp, hparse⟩ := hparse
  obtain ⟨merged, hmerged, hholds, hparsed, hloaded⟩ := parse_ofRows_merged std files hp hnodup
    (first :: rest) List.mem_cons_self fun row hrow hagree => by
      obtain ⟨table, htable, hrow⟩ := List.mem_flatMap.mp hrow
      have htypes := table.rowTypes_eq row hrow
      rw [htypes] at hagree
      have := hwidth table htable hagree
      rw [← length_rowTypes row, htypes, table.length_types, first.length_types]
      exact this
  exact ⟨{ m with mergedLogParser := some merged }, merged,
    by rw [parseFresh, hparse, hmerged]; rfl, rfl, hholds, hparsed, ⟨_, hmerged⟩, hloaded, hfiles⟩

/-- What there is when `Parse` returns true. -/
theorem parseFresh_of_true {std : StdSort} {files : Files} {filePaths : List Bytes} {m : LogParserMgr}
    (hparse : parseFresh std files filePaths = .ok (true, m)) :
    ∃ first rest p, tablesOf files filePaths = first :: rest ∧ first.header.Nodup ∧
      (∀ table ∈ first :: rest, agree table.types first.types = true →
        first.header.length ≤ table.header.length) ∧
      m.mergedLogParser = some p ∧
      Loaded std p first.header first.types (mergedRows first (first :: rest)) ∧
      HoldsFiles std files filePaths m := by
  obtain ⟨m', -, hfiles, hparse'⟩ := parse_ofPaths_eq std files filePaths
  cases htables : tablesOf files filePaths with
  | nil =>
      rw [htables] at hparse'
      cases hparse.symm.trans hparse'
  | cons first rest =>
      rw [htables] at hparse'
      obtain ⟨p, hp, hparse'⟩ := hparse'
      obtain ⟨⟨ok, merged⟩, hmerged, hok⟩ := bind_eq_ok_iff.mp (hparse'.symm.trans hparse)
      cases hok
      obtain ⟨hnodup, hwidth, hloaded⟩ := parse_ofRows_of_true std files hp List.mem_cons_self hmerged
      exact ⟨first, rest, merged, rfl, hnodup, hwidth, rfl, hloaded, hfiles⟩

end ToyBox.LogParser
