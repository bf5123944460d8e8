import Mathlib.Data.List.Dedup
import ToyBox.LogParser.Loaded
import ToyBox.LogParser.LogParserMgr

/-! `LogParserMgr::Parse` on a fresh manager, in terms of the tables of the files: which parsers it
collects, when the merged parser is given rows, and what the filter over the merged rows does with a
row of another width. -/

namespace ToyBox.LogParser

open Cxx Checked

/-! ### Parsing one file -/

/-- The table of a path: that of its file, if the file can be opened and has one. -/
def tableOf (files : Files) (filePath : Bytes) : Option Table :=
  (files filePath).bind Table.ofContent

theorem Holds.rectangular {p : LogParser} {table : Table} (h : Holds p table) : Rectangular p where
  rowCnt := h.rowCnt.trans (congrArg List.length h.rawContent).symm
  rows_ne_nil := h.rawContent ▸ table.rows_ne_nil
  width row hrow := by
    rw [h.rawContent] at hrow
    rw [h.colCnt, ← table.length_types, ← table.rowTypes_eq row hrow, length_rowTypes]

theorem Holds.colIdx_lt {p : LogParser} {table : Table} (h : Holds p table) (name : Bytes) (i : Nat)
    (hname : p.colName2colIdx.lookup name = some i) : i < p.colCnt := by
  rw [h.colCnt]
  exact (List.getElem?_eq_some_iff.mp ((h.colIdx name i).mp hname).1).1

/-- A parser is what `Parse` left behind when it returned true. -/
def FullyParsed (std : StdSort) (files : Files) (p : LogParser) : Prop :=
  ∃ q : LogParser, q.parse std files = .ok (true, p)

theorem readContent_ofFile (files : Files) (filePath : Bytes) :
    readContent files (ofFile filePath) =
      .ok ((ofFile filePath).parseRawContentFromFile files) :=
  if_pos rfl

theorem parse_of_readContent_false (std : StdSort) {files : Files} {p q : LogParser}
    (h : readContent files p = .ok (false, q)) : p.parse std files = .ok (false, q) := by
  rw [parse, h]
  rfl

theorem parse_of_readContent_true (std : StdSort) {files : Files} {p q : LogParser}
    (h : readContent files p = .ok (true, q)) : p.parse std files = finish std q := by
  rw [parse, h]
  rfl

/-- `Parse` on a file without a table. -/
theorem parse_ofFile_none (std : StdSort) {files : Files} {filePath : Bytes}
    (h : tableOf files filePath = none) :
    ∃ p, (ofFile filePath).parse std files = .ok (false, p) := by
  have hread : ((ofFile filePath).parseRawContentFromFile files).1 = false := by
    cases hopen : files filePath with
    | none =>
        rw [parseRawContentFromFile, show files (ofFile filePath).filePath = none from hopen]
    | some content =>
        have := parseRawContentFromFile_ofFile files filePath content hopen
        rw [tableOf, hopen, Option.bind_some] at h
        rwa [h] at this
  refine ⟨((ofFile filePath).parseRawContentFromFile files).2, parse_of_readContent_false std ?_⟩
  rw [readContent_ofFile, ← hread]

/-- `Parse` on a file with a table. -/
theorem parse_ofFile_some (std : StdSort) {files : Files} {filePath : Bytes} {table : Table}
    (h : tableOf files filePath = some table) :
    ∃ p, (ofFile filePath).parse std files = .ok (true, p) ∧ Holds p table ∧ Parsed p ∧
      Loaded std p table.header table.types table.rows := by
  obtain ⟨content, hopen, htable⟩ := Option.bind_eq_some_iff.mp h
  obtain ⟨p₀, hread, hloads⟩ := parseRawContentFromFile_loads hopen htable
  have hholds : Holds p₀ table := ⟨hloads.colNameList, hloads.colCnt, hloads.rawContent, hloads.rowCnt,
    hloads.dataType, hloads.colIdx⟩
  obtain ⟨sorted, metrics, hfinish, hparsed⟩ :=
    finish_rectangular std hholds.rectangular hholds.colIdx_lt
  have hloaded : Loaded std { p₀ with sortedContentByCol := sorted, metricsDataByCol := metrics }
      table.header table.types table.rows := ⟨p₀, hloads, hfinish⟩
  refine ⟨_, ?_, hloaded.holds, hparsed, hloaded⟩
  rw [parse_of_readContent_true std ((readContent_ofFile files filePath).trans (congrArg _ hread)), hfinish]

/-- The result of the task of one path. -/
def TaskResult (std : StdSort) (files : Files) (filePath : Bytes) (result : Bool × LogParser) : Prop :=
  match tableOf files filePath with
  | none => result.1 = false
  | some table => result.1 = true ∧ Holds result.2 table ∧ Parsed result.2 ∧
      FullyParsed std files result.2

theorem parseTask_eq (std : StdSort) (files : Files) (filePath : Bytes) :
    ∃ result, LogParserMgr.parseTask std files filePath = .ok result ∧
      TaskResult std files filePath result := by
  cases h : tableOf files filePath with
  | none =>
      obtain ⟨p, hp⟩ := parse_ofFile_none std h
      refine ⟨(false, p), ?_, by rw [TaskResult, h]⟩
      rw [LogParserMgr.parseTask, hp, ok_bind]
      rfl
  | some table =>
      obtain ⟨p, hp, hholds, hparsed, -⟩ := parse_ofFile_some std h
      refine ⟨(true, p), ?_, by rw [TaskResult, h]; exact ⟨rfl, hholds, hparsed, _, hp⟩⟩
      have hpos : 0 < p.rowCnt := hparsed.toRectangular.rowCnt_pos
      rw [LogParserMgr.parseTask, hp, ok_bind]
      simp [hpos]

/-- The parser of a task is that of the table. -/
theorem parseTask_loaded {std : StdSort} {files : Files} {filePath : Bytes} {result : Bool × LogParser}
    {table : Table} (h : LogParserMgr.parseTask std files filePath = .ok result)
    (htable : tableOf files filePath = some table) :
    Loaded std result.2 table.header table.types table.rows := by
  obtain ⟨p, hp, -, -, hloaded⟩ := parse_ofFile_some std htable
  rw [LogParserMgr.parseTask, hp, ok_bind] at h
  cases h
  exact hloaded

/-! ### Collecting the results -/

/-- The tables of the files that have one, in list order. -/
def tablesOf (files : Files) (filePaths : List Bytes) : List Table :=
  filePaths.filterMap (tableOf files)

/-- The single-file map only holds parsers that were parsed. -/
def MapParsed (std : StdSort) (files : Files) (map : AList fun _ : Bytes => LogParser) : Prop :=
  ∀ filePath p, map.lookup filePath = some p → Parsed p ∧ FullyParsed std files p

/-- A result is true when the file of its path has a table, and its parser is related to that table. -/
def Accepts (files : Files) (R : LogParser → Table → Prop) (filePath : Bytes) (result : Bool × LogParser) :
    Prop :=
  match tableOf files filePath with
  | none => result.1 = false
  | some table => result.1 = true ∧ R result.2 table

/-- What the loop over some paths adds to what has been collected. -/
structure Collects (files : Files) (R : LogParser → Table → Prop) (filePaths : List Bytes)
    (c c' : LogParserMgr.Collected) : Prop where
  logFilePathList : c'.logFilePathList =
    c.logFilePathList ++ filePaths.filter fun filePath => (tableOf files filePath).isSome
  logParserList : ∃ parsers, List.Forall₂ R parsers (tablesOf files filePaths) ∧
    c'.logParserList = c.logParserList ++ parsers
  allRawContent : c'.allRawContent = c.allRawContent ++ (tablesOf files filePaths).flatMap Table.rows
  lookup_some : ∀ filePath ∈ filePaths, ∀ table, tableOf files filePath = some table →
    ∃ p, c'.logName2logParser.lookup filePath = some p ∧ R p table
  lookup_none : ∀ filePath, (filePath ∈ filePaths → tableOf files filePath = none) →
    c'.logName2logParser.lookup filePath = c.logName2logParser.lookup filePath

theorem collectAll_collects {files : Files} {R : LogParser → Table → Prop}
    (hR : ∀ p table, R p table → p.rawContent = table.rows) (c : LogParserMgr.Collected)
    {filePaths : List Bytes} {results : List (Bool × LogParser)}
    (hresults : List.Forall₂ (Accepts files R) filePaths results) (extra : List LogParser) :
    Collects files R filePaths c
      (LogParserMgr.collectAll c filePaths (results.map Prod.snd ++ extra) (results.map Prod.fst)) := by
  induction hresults generalizing c with
  | nil =>
      have hc : LogParserMgr.collectAll c [] extra [] = c := by cases extra <;> rfl
      refine ⟨?_, ⟨[], .nil, ?_⟩, ?_, fun _ hmem => absurd hmem List.not_mem_nil, fun filePath _ => ?_⟩ <;>
        simp [hc, tablesOf]
  | @cons filePath result filePaths results hresult hrest ih =>
      rw [Accepts] at hresult
      simp only [List.map_cons, List.cons_append, LogParserMgr.collectAll]
      cases h : tableOf files filePath with
      | none =>
          rw [h] at hresult
          have hcollect : LogParserMgr.collect c filePath result.2 result.1 = c := by
            rw [LogParserMgr.collect, hresult, if_neg Bool.false_ne_true]
          rw [hcollect]
          have hc := ih c
          refine ⟨?_, ?_, ?_, fun filePath' hmem table htable => ?_, fun filePath' hnone => ?_⟩
          · rw [hc.logFilePathList, List.filter_cons_of_neg (by simp [h])]
          · rw [tablesOf, List.filterMap_cons_none h]
            exact hc.logParserList
          · rw [hc.allRawContent, tablesOf, tablesOf, List.filterMap_cons_none h]
          · rcases List.mem_cons.mp hmem with rfl | hmem
            · rw [h] at htable
              cases htable
            · exact hc.lookup_some filePath' hmem table htable
          · exact hc.lookup_none filePath' fun hmem => hnone (List.mem_cons_of_mem filePath hmem)
      | some table =>
          rw [h] at hresult
          obtain ⟨hret, hholds⟩ := hresult
          have hcollect : LogParserMgr.collect c filePath result.2 result.1 =
              { logFilePathList := c.logFilePathList ++ [filePath]
                logParserList := c.logParserList ++ [result.2]
                logName2logParser := c.logName2logParser.insert filePath result.2
                allRawContent := c.allRawContent ++ result.2.rawContent } := by
            rw [LogParserMgr.collect, hret, if_pos rfl]
          rw [hcollect]
          have hc := ih
            { logFilePathList := c.logFilePathList ++ [filePath]
              logParserList := c.logParserList ++ [result.2]
              logName2logParser := c.logName2logParser.insert filePath result.2
              allRawContent := c.allRawContent ++ result.2.rawContent }
          refine ⟨?_, ?_, ?_, fun filePath' hmem table' htable' => ?_, fun filePath' hnone => ?_⟩
          · rw [hc.logFilePathList, List.filter_cons_of_pos (by simp [h]), List.append_assoc]
            rfl
          · obtain ⟨parsers, hparsers, hlist⟩ := hc.logParserList
            rw [tablesOf, List.filterMap_cons_some h]
            refine ⟨result.2 :: parsers, .cons hholds hparsers, ?_⟩
            rw [hlist, List.append_assoc]
            rfl
          · rw [hc.allRawContent, tablesOf, tablesOf, List.filterMap_cons_some h, List.append_assoc,
              hR result.2 table hholds]
            rfl
          · by_cases hlater : filePath' ∈ filePaths
            · exact hc.lookup_some filePath' hlater table' htable'
            · obtain rfl := (List.mem_cons.mp hmem).resolve_right hlater
              obtain rfl := Option.some.inj (h.symm.trans htable')
              refine ⟨result.2, ?_, hholds⟩
              rw [hc.lookup_none filePath' fun hmem => absurd hmem hlater, AList.lookup_insert]
          · have hne : filePath' ≠ filePath := by
              rintro rfl
              rw [hnone List.mem_cons_self] at h
              cases h
            rw [hc.lookup_none filePath' fun hmem => hnone (List.mem_cons_of_mem filePath hmem),
              AList.lookup_insert_ne hne]

/-! ### The constructor's consistency check -/

/-- The type map of a parser with a table has an entry for every column and no other. -/
theorem Holds.length_dataType {p : LogParser} {table : Table} (h : Holds p table) :
    p.colIdx2colDataType.entries.length = table.header.length := by
  have hperm : p.colIdx2colDataType.keys.Perm (List.range table.types.length) := by
    rw [List.perm_ext_iff_of_nodup p.colIdx2colDataType.keys_nodup List.nodup_range]
    intro i
    rw [← AList.mem_keys, ← AList.lookup_isSome, h.dataType i, List.mem_range]
    simp
  have := hperm.length_eq
  rwa [List.length_range, table.length_types, AList.keys, List.keys, List.length_map] at this

/-- The name map has an entry for every column exactly when no name occurs twice. -/
theorem Holds.length_colIdx {p : LogParser} {table : Table} (h : Holds p table) :
    table.header.length = p.colName2colIdx.entries.length ↔ table.header.Nodup := by
  have hmem : ∀ name, name ∈ p.colName2colIdx ↔ name ∈ table.header := by
    intro name
    rw [← AList.lookup_isSome, Option.isSome_iff_exists]
    simp only [h.colIdx]
    constructor
    · rintro ⟨i, hi, -⟩
      exact List.mem_of_getElem? hi
    · intro hname
      exact exists_isLastIndex hname
  have hperm : p.colName2colIdx.keys.Perm table.header.dedup := by
    rw [List.perm_ext_iff_of_nodup p.colName2colIdx.keys_nodup (List.nodup_dedup _)]
    intro name
    rw [← AList.mem_keys, hmem, List.mem_dedup]
  have hlen := hperm.length_eq
  rw [AList.keys, List.keys, List.length_map] at hlen
  rw [hlen]
  constructor
  · intro heq
    rw [← (List.dedup_sublist table.header).eq_of_length heq.symm]
    exact List.nodup_dedup _
  · intro hnodup
    rw [List.dedup_eq_self.mpr hnodup]

/-! ### The filter over the merged rows -/

/-- Two lists of column types agree on the columns both have. -/
def agree : List DataType → List DataType → Bool
  | a :: as, b :: bs => a == b && agree as bs
  | _, _ => true

theorem agree_nil_right (as : List DataType) : agree as [] = true := by
  cases as <;> rfl

theorem agree_self (as : List DataType) : agree as as = true := by
  induction as with
  | nil => rfl
  | cons a as ih => simp [agree, ih]

theorem eq_of_agree {as bs : List DataType} (h : agree as bs = true) (hlen : as.length = bs.length) :
    as = bs := by
  induction as generalizing bs with
  | nil => exact (List.length_eq_zero_iff.mp hlen.symm).symm
  | cons a as ih =>
      cases bs with
      | nil => exact absurd hlen (by simp)
      | cons b bs =>
          rw [agree, Bool.and_eq_true, beq_iff_eq] at h
          rw [h.1, ih h.2 (by simpa using hlen)]

/-- The check of one row against the columns, from column `k` on. The loop leaves at the first column
whose type differs; when there is none before the row ends, it reads past the end of the row. -/
theorem isMismatchRow_range' {p : LogParser} {types : List DataType} (hp : TypedBy p types)
    (row : Row) (k m : Nat) (hlen : types.length = k + m) (hk : k ≤ row.length) :
    isMismatchRow p row (List.range' k m) =
      if agree ((rowTypes row).drop k) (types.drop k) then
        if types.length ≤ row.length then .ok false else .error (.cell row.length)
      else .ok true := by
  induction m generalizing k with
  | zero =>
      rw [List.drop_eq_nil_of_le (by omega : types.length ≤ k), agree_nil_right, if_pos rfl,
        if_pos (by omega)]
      rfl
  | succ m ih =>
      rw [List.range'_succ, isMismatchRow]
      by_cases hrow : k < row.length
      · have htypes : k < types.length := by omega
        rw [subscript_of_lt _ hrow, ok_bind, hp.2 k, List.getElem?_eq_getElem htypes,
          List.drop_eq_getElem_cons (by simpa using hrow), List.drop_eq_getElem_cons htypes, agree]
        simp only [rowTypes, List.getElem_map, ne_eq, Option.some.injEq]
        by_cases heq : parseColumnDataType row[k] = types[k]
        · rw [if_neg (not_not.mpr heq), ih (k + 1) (by omega) (by omega), heq, beq_self_eq_true,
            Bool.true_and]
          rfl
        · rw [if_pos heq, if_neg (by simp [heq])]
      · obtain rfl : k = row.length := by omega
        rw [subscript_eq_error_iff.mpr ⟨le_refl _, rfl⟩,
          List.drop_eq_nil_of_le (length_rowTypes row).le, if_pos (by rfl), if_neg (by omega)]
        rfl

theorem isMismatchRow_range {p : LogParser} {types : List DataType} (hp : TypedBy p types)
    (row : Row) :
    isMismatchRow p row (List.range p.colCnt) =
      if agree (rowTypes row) types then
        if types.length ≤ row.length then .ok false else .error (.cell row.length)
      else .ok true := by
  rw [List.range_eq_range', isMismatchRow_range' hp row 0 p.colCnt (by rw [hp.1]; omega) (Nat.zero_le _)]
  rfl

/-- The rows the filter keeps, when no row is cut short within agreeing columns. -/
theorem filterRows_eq {p : LogParser} {types : List DataType} (hp : TypedBy p types)
    (rows : List Row) (h : ∀ row ∈ rows, agree (rowTypes row) types → types.length ≤ row.length) :
    filterRows p rows = .ok (rows.filter fun row => agree (rowTypes row) types) := by
  induction rows with
  | nil => rfl
  | cons row rows ih =>
      rw [filterRows, isMismatchRow_range hp, ih fun row hrow => h row (List.mem_cons_of_mem _ hrow)]
      by_cases hagree : agree (rowTypes row) types = true
      · rw [if_pos hagree, if_pos (h row List.mem_cons_self hagree), List.filter_cons, if_pos hagree]
        rfl
      · rw [if_neg hagree, List.filter_cons, if_neg hagree]
        rfl

/-- Otherwise the filter reads past the end of a row. -/
theorem filterRows_error {p : LogParser} {types : List DataType} (hp : TypedBy p types)
    (rows : List Row) {row : Row} (hrow : row ∈ rows) (hagree : agree (rowTypes row) types = true)
    (hshort : row.length < types.length) : ∃ col, filterRows p rows = .error (.cell col) := by
  induction rows with
  | nil => exact absurd hrow List.not_mem_nil
  | cons row' rows ih =>
      rw [filterRows, isMismatchRow_range hp]
      by_cases hbad : agree (rowTypes row') types = true ∧ row'.length < types.length
      · rw [if_pos hbad.1, if_neg (by omega)]
        exact ⟨_, rfl⟩
      · have hmem : row ∈ rows := by
          rcases List.mem_cons.mp hrow with rfl | hmem
          · exact absurd ⟨hagree, hshort⟩ hbad
          · exact hmem
        obtain ⟨col, hcol⟩ := ih hmem
        refine ⟨col, ?_⟩
        rw [hcol]
        by_cases hagree' : agree (rowTypes row') types = true
        · rw [if_pos hagree', if_pos (by by_contra hlt; exact hbad ⟨hagree', by omega⟩)]
          rfl
        · rw [if_neg hagree']
          rfl

/-! ### The three outcomes -/

/-- The rows of all tables that agree with the types of the first. -/
def mergedRows (first : Table) (tables : List Table) : List Row :=
  (tables.flatMap Table.rows).filter fun row => agree (rowTypes row) first.types

/-- `Parse` up to the merge, when the parsers it pairs with the paths are related to the tables of some
files. -/
theorem parse_eq_of_accepts {std : StdSort} {files held : Files} {R : LogParser → Table → Prop}
    (hR : ∀ p table, R p table → p.rawContent = table.rows) {m : LogParserMgr}
    {tasks results : List (Bool × LogParser)} {extra : List LogParser}
    (htasks : m.logFilePathList.mapM (LogParserMgr.parseTask std files) = .ok tasks)
    (hlist : m.logParserList ++ tasks.map Prod.snd = results.map Prod.snd ++ extra)
    (hflags : tasks.map Prod.fst = results.map Prod.fst)
    (hresults : List.Forall₂ (Accepts held R) m.logFilePathList results) :
    ∃ (c : LogParserMgr.Collected) (m' : LogParserMgr),
      Collects held R m.logFilePathList { logName2logParser := m.logName2logParser } c ∧
      m' = { m with
        logFilePathList := c.logFilePathList
        logParserList := c.logParserList
        logName2logParser := c.logName2logParser } ∧
      match tablesOf held m.logFilePathList with
      | [] => m.parse std files = .ok (false, m')
      | first :: rest => ∃ p, R p first ∧ m.parse std files = (do
          let (ok, merged) ← (LogParser.ofRows ((first :: rest).flatMap Table.rows)
            p.colName2colIdx p.colIdx2colDataType p.colNameList).parse std files
          .ok (ok, { m' with mergedLogParser := some merged })) := by
  have hc := collectAll_collects hR { logName2logParser := m.logName2logParser } hresults extra
  refine ⟨_, _, hc, rfl, ?_⟩
  obtain ⟨parsers, hparsers, hparserList⟩ := hc.logParserList
  have hraw := hc.allRawContent
  rw [LogParserMgr.parse, htasks, ok_bind]
  simp only [hlist, hflags]
  cases htables : tablesOf held m.logFilePathList with
  | nil =>
      rw [htables, List.forall₂_nil_right_iff] at hparsers
      subst hparsers
      simp only [hparserList, List.nil_append]
  | cons first rest =>
      rw [htables] at hparsers hraw
      obtain ⟨p, parsers', hp, -, rfl⟩ := List.forall₂_cons_right_iff.mp hparsers
      refine ⟨p, hp, ?_⟩
      have hne : (first :: rest).flatMap Table.rows ≠ [] := by
        simp [List.flatMap_cons, first.rows_ne_nil]
      simp only [hparserList, hraw, List.nil_append, if_neg hne]

/-- What `Parse` leaves of the parser of one file. -/
structure TaskParsed (std : StdSort) (files : Files) (p : LogParser) (table : Table) : Prop where
  parsed : Parsed p
  fullyParsed : FullyParsed std files p
  loaded : Loaded std p table.header table.types table.rows

/-- The tasks of `Parse` always have results. -/
theorem exists_tasks (std : StdSort) (files : Files) (filePaths : List Bytes) :
    ∃ tasks, filePaths.mapM (LogParserMgr.parseTask std files) = .ok tasks ∧
      List.Forall₂ (Accepts files (TaskParsed std files)) filePaths tasks := by
  obtain ⟨tasks, htasks⟩ := exists_mapM_eq_ok (f := LogParserMgr.parseTask std files)
    (l := filePaths) fun filePath _ => by
      obtain ⟨result, hresult, -⟩ := parseTask_eq std files filePath
      exact ⟨result, hresult⟩
  refine ⟨tasks, htasks, (mapM_eq_ok_iff.mp htasks).imp fun filePath result hresult => ?_⟩
  obtain ⟨result', hresult', htask⟩ := parseTask_eq std files filePath
  obtain rfl : result = result' := Except.ok.inj (hresult.symm.trans hresult')
  rw [Accepts]
  rw [TaskResult] at htask
  cases h : tableOf files filePath with
  | none => rwa [h] at htask
  | some table =>
      rw [h] at htask
      obtain ⟨hret, -, hparsed, hfully⟩ := htask
      exact ⟨hret, hparsed, hfully, parseTask_loaded hresult h⟩

/-- A manager that has collected the parsers of some paths. -/
def HoldsFiles (std : StdSort) (files : Files) (filePaths : List Bytes) (m : LogParserMgr) : Prop :=
  ∃ c, Collects files (TaskParsed std files) filePaths { logName2logParser := ∅ } c ∧
    m.logFilePathList = c.logFilePathList ∧ m.logParserList = c.logParserList ∧
    m.logName2logParser = c.logName2logParser

/-- `Parse` of a fresh manager up to the merge: the collected parsers and rows. -/
theorem parse_ofPaths_eq (std : StdSort) (files : Files) (filePaths : List Bytes) :
    ∃ m : LogParserMgr, m.mergedLogParser = none ∧ HoldsFiles std files filePaths m ∧
      match tablesOf files filePaths with
      | [] => (LogParserMgr.ofPaths filePaths).parse std files = .ok (false, m)
      | first :: rest => ∃ p, Holds p first ∧
          (LogParserMgr.ofPaths filePaths).parse std files = (do
            let (ok, merged) ← (LogParser.ofRows ((first :: rest).flatMap Table.rows)
              p.colName2colIdx p.colIdx2colDataType p.colNameList).parse std files
            .ok (ok, { m with mergedLogParser := some merged })) := by
  obtain ⟨tasks, htasks, hresults⟩ := exists_tasks std files filePaths
  have hlist : (LogParserMgr.ofPaths filePaths).logParserList ++ tasks.map Prod.snd =
      tasks.map Prod.snd ++ [] := (List.append_nil _).symm
  obtain ⟨c, m, hc, rfl, hparse⟩ := parse_eq_of_accepts (m := .ofPaths filePaths)
    (fun p table h => h.loaded.holds.rawContent) htasks hlist rfl hresults
  refine ⟨{ logFilePathList := c.logFilePathList
            logParserList := c.logParserList
            logName2logParser := c.logName2logParser }, rfl, ⟨c, hc, rfl, rfl, rfl⟩, ?_⟩
  rw [show (LogParserMgr.ofPaths filePaths).logFilePathList = filePaths from rfl] at hparse
  cases htables : tablesOf files filePaths with
  | nil =>
      rw [htables] at hparse
      exact hparse
  | cons first rest =>
      rw [htables] at hparse
      obtain ⟨p, hp, hparse⟩ := hparse
      exact ⟨p, hp.loaded.holds, hparse⟩

/-- The map of a manager that has collected parsed files only. -/
theorem HoldsFiles.mapParsed {std : StdSort} {files : Files} {filePaths : List Bytes} {m : LogParserMgr}
    (h : HoldsFiles std files filePaths m) : MapParsed std files m.logName2logParser := by
  obtain ⟨c, hc, -, -, hmap⟩ := h
  intro filePath p hlookup
  rw [hmap] at hlookup
  by_cases hpath : filePath ∈ filePaths ∧ tableOf files filePath ≠ none
  · obtain ⟨table, htable⟩ := Option.ne_none_iff_exists'.mp hpath.2
    obtain ⟨p', hlookup', hp'⟩ := hc.lookup_some filePath hpath.1 table htable
    obtain rfl := Option.some.inj (hlookup.symm.trans hlookup')
    exact ⟨hp'.parsed, hp'.fullyParsed⟩
  · rw [hc.lookup_none filePath fun hmem => by_contra fun hne => hpath ⟨hmem, hne⟩] at hlookup
    simp at hlookup

end ToyBox.LogParser
