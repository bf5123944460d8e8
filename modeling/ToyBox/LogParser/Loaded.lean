import ToyBox.LogParser.FromFile
import ToyBox.LogParser.Parsed

/-! A parser is determined, as far as its methods look, by its header, its column types and its rows. Two
ways of getting the same three, from a file or from the rows of several, give the same sorted columns and
metrics and answer every query alike. -/

namespace ToyBox.LogParser

open Cxx Checked

/-- Two parsers that differ at most in where their rows come from. -/
structure Alike (p q : LogParser) : Prop where
  rawContent : p.rawContent = q.rawContent
  sortedContentByCol : p.sortedContentByCol = q.sortedContentByCol
  metricsDataByCol : p.metricsDataByCol = q.metricsDataByCol
  colCnt : p.colCnt = q.colCnt
  rowCnt : p.rowCnt = q.rowCnt
  colNameList : p.colNameList = q.colNameList
  colIdx : ∀ name, p.colName2colIdx.lookup name = q.colName2colIdx.lookup name
  dataType : ∀ i, p.colIdx2colDataType.lookup i = q.colIdx2colDataType.lookup i

section Alike

variable {p q : LogParser} (h : Alike p q)

include h

theorem Alike.columnCells (colIdx : Nat) : columnCells p colIdx = columnCells q colIdx := by
  rw [LogParser.columnCells, LogParser.columnCells, h.rowCnt, h.rawContent]

theorem Alike.sortColumn (std : StdSort) : sortColumn std p = sortColumn std q := by
  funext colIdx
  rw [LogParser.sortColumn, LogParser.sortColumn, h.rowCnt, h.dataType, h.columnCells]

theorem Alike.sortedCell (colIdx idx : Nat) : sortedCell p colIdx idx = sortedCell q colIdx idx := by
  rw [LogParser.sortedCell, LogParser.sortedCell, h.sortedContentByCol, h.rawContent]

theorem Alike.columnMetrics : columnMetrics p = columnMetrics q := by
  funext colIdx
  have hcells : numericCells p colIdx = numericCells q colIdx := by
    rw [numericCells, numericCells, h.dataType, h.columnCells]
  rw [LogParser.columnMetrics, LogParser.columnMetrics, h.metricsDataByCol, h.rowCnt, h.dataType, hcells]
  simp only [h.sortedCell]

/-- Sorting and storing the metrics keep two parsers alike. -/
theorem Alike.finish {std : StdSort} {p' q' : LogParser} {ok ok' : Bool}
    (hp : finish std p = .ok (ok, p')) (hq : finish std q = .ok (ok', q')) : Alike p' q' := by
  rw [LogParser.finish] at hp hq
  obtain ⟨p₁, hsort, hp⟩ := bind_eq_ok_iff.mp hp
  obtain ⟨q₁, hsort', hq⟩ := bind_eq_ok_iff.mp hq
  have h₁ : Alike p₁ q₁ := by
    rw [sortContent] at hsort hsort'
    obtain ⟨sorted, hsorted, hsort⟩ := bind_eq_ok_iff.mp hsort
    obtain ⟨sorted', hsorted', hsort'⟩ := bind_eq_ok_iff.mp hsort'
    rw [h.colCnt, h.sortColumn std, hsorted'] at hsorted
    cases hsorted
    cases hsort
    cases hsort'
    exact { h with sortedContentByCol := rfl }
  obtain ⟨p₂, hmetrics, hp⟩ := bind_eq_ok_iff.mp hp
  obtain ⟨q₂, hmetrics', hq⟩ := bind_eq_ok_iff.mp hq
  rw [storeMetrics] at hmetrics hmetrics'
  obtain ⟨metrics, hstored, hmetrics⟩ := bind_eq_ok_iff.mp hmetrics
  obtain ⟨metrics', hstored', hmetrics'⟩ := bind_eq_ok_iff.mp hmetrics'
  rw [h₁.colCnt, h₁.columnMetrics, hstored'] at hstored
  cases hstored
  cases hmetrics
  cases hmetrics'
  cases hp
  cases hq
  exact { h₁ with metricsDataByCol := rfl }

theorem Alike.calculate (colName metricName : Bytes) :
    p.calculate colName metricName = q.calculate colName metricName := by
  rw [LogParser.calculate, LogParser.calculate, h.colIdx, h.metricsDataByCol]

theorem Alike.sort (colName : Bytes) (limit : Int) (isAsc isShowHeader : Bool) :
    p.sort colName limit isAsc isShowHeader = q.sort colName limit isAsc isShowHeader := by
  rw [LogParser.sort, LogParser.sort, h.colIdx, h.rowCnt, h.sortedContentByCol, h.rawContent, h.colNameList]

end Alike

/-! ### Header, types and rows -/

/-- A parser with given header, column types and rows that nothing has been sorted in yet. -/
structure Loads (p : LogParser) (header : Row) (types : List DataType) (rows : List Row) : Prop where
  colNameList : p.colNameList = header
  colCnt : p.colCnt = header.length
  rawContent : p.rawContent = rows
  rowCnt : p.rowCnt = rows.length
  dataType : ∀ i, p.colIdx2colDataType.lookup i = types[i]?
  colIdx : ∀ name i, p.colName2colIdx.lookup name = some i ↔ IsLastIndex header name i
  sortedContentByCol : p.sortedContentByCol = []
  metricsDataByCol : p.metricsDataByCol = []

/-- A parser with given header, column types and rows after `Parse` has returned true. -/
def Loaded (std : StdSort) (p : LogParser) (header : Row) (types : List DataType) (rows : List Row) : Prop :=
  ∃ p₀, Loads p₀ header types rows ∧ finish std p₀ = .ok (true, p)

theorem Loads.alike {p q : LogParser} {header : Row} {types : List DataType} {rows : List Row}
    (hp : Loads p header types rows) (hq : Loads q header types rows) : Alike p q where
  rawContent := hp.rawContent.trans hq.rawContent.symm
  sortedContentByCol := hp.sortedContentByCol.trans hq.sortedContentByCol.symm
  metricsDataByCol := hp.metricsDataByCol.trans hq.metricsDataByCol.symm
  colCnt := hp.colCnt.trans hq.colCnt.symm
  rowCnt := hp.rowCnt.trans hq.rowCnt.symm
  colNameList := hp.colNameList.trans hq.colNameList.symm
  colIdx name := by
    ext i
    rw [hp.colIdx, hq.colIdx]
  dataType i := by rw [hp.dataType, hq.dataType]

theorem Loaded.alike {std : StdSort} {p q : LogParser} {header : Row} {types : List DataType}
    {rows : List Row} (hp : Loaded std p header types rows) (hq : Loaded std q header types rows) :
    Alike p q := by
  obtain ⟨p₀, hp₀, hfinish⟩ := hp
  obtain ⟨q₀, hq₀, hfinish'⟩ := hq
  exact (hp₀.alike hq₀).finish hfinish hfinish'

/-- Sorting and storing the metrics change nothing else. -/
theorem finish_frame {std : StdSort} {p p' : LogParser} {ok : Bool} (h : finish std p = .ok (ok, p')) :
    ∃ sorted metrics, p' = { p with sortedContentByCol := sorted, metricsDataByCol := metrics } := by
  rw [finish] at h
  obtain ⟨p₁, hsort, h⟩ := bind_eq_ok_iff.mp h
  rw [sortContent] at hsort
  obtain ⟨sorted, -, hsort⟩ := bind_eq_ok_iff.mp hsort
  cases hsort
  obtain ⟨p₂, hmetrics, h⟩ := bind_eq_ok_iff.mp h
  rw [storeMetrics] at hmetrics
  obtain ⟨metrics, -, hmetrics⟩ := bind_eq_ok_iff.mp hmetrics
  cases hmetrics
  cases h
  exact ⟨sorted, metrics, rfl⟩

/-- What `Parse` leaves behind is what was loaded, with its columns sorted and its metrics stored. -/
theorem Loaded.eq_loads {std : StdSort} {p : LogParser} {header : Row} {types : List DataType}
    {rows : List Row} (h : Loaded std p header types rows) :
    ∃ p₀ sorted metrics, Loads p₀ header types rows ∧
      p = { p₀ with sortedContentByCol := sorted, metricsDataByCol := metrics } := by
  obtain ⟨p₀, hp₀, hfinish⟩ := h
  obtain ⟨sorted, metrics, rfl⟩ := finish_frame hfinish
  exact ⟨p₀, sorted, metrics, hp₀, rfl⟩

theorem Loaded.holds {std : StdSort} {p : LogParser} {table : Table}
    (h : Loaded std p table.header table.types table.rows) : Holds p table := by
  obtain ⟨p₀, sorted, metrics, hp₀, rfl⟩ := h.eq_loads
  exact ⟨hp₀.colNameList, hp₀.colCnt, hp₀.rawContent, hp₀.rowCnt, hp₀.dataType, hp₀.colIdx⟩

/-- A parser holds at most one table. -/
theorem Holds.table_eq {p : LogParser} {table table' : Table} (h : Holds p table) (h' : Holds p table') :
    table = table' := by
  have hheader : table.header = table'.header := h.colNameList.symm.trans h'.colNameList
  have hrows : table.rows = table'.rows := h.rawContent.symm.trans h'.rawContent
  have htypes : table.types = table'.types := by
    apply List.ext_getElem?
    intro i
    rw [← h.dataType i, h'.dataType i]
  cases table
  cases table'
  cases hheader
  cases hrows
  cases htypes
  rfl

/-! ### Reading a file sorts nothing -/

/-- A parser that differs from another at most in its rows and columns. -/
def SameButRows (p p' : LogParser) : Prop :=
  ∃ rawContent colCnt colNameList colName2colIdx colIdx2colDataType,
    p' = { p with rawContent, colCnt, colNameList, colName2colIdx, colIdx2colDataType }

theorem SameButRows.refl (p : LogParser) : SameButRows p p := ⟨_, _, _, _, _, rfl⟩

theorem SameButRows.trans {p p' p'' : LogParser} (h : SameButRows p p') (h' : SameButRows p' p'') :
    SameButRows p p'' := by
  obtain ⟨_, _, _, _, _, rfl⟩ := h
  obtain ⟨_, _, _, _, _, rfl⟩ := h'
  exact ⟨_, _, _, _, _, rfl⟩

theorem storeLine_frame (s : LineLoop) (colValList : List Cell) :
    SameButRows s.parser (storeLine s colValList).parser := by
  rw [storeLine]
  split
  · exact .refl _
  · split
    · exact .refl _
    · exact ⟨_, _, _, _, _, rfl⟩

/-- A line changes the rows and columns only. -/
theorem readLine_frame {s s' : LineLoop} {line : Bytes} (h : readLine s line = .ok s') :
    SameButRows s.parser s'.parser := by
  rw [readLine] at h
  split at h
  · cases h
    exact .refl _
  · split at h
    · simp only at h
      split at h
      · cases h
      · cases h
        exact ⟨_, _, _, _, _, rfl⟩
    · split at h
      · simp only at h
        split at h
        · cases h
          exact .refl _
        · cases h
          obtain ⟨names, types, hcolumns⟩ :=
            setColumns_frame s.parser 0 s.parser.colNameList (parseLineContent line)
          refine .trans ?_ (storeLine_frame _ _)
          rw [hcolumns]
          exact ⟨_, _, _, _, _, rfl⟩
      · cases h
        exact storeLine_frame s (parseLineContent line)

theorem readLines_frame {lines : List Bytes} {s s' : LineLoop} (h : readLines s lines = .ok s') :
    SameButRows s.parser s'.parser := by
  induction lines generalizing s with
  | nil =>
      cases h
      exact .refl _
  | cons line lines ih =>
      obtain ⟨s₁, hline, hlines⟩ := bind_eq_ok_iff.mp h
      exact (readLine_frame hline).trans (ih hlines)

/-- What is read of a file that has a table. -/
theorem parseRawContentFromFile_loads {files : Files} {filePath content : Bytes} {table : Table}
    (hopen : files filePath = some content) (htable : Table.ofContent content = some table) :
    ∃ p, (ofFile filePath).parseRawContentFromFile files = (true, p) ∧
      Loads p table.header table.types table.rows := by
  have hread := parseRawContentFromFile_ofFile files filePath content hopen
  rw [htable] at hread
  obtain ⟨hret, hholds⟩ := hread
  refine ⟨((ofFile filePath).parseRawContentFromFile files).2, Prod.ext hret rfl, hholds.colNameList,
    hholds.colCnt, hholds.rawContent, hholds.rowCnt, hholds.dataType, hholds.colIdx, ?_, ?_⟩
  all_goals
    rw [parseRawContentFromFile, show files (ofFile filePath).filePath = some content from hopen] at hret ⊢
    cases hlines : readLines { parser := ofFile filePath } (getlines newline content) with
    | error p => simp [hlines] at hret
    | ok s =>
        simp only [hlines] at hret ⊢
        split at hret
        · cases hret
        · rename_i hrows
          rw [if_neg hrows]
          obtain ⟨_, _, _, _, _, hframe⟩ := readLines_frame hlines
          rw [hframe]
          rfl

end ToyBox.LogParser
