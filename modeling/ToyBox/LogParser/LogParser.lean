import Mathlib.Data.List.AList
import ToyBox.Cxx.Sort
import ToyBox.LogParser.Cell

/-! The class `LogParser`: parsing one log file or a list of rows, sorting the rows by each column,
storing the metrics of each column, and the two queries. Every vector access is checked; an access
past the end, which is undefined behaviour in C++, is a `Fault`. A method that returns `bool` gives
the flag together with the object it leaves behind. -/

namespace ToyBox

open Cxx

namespace LogParser

/-- The vector and the index of an access out of range. -/
inductive Fault where
  /-- `raw_content_[row]` -/
  | rawContent (row : Nat)
  /-- `raw_content_[..][col]` -/
  | cell (col : Nat)
  /-- `sorted_content_by_col_[col]` -/
  | sortedContent (col : Nat)
  /-- `sorted_content_by_col_[..][idx]` -/
  | sortedColumn (idx : Nat)
  /-- `metrics_data_by_col_[col]` -/
  | metricsData (col : Nat)
  deriving DecidableEq, Repr

/-- `vec[idx]`. -/
def subscript {α : Type} (vec : List α) (idx : Nat) (fault : Nat → Fault) : Except Fault α :=
  match vec[idx]? with
  | some value => .ok value
  | none => .error (fault idx)

theorem subscript_getElem? {α : Type} {vec : List α} {idx : Nat} {value : α} (fault : Nat → Fault)
    (h : vec[idx]? = some value) : subscript vec idx fault = .ok value := by
  rw [subscript, h]

theorem subscript_of_lt {α : Type} {vec : List α} {idx : Nat} (fault : Nat → Fault)
    (h : idx < vec.length) : subscript vec idx fault = .ok vec[idx] :=
  subscript_getElem? fault (List.getElem?_eq_getElem h)

/-- An access succeeds exactly in range. -/
theorem subscript_eq_error_iff {α : Type} {vec : List α} {idx : Nat} {fault : Nat → Fault}
    {e : Fault} : subscript vec idx fault = .error e ↔ vec.length ≤ idx ∧ e = fault idx := by
  rw [subscript, ← List.getElem?_eq_none_iff]
  cases vec[idx]? with
  | none => simp [eq_comm]
  | some value => simp

/-- The files that can be opened, with their contents. -/
abbrev Files := Bytes → Option Bytes

end LogParser

open LogParser in
structure LogParser where
  rawContent : List Row := []
  sortedContentByCol : List (List Nat) := []
  metricsDataByCol : List (AList fun _ : Metrics => Bytes) := []
  isFromFile : Bool
  filePath : Bytes := []
  colCnt : Nat := 0
  rowCnt : Nat := 0
  colNameList : List Bytes := []
  colName2colIdx : AList (fun _ : Bytes => Nat) := ∅
  /-- `operator[]` on a missing column would insert the value 0, which is no `DataType`; a lookup
  that gives `none` stands for it. -/
  colIdx2colDataType : AList (fun _ : Nat => DataType) := ∅

namespace LogParser

/-- `LogParser(log_file_path)`. -/
def ofFile (logFilePath : Bytes) : LogParser := { isFromFile := true, filePath := logFilePath }

/-- `LogParser(raw_content, ...)`: the rows are cleared when the columns are not consistent. -/
def ofRows (rawContent : List Row) (colName2colIdx : AList fun _ : Bytes => Nat)
    (colIdx2colDataType : AList fun _ : Nat => DataType) (colNameList : List Bytes) : LogParser :=
  let colCnt := colNameList.length
  { rawContent :=
      if colCnt ≠ colName2colIdx.entries.length ∨ colCnt ≠ colIdx2colDataType.entries.length then []
      else rawContent
    isFromFile := false
    colCnt, colNameList, colName2colIdx, colIdx2colDataType }

/-! ### Reading a file -/

/-- The local variables of `ParseRawContentFromFile`'s loop, with the object it fills. The counters
are `int32_t`; the model counts without a bound. -/
structure LineLoop where
  parser : LogParser
  validLineCnt : Nat := 0
  emptyLineCnt : Nat := 0
  mismatchColCnt : Nat := 0
  mismatchDataTypeCnt : Nat := 0

/-- `for (i = 0; i < col_cnt_; ++i)` of the type line, from column `i` on: column `i` is named
`colNameList[i]` and gets the type of `colValList[i]`. The two lists have `col_cnt_` entries. -/
def setColumns (p : LogParser) : Nat → List Bytes → List Cell → LogParser
  | i, colName :: colNames, colVal :: colVals =>
      setColumns
        { p with
          colName2colIdx := p.colName2colIdx.insert colName i
          colIdx2colDataType := p.colIdx2colDataType.insert i (parseColumnDataType colVal) }
        (i + 1) colNames colVals
  | _, _, _ => p

/-- Whether some cell, from column `i` on, differs in type from its column. -/
def isMismatchDataType (p : LogParser) : Nat → List Cell → Bool
  | _, [] => false
  | i, colVal :: colVals =>
      if some (parseColumnDataType colVal) ≠ p.colIdx2colDataType.lookup i then true
      else isMismatchDataType p (i + 1) colVals

/-- The part of the loop body that stores a row of values. -/
def storeLine (s : LineLoop) (colValList : List Cell) : LineLoop :=
  if colValList.length ≠ s.parser.colCnt then { s with mismatchColCnt := s.mismatchColCnt + 1 }
  else if isMismatchDataType s.parser 0 colValList then
    { s with mismatchDataTypeCnt := s.mismatchDataTypeCnt + 1 }
  else
    { s with
      validLineCnt := s.validLineCnt + 1
      parser := { s.parser with rawContent := s.parser.rawContent ++ [colValList] } }

/-- One iteration of the loop; the error is the object left by `return false`. -/
def readLine (s : LineLoop) (lineBuff : Bytes) : Except LogParser LineLoop :=
  if lineBuff = [] then .ok { s with emptyLineCnt := s.emptyLineCnt + 1 }
  else if s.validLineCnt = 0 then
    -- the first line gives the column names
    let colNameList := s.parser.colNameList ++ parseLineContent lineBuff
    let p : LogParser := { s.parser with colNameList, colCnt := colNameList.length }
    if p.colCnt = 0 then .error p
    else .ok { s with parser := p, validLineCnt := s.validLineCnt + 1 }
  else if s.validLineCnt = 1 then
    -- the second one gives the column types, and is then stored as a row
    let colValList := parseLineContent lineBuff
    if colValList.length ≠ s.parser.colCnt then .ok { s with mismatchColCnt := s.mismatchColCnt + 1 }
    else
      let p := setColumns s.parser 0 s.parser.colNameList colValList
      .ok (storeLine { s with parser := p } (parseLineContent lineBuff))
  else .ok (storeLine s (parseLineContent lineBuff))

def readLines (s : LineLoop) : List Bytes → Except LogParser LineLoop
  | [] => .ok s
  | lineBuff :: lines => do readLines (← readLine s lineBuff) lines

/-- `ParseRawContentFromFile`. -/
def parseRawContentFromFile (files : Files) (p : LogParser) : Bool × LogParser :=
  match files p.filePath with
  | none => (false, p)
  | some content =>
      match readLines { parser := p } (getlines newline content) with
      | .error p => (false, p)
      | .ok s =>
          if s.parser.rawContent = [] then (false, s.parser)
          else (true, { s.parser with rowCnt := s.parser.rawContent.length })

/-! ### Filtering a list of rows -/

/-- The loop over the columns of one row in `ParseRawContent`, with its `break`. -/
def isMismatchRow (p : LogParser) (row : Row) : List Nat → Except Fault Bool
  | [] => .ok false
  | colIdx :: colIdxs => do
      let colVal ← subscript row colIdx .cell
      if some (parseColumnDataType colVal) ≠ p.colIdx2colDataType.lookup colIdx then .ok true
      else isMismatchRow p row colIdxs

/-- The loop over the rows: the rows it keeps. -/
def filterRows (p : LogParser) : List Row → Except Fault (List Row)
  | [] => .ok []
  | row :: rows => do
      let mismatch ← isMismatchRow p row (List.range p.colCnt)
      let parsedRawContent ← filterRows p rows
      .ok (if mismatch then parsedRawContent else row :: parsedRawContent)

/-- `ParseRawContent`. -/
def parseRawContent (p : LogParser) : Except Fault (Bool × LogParser) :=
  if p.rawContent = [] then .ok (false, p)
  else do
    let rawContent ← filterRows p p.rawContent
    .ok (true, { p with rawContent, rowCnt := rawContent.length })

/-! ### Sorting and metrics -/

/-- `raw_content_[row_idx][col_idx]` for the rows in turn. -/
def columnCells (p : LogParser) (colIdx : Nat) : Except Fault (List Cell) :=
  (List.range p.rowCnt).mapM fun rowIdx => do
    let row ← subscript p.rawContent rowIdx .rawContent
    subscript row colIdx .cell

/-- The comparator `SortContent` gives to `std::sort` for a column. -/
def columnLess (dataType : DataType) (cells : List Cell) : Nat → Nat → Bool :=
  match dataType with
  | .kInt =>
      let colInt64Data := cells.map convertValueInt
      fun a b => colInt64Data.getD a 0 < colInt64Data.getD b 0
  | .kTelephone | .kTimestamp | .kDate | .kString => fun a b => cells.getD a [] < cells.getD b []
  | .kFloat =>
      let colFloatStrData := cells.map FloatStr.ofRaw
      fun a b => (colFloatStrData.getD a (.ofRaw [])).lt (colFloatStrData.getD b (.ofRaw []))

/-- The row numbers of `SortContent` for one column. -/
def sortColumn (std : StdSort) (p : LogParser) (colIdx : Nat) : Except Fault (List Nat) :=
  let colData := List.range p.rowCnt
  match p.colIdx2colDataType.lookup colIdx with
  | none => .ok colData
  | some dataType => do
      let cells ← columnCells p colIdx
      .ok (std.sort (columnLess dataType cells) colData)

/-- `SortContent`; it returns true. -/
def sortContent (std : StdSort) (p : LogParser) : Except Fault LogParser := do
  let sortedContentByCol ← (List.range p.colCnt).mapM (sortColumn std p)
  .ok { p with sortedContentByCol }

/-- The cell of one column in the row that is number `idx` in the sorted order. -/
def sortedCell (p : LogParser) (colIdx idx : Nat) : Except Fault Cell := do
  let sortedColumn ← subscript p.sortedContentByCol colIdx .sortedContent
  let rowIdx ← subscript sortedColumn idx .sortedColumn
  let row ← subscript p.rawContent rowIdx .rawContent
  subscript row colIdx .cell

/-- `std::accumulate(first, last, 0)` over `int64_t` values: the literal makes the accumulator an
`int`. -/
def accumulateInt (vals : List Int) : Int := vals.foldl (fun sum val => toInt32 (sum + val)) 0

/-- `std::accumulate(first, last, 0.0)` over `float` values, stored in a `float`. -/
def accumulateFloat (vals : List Float32) : Float32 :=
  toFloat (vals.foldl (fun sum val => sum + toDouble val) 0)

/-- The sum and the mean of the numeric columns. -/
def sumAndMean (dataType : Option DataType) (cells : List Cell) (rowCnt : Nat) :
    Option (Bytes × Bytes) :=
  match dataType with
  | some .kInt =>
      let sum := accumulateInt (cells.map convertValueInt)
      some (toStringInt sum, toStringDouble (intToDouble sum * 1 / sizeToDouble rowCnt))
  | some .kFloat =>
      let sum := accumulateFloat (cells.map convertValueFloat)
      some (toStringFloat sum, toStringFloat (sum / sizeToFloat rowCnt))
  | _ => none

/-- The cells `StoreMetrics` converts: those of a numeric column. -/
def numericCells (p : LogParser) (colIdx : Nat) : Except Fault (List Cell) :=
  match p.colIdx2colDataType.lookup colIdx with
  | some .kInt | some .kFloat => columnCells p colIdx
  | _ => .ok []

/-- The metrics of one column, stored over what the column had. -/
def columnMetrics (p : LogParser) (colIdx : Nat) : Except Fault (AList fun _ : Metrics => Bytes) := do
  let metrics2value := p.metricsDataByCol[colIdx]?.getD ∅
  let minCell ← sortedCell p colIdx 0
  let maxCell ← sortedCell p colIdx (p.rowCnt - 1)
  let medianCell ← sortedCell p colIdx (p.rowCnt / 2)
  let metrics2value :=
    ((metrics2value.insert .kMin minCell).insert .kMax maxCell).insert .kMedian medianCell
  let dataType := p.colIdx2colDataType.lookup colIdx
  let cells ← numericCells p colIdx
  match sumAndMean dataType cells p.rowCnt with
  | some (sum, mean) => .ok ((metrics2value.insert .kSum sum).insert .kMean mean)
  | none => .ok metrics2value

/-- `StoreMetrics`; it returns true. -/
def storeMetrics (p : LogParser) : Except Fault LogParser := do
  let metricsDataByCol ← (List.range p.colCnt).mapM (columnMetrics p)
  .ok { p with metricsDataByCol }

/-! ### The public methods -/

/-- The choice `Parse` makes between the two ways of getting rows. -/
def readContent (files : Files) (p : LogParser) : Except Fault (Bool × LogParser) :=
  if p.isFromFile then .ok (p.parseRawContentFromFile files) else p.parseRawContent

/-- `Parse`. -/
def parse (std : StdSort) (files : Files) (p : LogParser) : Except Fault (Bool × LogParser) := do
  let (ok, p) ← readContent files p
  if !ok then .ok (false, p)
  else
    let p ← p.sortContent std
    let p ← p.storeMetrics
    .ok (true, p)

/-- `Calculate`: the result, or `none` for `return false`. -/
def calculate (p : LogParser) (colName metricName : Bytes) : Except Fault (Option Bytes) :=
  match p.colName2colIdx.lookup colName with
  | none => .ok none
  | some colIdx =>
      match kMetricsMap metricName with
      | none => .ok none
      | some metric => do
          let metrics2value ← subscript p.metricsDataByCol colIdx .metricsData
          .ok (metrics2value.lookup metric)

/-- `Sort`: the result, or `none` for `return false`. The limit is converted to `size_t`. -/
def sort (p : LogParser) (colName : Bytes) (limit : Int) (isAsc isShowHeader : Bool) :
    Except Fault (Option (List Row)) :=
  match p.colName2colIdx.lookup colName with
  | none => .ok none
  | some colIdx => do
      let actualLimit := min (limit % 2 ^ 64).toNat p.rowCnt
      let rows ← (List.range actualLimit).mapM fun rowIdx => do
        let sortedColumn ← subscript p.sortedContentByCol colIdx .sortedContent
        let row ← subscript sortedColumn (if isAsc then rowIdx else p.rowCnt - 1 - rowIdx) .sortedColumn
        subscript p.rawContent row .rawContent
      .ok (some (if isShowHeader then p.colNameList :: rows else rows))

end LogParser

end ToyBox
