import ToyBox.LogParser.LogParser

/-! The class `LogParserMgr`: `Parse` runs one `LogParser` per file on the thread pool, waits for all
of them, and merges the rows of those that succeeded into one more `LogParser`. The tasks share no
state, so their results are those of running them one after the other. -/

namespace ToyBox

open Cxx LogParser

structure LogParserMgr where
  mergedLogParser : Option LogParser := none
  logFilePathList : List Bytes
  logParserList : List LogParser := []
  logName2logParser : AList (fun _ : Bytes => LogParser) := ∅

namespace LogParserMgr

/-- `LogParserMgr(parse_thread_cnt, log_file_path_list)`. -/
def ofPaths (logFilePathList : List Bytes) : LogParserMgr := { logFilePathList }

/-- The task enqueued for one file: its result, and the object the shared pointer holds afterwards. -/
def parseTask (std : StdSort) (files : Files) (filePath : Bytes) :
    Except Fault (Bool × LogParser) := do
  let (ok, p) ← (LogParser.ofFile filePath).parse std files
  .ok (ok && p.rowCnt > 0, p)

/-- What the loop over the results has collected. -/
structure Collected where
  logFilePathList : List Bytes := []
  logParserList : List LogParser := []
  logName2logParser : AList (fun _ : Bytes => LogParser)
  allRawContent : List Row := []

/-- One iteration of that loop. -/
def collect (c : Collected) (filePath : Bytes) (logParser : LogParser) (parseRes : Bool) : Collected :=
  if parseRes then
    { logFilePathList := c.logFilePathList ++ [filePath]
      logParserList := c.logParserList ++ [logParser]
      logName2logParser := c.logName2logParser.insert filePath logParser
      allRawContent := c.allRawContent ++ logParser.rawContent }
  else c

/-- The loop over the file list: file `i` is paired with `log_parser_list_[i]` and result `i`. -/
def collectAll (c : Collected) : List Bytes → List LogParser → List Bool → Collected
  | filePath :: filePaths, logParser :: logParsers, parseRes :: results =>
      collectAll (collect c filePath logParser parseRes) filePaths logParsers results
  | _, _, _ => c

/-- `Parse`. -/
def parse (std : StdSort) (files : Files) (m : LogParserMgr) : Except Fault (Bool × LogParserMgr) := do
  let results ← m.logFilePathList.mapM (parseTask std files)
  let logParserList := m.logParserList ++ results.map Prod.snd
  let c := collectAll { logName2logParser := m.logName2logParser }
    m.logFilePathList logParserList (results.map Prod.fst)
  let m := { m with
    logFilePathList := c.logFilePathList
    logParserList := c.logParserList
    logName2logParser := c.logName2logParser }
  match c.logParserList with
  | [] => .ok (false, m)
  | firstParser :: _ =>
      if c.allRawContent = [] then .ok (false, m)
      else do
        let merged := LogParser.ofRows c.allRawContent firstParser.colName2colIdx
          firstParser.colIdx2colDataType firstParser.colNameList
        let (ok, merged) ← merged.parse std files
        .ok (ok, { m with mergedLogParser := some merged })

/-- A query of a manager: `CalculateAllFiles`, `SortAllFiles`, `CalculateSingleFile` and
`SortSingleFile`. -/
inductive Query where
  | calculateAllFiles (colName metricName : Bytes)
  | sortAllFiles (colName : Bytes) (limit : Int) (isAsc isShowHeader : Bool)
  | calculateSingleFile (filePath colName metricName : Bytes)
  | sortSingleFile (filePath colName : Bytes) (limit : Int) (isAsc isShowHeader : Bool)

/-- What a query stores in its result. -/
inductive Answer where
  | value (result : Bytes)
  | rows (result : List Row)
  deriving DecidableEq, Repr

/-- The parser a query is passed on to, if any. -/
def target (m : LogParserMgr) : Query → Option LogParser
  | .calculateAllFiles .. | .sortAllFiles .. => m.mergedLogParser
  | .calculateSingleFile filePath .. | .sortSingleFile filePath .. =>
      m.logName2logParser.lookup filePath

/-- The call of `LogParser` a query makes. -/
def Query.call (q : Query) (p : LogParser) : Except Fault (Option Answer) :=
  match q with
  | .calculateAllFiles colName metricName | .calculateSingleFile _ colName metricName => do
      .ok ((← p.calculate colName metricName).map .value)
  | .sortAllFiles colName limit isAsc isShowHeader
  | .sortSingleFile _ colName limit isAsc isShowHeader => do
      .ok ((← p.sort colName limit isAsc isShowHeader).map .rows)

/-- A query: its answer, or `none` for `return false`. -/
def query (m : LogParserMgr) (q : Query) : Except Fault (Option Answer) :=
  match m.target q with
  | none => .ok none
  | some p => q.call p

/-- A public call. -/
inductive Call where
  | parse
  | query (q : Query)

/-- The manager after a call. Queries leave it as it is. -/
def call (std : StdSort) (files : Files) (m : LogParserMgr) : Call → Except Fault LogParserMgr
  | .parse => do .ok (← m.parse std files).2
  | .query q => do
      let _ ← m.query q
      .ok m

end LogParserMgr

end ToyBox
