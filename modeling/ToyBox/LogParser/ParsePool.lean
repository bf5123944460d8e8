import ToyBox.LogParser.Reparse
import ToyBox.Util.ThreadPool

/-! `LogParserMgr::Parse` on the thread pool. The thread that calls `Parse` makes a `LogParser` for each file,
hands the pool a task that shares it, waits for the futures and then merges; the workers run the tasks at the
same time, each method called inside of a task being one step. A `shared_ptr<LogParser>` is the number of the
task it was captured by. The files do not change during a call. -/

namespace ToyBox.LogParser

open Cxx LogParserMgr Util

/-- What a task does next: a call inside of its `Parse`, the test of `row_cnt()`, or nothing any more, with its
future ready. -/
inductive Phase
  | readContent
  | sortContent
  | storeMetrics
  | rowCnt
  | ready (parseRes : Bool)
  deriving DecidableEq, Repr

/-- The task enqueued for a file, and the object it shares with the manager. -/
structure ParseJob where
  logParser : LogParser
  phase : Phase := .readContent

namespace ParseJob

/-- The task of a file, not begun. -/
def ofFile (filePath : Bytes) : ParseJob := { logParser := .ofFile filePath }

/-- The value of the future. -/
def result? (job : ParseJob) : Option Bool :=
  match job.phase with
  | .ready parseRes => some parseRes
  | _ => none

/-- The lambda given to `Enqueue`, one call of it. -/
def step (std : StdSort) (files : Files) (job : ParseJob) : Except Fault ParseJob :=
  match job.phase with
  | .readContent => do
      let (ok, logParser) ← readContent files job.logParser
      .ok { logParser, phase := if ok then .sortContent else .ready false }
  | .sortContent => do
      let logParser ← job.logParser.sortContent std
      .ok { logParser, phase := .storeMetrics }
  | .storeMetrics => do
      let logParser ← job.logParser.storeMetrics
      .ok { logParser, phase := .rowCnt }
  | .rowCnt => .ok { job with phase := .ready (job.logParser.rowCnt > 0) }
  | .ready _ => .ok job

end ParseJob

/-- A manager whose parsers are shared pointers. -/
structure SharedMgr where
  mergedLogParser : Option LogParser := none
  logFilePathList : List Bytes
  logParserList : List Task := []
  logName2logParser : AList (fun _ : Bytes => Task) := ∅

/-- What the loop over the results has collected. -/
structure SharedCollected where
  logFilePathList : List Bytes := []
  logParserList : List Task := []
  logName2logParser : AList (fun _ : Bytes => Task)
  allRawContent : List Row := []

/-- The object behind a pointer. The manager has no pointer without one. -/
def objectAt (jobs : List ParseJob) (logParser : Task) : LogParser :=
  (jobs[logParser]?.map ParseJob.logParser).getD (.ofFile [])

/-- One iteration of that loop. -/
def SharedCollected.collect (jobs : List ParseJob) (c : SharedCollected) (filePath : Bytes) (logParser : Task)
    (parseRes : Bool) : SharedCollected :=
  if parseRes then
    { logFilePathList := c.logFilePathList ++ [filePath]
      logParserList := c.logParserList ++ [logParser]
      logName2logParser := c.logName2logParser.insert filePath logParser
      allRawContent := c.allRawContent ++ (objectAt jobs logParser).rawContent }
  else c

/-- The loop over the file list. -/
def SharedCollected.collectAll (jobs : List ParseJob) (c : SharedCollected) :
    List Bytes → List Task → List Bool → SharedCollected
  | filePath :: filePaths, logParser :: logParsers, parseRes :: results =>
      (c.collect jobs filePath logParser parseRes).collectAll jobs filePaths logParsers results
  | _, _, _ => c

/-- `Parse` from the loop over the results on. -/
def SharedMgr.merge (std : StdSort) (files : Files) (jobs : List ParseJob) (m : SharedMgr) (results : List Bool) :
    Except Fault (Bool × SharedMgr) :=
  let c := SharedCollected.collectAll jobs { logName2logParser := m.logName2logParser }
    m.logFilePathList m.logParserList results
  let m := { m with
    logFilePathList := c.logFilePathList
    logParserList := c.logParserList
    logName2logParser := c.logName2logParser }
  match c.logParserList with
  | [] => .ok (false, m)
  | first :: _ =>
      if c.allRawContent = [] then .ok (false, m)
      else do
        let firstParser := objectAt jobs first
        let merged := LogParser.ofRows c.allRawContent firstParser.colName2colIdx
          firstParser.colIdx2colDataType firstParser.colNameList
        let (ok, merged) ← merged.parse std files
        .ok (ok, { m with mergedLogParser := some merged })

/-- Where the thread is that calls `Parse`. -/
inductive Caller
  | idle
  /-- Before the next file of the first loop. -/
  | enqueue (filePaths : List Bytes) (futures : List Task)
  /-- In `Enqueue`, out of the mutex and before `notify_one`. -/
  | notify (filePaths : List Bytes) (futures : List Task)
  /-- In the loop over the futures, or at its end. -/
  | get (futures : List Task) (parseResList : List Bool)
  deriving Repr

/-- A manager, its pool, the tasks ever enqueued and the thread that calls the manager. -/
structure ParsePool where
  pool : ThreadPool
  mgr : SharedMgr
  jobs : List ParseJob := []
  caller : Caller := .idle
  /-- The files during the call under way. -/
  files : Files := fun _ => none
  lastCall : Option ParseCall := none
  /-- An access out of range, after which there is no step. -/
  fault : Option Fault := none

namespace ParsePool

inductive Label
  /-- `Parse` is called. -/
  | parse (files : Files)
  /-- The thread that called `Parse` moves. -/
  | caller
  | notifyOne (idx : Option Nat)
  | worker (idx : Nat)
  /-- A worker wakes up without a notification. -/
  | wakeUp (idx : Nat)

/-- A step of the caller, in the loop over the files, in that over the futures, and behind both. -/
def callerStep (std : StdSort) (s : ParsePool) : Option ParsePool :=
  match s.caller with
  | .enqueue (filePath :: filePaths) futures =>
      (s.pool.step .enqueue).map fun pool =>
        { s with
          pool
          jobs := s.jobs ++ [.ofFile filePath]
          mgr := { s.mgr with logParserList := s.mgr.logParserList ++ [s.jobs.length] }
          caller := .notify filePaths (futures ++ [s.jobs.length]) }
  | .enqueue [] futures => some { s with caller := .get futures [] }
  | .get (future :: futures) parseResList =>
      (s.jobs[future]?.bind ParseJob.result?).map fun parseRes =>
        { s with caller := .get futures (parseResList ++ [parseRes]) }
  | .get [] parseResList =>
      match s.mgr.merge std s.files s.jobs parseResList with
      | .error fault => some { s with fault := some fault }
      | .ok (ok, mgr) =>
          some { s with
            mgr
            caller := .idle
            lastCall := some { filePaths := s.mgr.logFilePathList, files := s.files, ok } }
  | .idle | .notify .. => none

/-- A step of a worker: inside of a task that has not come to its end, or one of the pool's own. -/
def workerStep (std : StdSort) (s : ParsePool) (idx : Nat) : Option ParsePool :=
  match s.pool.workers[idx]? with
  | some (.running task) =>
      match s.jobs[task]? with
      | none => none
      | some job =>
          if job.result? = none then
            match job.step std s.files with
            | .error fault => some { s with fault := some fault }
            | .ok job' => some { s with jobs := s.jobs.set task job' }
          else (s.pool.step (.worker idx)).map fun pool => { s with pool }
  | _ => (s.pool.step (.worker idx)).map fun pool => { s with pool }

def step (std : StdSort) (s : ParsePool) (a : Label) : Option ParsePool :=
  if s.fault = none then
    match a with
    | .parse files =>
        match s.caller with
        | .idle => some { s with caller := .enqueue s.mgr.logFilePathList [], files }
        | _ => none
    | .caller => s.callerStep std
    | .notifyOne idx =>
        match s.caller with
        | .notify filePaths futures =>
            (s.pool.step (.notifyOne idx)).map fun pool => { s with pool, caller := .enqueue filePaths futures }
        | _ => none
    | .worker idx => s.workerStep std idx
    | .wakeUp idx => (s.pool.step (.wakeUp idx)).map fun pool => { s with pool }
  else none

/-- The steps. -/
inductive Effect (std : StdSort) (s : ParsePool) : Label → ParsePool → Prop
  | parse (files : Files) (hcaller : s.caller = .idle) :
      Effect std s (.parse files) { s with caller := .enqueue s.mgr.logFilePathList [], files }
  | enqueue {filePath : Bytes} {filePaths : List Bytes} {futures : List Task} {pool : ThreadPool}
      (hcaller : s.caller = .enqueue (filePath :: filePaths) futures) (hpool : s.pool.step .enqueue = some pool) :
      Effect std s .caller { s with
        pool
        jobs := s.jobs ++ [.ofFile filePath]
        mgr := { s.mgr with logParserList := s.mgr.logParserList ++ [s.jobs.length] }
        caller := .notify filePaths (futures ++ [s.jobs.length]) }
  | enqueued {futures : List Task} (hcaller : s.caller = .enqueue [] futures) :
      Effect std s .caller { s with caller := .get futures [] }
  | get {future : Task} {futures : List Task} {parseResList : List Bool} {job : ParseJob} {parseRes : Bool}
      (hcaller : s.caller = .get (future :: futures) parseResList) (hjob : s.jobs[future]? = some job)
      (hresult : job.result? = some parseRes) :
      Effect std s .caller { s with caller := .get futures (parseResList ++ [parseRes]) }
  | merge {parseResList : List Bool} {ok : Bool} {mgr : SharedMgr} (hcaller : s.caller = .get [] parseResList)
      (hmerge : s.mgr.merge std s.files s.jobs parseResList = .ok (ok, mgr)) :
      Effect std s .caller { s with
        mgr
        caller := .idle
        lastCall := some { filePaths := s.mgr.logFilePathList, files := s.files, ok } }
  | mergeFault {parseResList : List Bool} {fault : Fault} (hcaller : s.caller = .get [] parseResList)
      (hmerge : s.mgr.merge std s.files s.jobs parseResList = .error fault) :
      Effect std s .caller { s with fault := some fault }
  | notifyOne {idx : Option Nat} {filePaths : List Bytes} {futures : List Task} {pool : ThreadPool}
      (hcaller : s.caller = .notify filePaths futures) (hpool : s.pool.step (.notifyOne idx) = some pool) :
      Effect std s (.notifyOne idx) { s with pool, caller := .enqueue filePaths futures }
  | job {idx : Nat} {task : Task} {job job' : ParseJob} (hidx : s.pool.workers[idx]? = some (.running task))
      (hjob : s.jobs[task]? = some job) (hresult : job.result? = none) (hstep : job.step std s.files = .ok job') :
      Effect std s (.worker idx) { s with jobs := s.jobs.set task job' }
  | jobFault {idx : Nat} {task : Task} {job : ParseJob} {fault : Fault}
      (hidx : s.pool.workers[idx]? = some (.running task)) (hjob : s.jobs[task]? = some job)
      (hresult : job.result? = none) (hstep : job.step std s.files = .error fault) :
      Effect std s (.worker idx) { s with fault := some fault }
  | worker {idx : Nat} {pool : ThreadPool} (hpool : s.pool.step (.worker idx) = some pool)
      (hfinish : ∀ task, s.pool.workers[idx]? = some (.running task) →
        ∃ job parseRes, s.jobs[task]? = some job ∧ job.result? = some parseRes) :
      Effect std s (.worker idx) { s with pool }
  | wakeUp {idx : Nat} {pool : ThreadPool} (hpool : s.pool.step (.wakeUp idx) = some pool) :
      Effect std s (.wakeUp idx) { s with pool }

theorem effect_of_callerStep {std : StdSort} {s s' : ParsePool} (h : s.callerStep std = some s') :
    Effect std s .caller s' := by
  rw [callerStep.eq_def] at h
  split at h
  case h_1 hcaller =>
    obtain ⟨pool, hpool, rfl⟩ := Option.map_eq_some_iff.mp h
    exact .enqueue hcaller hpool
  case h_2 hcaller =>
    cases h
    exact .enqueued hcaller
  case h_3 hcaller =>
    obtain ⟨parseRes, hready, rfl⟩ := Option.map_eq_some_iff.mp h
    obtain ⟨job, hjob, hresult⟩ := Option.bind_eq_some_iff.mp hready
    exact .get hcaller hjob hresult
  case h_4 hcaller =>
    split at h
    · cases h
      exact .mergeFault hcaller ‹_›
    · cases h
      exact .merge hcaller ‹_›
  case h_5 => cases h
  case h_6 => cases h

theorem effect_of_workerStep {std : StdSort} {s s' : ParsePool} {idx : Nat}
    (h : s.workerStep std idx = some s') : Effect std s (.worker idx) s' := by
  rw [workerStep.eq_def] at h
  split at h
  case h_1 task hidx =>
    split at h
    · cases h
    case h_2 job hjob =>
      split at h
      case isTrue hresult =>
        split at h
        · cases h
          exact .jobFault hidx hjob hresult ‹_›
        · cases h
          exact .job hidx hjob hresult ‹_›
      case isFalse hresult =>
        obtain ⟨pool, hpool, rfl⟩ := Option.map_eq_some_iff.mp h
        obtain ⟨parseRes, hready⟩ := Option.ne_none_iff_exists'.mp hresult
        refine .worker hpool fun task' hidx' => ?_
        cases hidx.symm.trans hidx'
        exact ⟨job, parseRes, hjob, hready⟩
  case h_2 hidx =>
    obtain ⟨pool, hpool, rfl⟩ := Option.map_eq_some_iff.mp h
    exact .worker hpool fun task hidx' => absurd hidx' (hidx task)

theorem effect_of_step {std : StdSort} {s s' : ParsePool} {a : Label} (h : s.step std a = some s') :
    s.fault = none ∧ Effect std s a s' := by
  rw [step.eq_def] at h
  split at h
  case isFalse => cases h
  case isTrue hfault =>
    refine ⟨hfault, ?_⟩
    cases a with
    | parse files =>
        simp only at h
        split at h
        · cases h
          exact .parse files ‹_›
        · cases h
    | caller => exact effect_of_callerStep h
    | notifyOne idx =>
        simp only at h
        split at h
        · obtain ⟨pool, hpool, rfl⟩ := Option.map_eq_some_iff.mp h
          exact .notifyOne ‹_› hpool
        · cases h
    | worker idx => exact effect_of_workerStep h
    | wakeUp idx =>
        obtain ⟨pool, hpool, rfl⟩ := Option.map_eq_some_iff.mp h
        exact .wakeUp hpool

end ParsePool

/-- A manager for some paths with a pool of some threads, under all interleavings. -/
def parsePool (std : StdSort) (threads : Nat) (filePaths : List Bytes) :
    TransitionSystem ParsePool ParsePool.Label where
  start := { pool := .make threads, mgr := { logFilePathList := filePaths } }
  step := ParsePool.step std

end ToyBox.LogParser
