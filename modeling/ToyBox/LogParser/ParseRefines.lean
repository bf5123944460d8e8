import ToyBox.Library.Simulation
import ToyBox.LogParser.ParsePool

/-! `Parse` on the thread pool refines the calls of `Parse` one after the other: whatever the workers do, a call
that returns has left behind the pointers what the sequential call leaves as values. -/

namespace ToyBox.LogParser

open Cxx Checked LogParserMgr Util TransitionSystem

variable {std : StdSort} {files : Files}

/-! ### A map behind its pointers -/

section MapValues

variable {β γ : Type} (f : β → γ)

/-- The keys with the images of their values. -/
def mapValues (l : AList fun _ : Bytes => β) : AList fun _ : Bytes => γ where
  entries := l.entries.map (Sigma.map id fun _ => f)
  nodupKeys := l.nodupKeys.map₂ fun _ => f

theorem entries_mapValues (l : AList fun _ : Bytes => β) :
    (mapValues f l).entries = l.entries.map (Sigma.map id fun _ => f) := rfl

theorem mapValues_insert (l : AList fun _ : Bytes => β) (key : Bytes) (value : β) :
    mapValues f (l.insert key value) = (mapValues f l).insert key (f value) := by
  apply AList.ext
  rw [AList.entries_insert, entries_mapValues, AList.entries_insert, List.map_cons, List.kerase, List.kerase,
    entries_mapValues, List.eraseP_map]
  rfl

theorem mapValues_congr {g : β → γ} {l : AList fun _ : Bytes => β} (h : ∀ entry ∈ l.entries, f entry.2 = g entry.2) :
    mapValues f l = mapValues g l := by
  apply AList.ext
  apply List.map_congr_left
  intro entry hentry
  rw [Sigma.map, h entry hentry]
  rfl

end MapValues

/-! ### The manager behind its pointers -/

/-- The manager with the objects in place of the pointers. -/
def SharedMgr.deref (jobs : List ParseJob) (m : SharedMgr) : LogParserMgr where
  mergedLogParser := m.mergedLogParser
  logFilePathList := m.logFilePathList
  logParserList := m.logParserList.map (objectAt jobs)
  logName2logParser := mapValues (objectAt jobs) m.logName2logParser

def SharedCollected.deref (jobs : List ParseJob) (c : SharedCollected) : Collected where
  logFilePathList := c.logFilePathList
  logParserList := c.logParserList.map (objectAt jobs)
  logName2logParser := mapValues (objectAt jobs) c.logName2logParser
  allRawContent := c.allRawContent

theorem SharedCollected.deref_collect (jobs : List ParseJob) (c : SharedCollected) (filePath : Bytes)
    (logParser : Task) (parseRes : Bool) :
    (c.collect jobs filePath logParser parseRes).deref jobs =
      LogParserMgr.collect (c.deref jobs) filePath (objectAt jobs logParser) parseRes := by
  cases parseRes with
  | false => rfl
  | true => simp [SharedCollected.collect, LogParserMgr.collect, SharedCollected.deref, mapValues_insert]

theorem SharedCollected.deref_collectAll (jobs : List ParseJob) (filePaths : List Bytes) (logParsers : List Task)
    (results : List Bool) (c : SharedCollected) :
    (c.collectAll jobs filePaths logParsers results).deref jobs =
      LogParserMgr.collectAll (c.deref jobs) filePaths (logParsers.map (objectAt jobs)) results := by
  induction filePaths generalizing c logParsers results with
  | nil => cases logParsers <;> rfl
  | cons filePath filePaths ih =>
      cases logParsers with
      | nil => rfl
      | cons logParser logParsers =>
          cases results with
          | nil => rfl
          | cons parseRes results =>
              rw [SharedCollected.collectAll, ih, SharedCollected.deref_collect]
              rfl

/-- Behind the pointers, the end of `Parse` is that of the sequential one. -/
theorem SharedMgr.deref_merge {jobs : List ParseJob} {m : SharedMgr} {m' : LogParserMgr}
    {results : List (Bool × LogParser)} (hresults : m'.logFilePathList.mapM (parseTask std files) = .ok results)
    (hm : m.deref jobs = { m' with logParserList := m'.logParserList ++ results.map Prod.snd }) :
    (m.merge std files jobs (results.map Prod.fst)).map (fun merged => (merged.1, merged.2.deref jobs)) =
      m'.parse std files := by
  have hpaths : m.logFilePathList = m'.logFilePathList := congrArg LogParserMgr.logFilePathList hm
  have hlist : m.logParserList.map (objectAt jobs) = m'.logParserList ++ results.map Prod.snd :=
    congrArg LogParserMgr.logParserList hm
  have hmap : mapValues (objectAt jobs) m.logName2logParser = m'.logName2logParser :=
    congrArg LogParserMgr.logName2logParser hm
  have hmerged : m.mergedLogParser = m'.mergedLogParser := congrArg LogParserMgr.mergedLogParser hm
  have hcollect := SharedCollected.deref_collectAll jobs m.logFilePathList m.logParserList
    (results.map Prod.fst) { logName2logParser := m.logName2logParser }
  rw [hlist, hpaths] at hcollect
  rw [LogParserMgr.parse, hresults, ok_bind, SharedMgr.merge]
  simp only [hpaths, ← hmap, ← hmerged]
  generalize SharedCollected.collectAll _ _ _ _ _ = c at hcollect ⊢
  have hc : LogParserMgr.collectAll { logName2logParser := mapValues (objectAt jobs) m.logName2logParser }
      m'.logFilePathList (m'.logParserList ++ results.map Prod.snd) (results.map Prod.fst) = c.deref jobs := hcollect.symm
  rw [hc]
  cases hparsers : c.logParserList with
  | nil => simp [SharedCollected.deref, hparsers, Except.map, SharedMgr.deref, hmerged]
  | cons first rest =>
      have hlist' : (c.deref jobs).logParserList = objectAt jobs first :: rest.map (objectAt jobs) := by
        rw [SharedCollected.deref, hparsers, List.map_cons]
      have hrows : (c.deref jobs).allRawContent = c.allRawContent := rfl
      simp only [hlist', hrows]
      by_cases hempty : c.allRawContent = []
      · rw [if_pos hempty, if_pos hempty, Except.map, SharedMgr.deref]
        rfl
      · rw [if_neg hempty, if_neg hempty]
        cases (LogParser.ofRows c.allRawContent (objectAt jobs first).colName2colIdx
            (objectAt jobs first).colIdx2colDataType (objectAt jobs first).colNameList).parse std files with
        | error fault => rfl
        | ok merged => simp [ok_bind, Except.map, SharedMgr.deref, hparsers, SharedCollected.deref]

/-! ### One task -/

namespace ParseJob

/-- What is left of a task: its result and the object, once the future is ready. -/
def rest (std : StdSort) (files : Files) (job : ParseJob) : Except Fault (Bool × LogParser) :=
  match job.phase with
  | .readContent => do
      let (ok, p) ← readContent files job.logParser
      if !ok then .ok (false, p)
      else
        let p ← p.sortContent std
        let p ← p.storeMetrics
        .ok (p.rowCnt > 0, p)
  | .sortContent => do
      let p ← job.logParser.sortContent std
      let p ← p.storeMetrics
      .ok (p.rowCnt > 0, p)
  | .storeMetrics => do
      let p ← job.logParser.storeMetrics
      .ok (p.rowCnt > 0, p)
  | .rowCnt => .ok (job.logParser.rowCnt > 0, job.logParser)
  | .ready parseRes => .ok (parseRes, job.logParser)

theorem rest_ofFile (filePath : Bytes) : (ofFile filePath).rest std files = parseTask std files filePath := by
  rw [ofFile, rest, parseTask, LogParser.parse]
  cases readContent files (.ofFile filePath) with
  | error fault => rfl
  | ok result =>
      obtain ⟨ok, p⟩ := result
      cases ok with
      | false => rfl
      | true =>
          simp only [ok_bind, Bool.not_true, Bool.false_eq_true, if_false]
          cases p.sortContent std with
          | error fault => rfl
          | ok p =>
              simp only [ok_bind]
              cases p.storeMetrics with
              | error fault => rfl
              | ok p => simp [ok_bind]

/-- A step of a task leaves what is left of it. -/
theorem rest_step {job job' : ParseJob} (h : job.step std files = .ok job') :
    job'.rest std files = job.rest std files := by
  obtain ⟨logParser, phase⟩ := job
  cases phase with
  | readContent =>
      obtain ⟨⟨ok, p⟩, hread, hjob⟩ := bind_eq_ok_iff.mp h
      cases hjob
      rw [rest.eq_def _ _ ⟨logParser, .readContent⟩]
      simp only [hread, ok_bind]
      cases ok <;> rfl
  | sortContent =>
      obtain ⟨p, hsort, hjob⟩ := bind_eq_ok_iff.mp h
      cases hjob
      rw [rest.eq_def _ _ ⟨logParser, .sortContent⟩]
      simp only [hsort, ok_bind]
      rfl
  | storeMetrics =>
      obtain ⟨p, hstore, hjob⟩ := bind_eq_ok_iff.mp h
      cases hjob
      rw [rest.eq_def _ _ ⟨logParser, .storeMetrics⟩]
      simp only [hstore, ok_bind]
      rfl
  | rowCnt =>
      cases h
      rfl
  | ready parseRes =>
      cases h
      rfl

/-- A task that faults would fault alone. -/
theorem rest_of_fault {job : ParseJob} {fault : Fault} (h : job.step std files = .error fault) :
    job.rest std files = .error fault := by
  obtain ⟨logParser, phase⟩ := job
  cases phase with
  | readContent =>
      rw [step] at h
      rw [rest]
      cases hread : readContent files logParser with
      | error fault' =>
          rw [hread] at h
          cases h
          rfl
      | ok result =>
          rw [hread] at h
          cases h
  | sortContent =>
      rw [step] at h
      rw [rest]
      cases hsort : logParser.sortContent std with
      | error fault' =>
          rw [hsort] at h
          cases h
          rfl
      | ok p =>
          rw [hsort] at h
          cases h
  | storeMetrics =>
      rw [step] at h
      rw [rest]
      cases hstore : logParser.storeMetrics with
      | error fault' =>
          rw [hstore] at h
          cases h
          rfl
      | ok p =>
          rw [hstore] at h
          cases h
  | rowCnt => cases h
  | ready parseRes => cases h

theorem rest_of_result {job : ParseJob} {parseRes : Bool} (h : job.result? = some parseRes) :
    job.rest std files = .ok (parseRes, job.logParser) := by
  obtain ⟨logParser, phase⟩ := job
  cases phase with
  | ready parseRes' =>
      cases h
      rfl
  | readContent | sortContent | storeMetrics | rowCnt => cases h

end ParseJob

/-! ### One call -/

/-- Every pointer of the manager has its object, and every task has come to its end. -/
structure Settled (jobs : List ParseJob) (m : SharedMgr) : Prop where
  ready : ∀ job ∈ jobs, job.result? ≠ none
  logParserList : ∀ logParser ∈ m.logParserList, logParser < jobs.length
  logName2logParser : ∀ entry ∈ m.logName2logParser.entries, entry.2 < jobs.length

/-- A manager at the start of a call, and the tasks it has enqueued since for the first paths. -/
structure Called (std : StdSort) (files : Files) (m : SharedMgr) (old new : List ParseJob) (filePaths : List Bytes) :
    Prop where
  settled : Settled old m
  rest : List.Forall₂ (fun filePath job => job.rest std files = parseTask std files filePath) filePaths new

/-- The manager once the tasks are enqueued: their parsers are behind the old ones. -/
def SharedMgr.enqueued (m : SharedMgr) (old new : List ParseJob) : SharedMgr :=
  { m with logParserList := m.logParserList ++ List.range' old.length new.length }

theorem objectAt_append_of_lt {old : List ParseJob} {logParser : Task} (h : logParser < old.length)
    (new : List ParseJob) : objectAt (old ++ new) logParser = objectAt old logParser := by
  rw [objectAt, List.getElem?_append_left h, objectAt]

theorem map_objectAt_range' (old new : List ParseJob) :
    (List.range' old.length new.length).map (objectAt (old ++ new)) = new.map ParseJob.logParser := by
  apply List.ext_getElem?
  intro i
  rw [List.getElem?_map, List.getElem?_map]
  rcases Nat.lt_or_ge i new.length with hi | hi
  · rw [List.getElem?_range' hi, Option.map_some, Nat.one_mul, objectAt,
      List.getElem?_append_right (Nat.le_add_right _ _), Nat.add_sub_cancel_left, List.getElem?_eq_getElem hi]
    rfl
  · rw [List.getElem?_eq_none_iff.mpr (by simpa using hi), List.getElem?_eq_none_iff.mpr hi]
    rfl

/-- The manager after the tasks are enqueued, behind its pointers. -/
theorem Settled.deref_enqueued {old : List ParseJob} {m : SharedMgr} (h : Settled old m) (new : List ParseJob) :
    (m.enqueued old new).deref (old ++ new) =
      { m.deref old with logParserList := (m.deref old).logParserList ++ new.map ParseJob.logParser } := by
  have hlist : m.logParserList.map (objectAt (old ++ new)) = m.logParserList.map (objectAt old) :=
    List.map_congr_left fun logParser hmem => objectAt_append_of_lt (h.logParserList logParser hmem) new
  have hmap : mapValues (objectAt (old ++ new)) m.logName2logParser = mapValues (objectAt old) m.logName2logParser :=
    mapValues_congr _ fun entry hmem => objectAt_append_of_lt (h.logName2logParser entry hmem) new
  rw [SharedMgr.deref, SharedMgr.enqueued, SharedMgr.deref]
  simp only [List.map_append, hlist, hmap, map_objectAt_range']

/-- The tasks of a call give what the sequential ones give, once they are all ready. -/
theorem Called.mapM_eq {m : SharedMgr} {old new : List ParseJob} {filePaths : List Bytes}
    (h : Called std files m old new filePaths) {results : List Bool}
    (hresults : new.map ParseJob.result? = results.map some) :
    filePaths.mapM (parseTask std files) = .ok (results.zip (new.map ParseJob.logParser)) := by
  rw [mapM_eq_ok_iff]
  have hrest := h.rest
  clear h
  induction hrest generalizing results with
  | nil =>
      cases results with
      | nil => exact .nil
      | cons => cases hresults
  | cons hjob _ ih =>
      cases results with
      | nil => cases hresults
      | cons parseRes results =>
          rw [List.map_cons, List.map_cons, List.cons.injEq] at hresults
          exact .cons (hjob ▸ ParseJob.rest_of_result hresults.1) (ih hresults.2)

/-- One task that faults makes the sequential call fault. -/
theorem Called.exists_fault {m : SharedMgr} {old new : List ParseJob} {filePaths : List Bytes}
    (h : Called std files m old new filePaths) {i : Nat} {job : ParseJob} {fault : Fault}
    (hjob : new[i]? = some job) (hfault : job.step std files = .error fault) :
    ∃ filePath ∈ filePaths, parseTask std files filePath = .error fault := by
  obtain ⟨filePath, hmem, hrest⟩ := exists_of_mem_right h.rest (List.mem_of_getElem? hjob)
  exact ⟨filePath, hmem, hrest ▸ ParseJob.rest_of_fault hfault⟩

/-- How far a call has come. -/
inductive Stage (std : StdSort) (files : Files) (jobs : List ParseJob) (mgr : SharedMgr) (m : LogParserMgr) :
    Caller → Prop
  | idle (hsettled : Settled jobs mgr) (hm : mgr.deref jobs = m) : Stage std files jobs mgr m .idle
  | enqueue {m₀ : SharedMgr} {old new : List ParseJob} {filePaths done : List Bytes}
      (hcalled : Called std files m₀ old new done) (hm : m₀.deref old = m)
      (hpaths : m₀.logFilePathList = done ++ filePaths) (hjobs : jobs = old ++ new)
      (hmgr : mgr = m₀.enqueued old new) :
      Stage std files jobs mgr m (.enqueue filePaths (List.range' old.length new.length))
  | notify {m₀ : SharedMgr} {old new : List ParseJob} {filePaths done : List Bytes}
      (hcalled : Called std files m₀ old new done) (hm : m₀.deref old = m)
      (hpaths : m₀.logFilePathList = done ++ filePaths) (hjobs : jobs = old ++ new)
      (hmgr : mgr = m₀.enqueued old new) :
      Stage std files jobs mgr m (.notify filePaths (List.range' old.length new.length))
  | get {m₀ : SharedMgr} {old done pending : List ParseJob} {results : List Bool}
      (hcalled : Called std files m₀ old (done ++ pending) m₀.logFilePathList) (hm : m₀.deref old = m)
      (hresults : done.map ParseJob.result? = results.map some) (hjobs : jobs = old ++ (done ++ pending))
      (hmgr : mgr = m₀.enqueued old (done ++ pending)) :
      Stage std files jobs mgr m (.get (List.range' (old.length + done.length) pending.length) results)

/-- How a state is related to a session of calls one after the other. -/
structure Refines (std : StdSort) (s : ParsePool) (t : Session) : Prop where
  lastCall : s.lastCall = t.lastCall
  stage : s.fault = none → Stage std s.files s.jobs s.mgr t.mgr s.caller
  fault : s.fault ≠ none → ∃ fault, t.mgr.parse std s.files = .error fault

/-! ### The steps of a call -/

section Steps

variable {jobs : List ParseJob} {mgr : SharedMgr} {m : LogParserMgr} {caller : Caller}

theorem forall₂_set {α β : Type} {R : α → β → Prop} {l : List α} {r : List β} (h : List.Forall₂ R l r) {i : Nat}
    {b b' : β} (hb : r[i]? = some b) (hkeep : ∀ a, R a b → R a b') : List.Forall₂ R l (r.set i b') := by
  induction h generalizing i with
  | nil => exact .nil
  | cons hhead htail ih =>
      cases i with
      | zero =>
          cases hb
          exact .cons (hkeep _ hhead) htail
      | succ i => exact .cons hhead (ih (by simpa using hb))

theorem Called.set {m : SharedMgr} {old new : List ParseJob} {filePaths : List Bytes}
    (h : Called std files m old new filePaths) {i : Nat} {job job' : ParseJob} (hjob : new[i]? = some job)
    (hstep : job.step std files = .ok job') : Called std files m old (new.set i job') filePaths where
  settled := h.settled
  rest := forall₂_set h.rest hjob fun _ hrest => (ParseJob.rest_step hstep).trans hrest

/-- A task that has not come to its end is one of those enqueued last. -/
theorem exists_index {ready new : List ParseJob} {task : Task} {job : ParseJob}
    (hready : ∀ job ∈ ready, job.result? ≠ none) (hjob : (ready ++ new)[task]? = some job)
    (hresult : job.result? = none) : ∃ i, task = ready.length + i ∧ new[i]? = some job := by
  rcases Nat.lt_or_ge task ready.length with hlt | hge
  · rw [List.getElem?_append_left hlt] at hjob
    exact absurd hresult (hready job (List.mem_of_getElem? hjob))
  · refine ⟨task - ready.length, (Nat.add_sub_of_le hge).symm, ?_⟩
    rwa [List.getElem?_append_right hge] at hjob

theorem ready_of_map_eq {done : List ParseJob} {results : List Bool}
    (h : done.map ParseJob.result? = results.map some) : ∀ job ∈ done, job.result? ≠ none := by
  intro job hjob hnone
  have hmem : job.result? ∈ results.map some := h ▸ List.mem_map_of_mem hjob
  rw [hnone] at hmem
  obtain ⟨parseRes, -, heq⟩ := List.mem_map.mp hmem
  cases heq

theorem set_append_add (ready new : List ParseJob) (i : Nat) (job : ParseJob) :
    (ready ++ new).set (ready.length + i) job = ready ++ new.set i job := by
  rw [List.set_append_right _ _ (Nat.le_add_right _ _), Nat.add_sub_cancel_left]

theorem SharedMgr.enqueued_set (m : SharedMgr) (old new : List ParseJob) (i : Nat) (job : ParseJob) :
    m.enqueued old (new.set i job) = m.enqueued old new := by
  rw [SharedMgr.enqueued, SharedMgr.enqueued, List.length_set]

/-- A worker moves inside of a task. -/
theorem Stage.job {task : Task} {job job' : ParseJob} (h : Stage std files jobs mgr m caller)
    (hjob : jobs[task]? = some job) (hresult : job.result? = none) (hstep : job.step std files = .ok job') :
    Stage std files (jobs.set task job') mgr m caller := by
  cases h with
  | idle hsettled hm => exact absurd hresult (hsettled.ready job (List.mem_of_getElem? hjob))
  | @enqueue m₀ old new filePaths done hcalled hm hpaths hjobs hmgr =>
      subst hjobs
      obtain ⟨i, rfl, hnew⟩ := exists_index hcalled.settled.ready hjob hresult
      have hlen : (new.set i job').length = new.length := List.length_set
      rw [set_append_add, ← hlen]
      exact .enqueue (hcalled.set hnew hstep) hm hpaths rfl (hmgr.trans (SharedMgr.enqueued_set ..).symm)
  | @notify m₀ old new filePaths done hcalled hm hpaths hjobs hmgr =>
      subst hjobs
      obtain ⟨i, rfl, hnew⟩ := exists_index hcalled.settled.ready hjob hresult
      have hlen : (new.set i job').length = new.length := List.length_set
      rw [set_append_add, ← hlen]
      exact .notify (hcalled.set hnew hstep) hm hpaths rfl (hmgr.trans (SharedMgr.enqueued_set ..).symm)
  | @get m₀ old done pending results hcalled hm hresults hjobs hmgr =>
      subst hjobs
      obtain ⟨j, rfl, hnew⟩ := exists_index hcalled.settled.ready hjob hresult
      obtain ⟨i, rfl, hpending⟩ := exists_index (ready_of_map_eq hresults) hnew hresult
      have hset := hcalled.set hnew hstep
      have hlen : (pending.set i job').length = pending.length := List.length_set
      rw [set_append_add] at hset
      rw [set_append_add, set_append_add, ← hlen]
      refine .get hset hm hresults rfl ?_
      rw [hmgr, ← set_append_add, SharedMgr.enqueued_set]

/-- The paths whose tasks are under way are paths of the manager. -/
theorem Stage.exists_fault {task : Task} {job : ParseJob} {fault : Fault} (h : Stage std files jobs mgr m caller)
    (hjob : jobs[task]? = some job) (hresult : job.result? = none) (hstep : job.step std files = .error fault) :
    ∃ fault, m.parse std files = .error fault := by
  have key : ∃ filePath ∈ m.logFilePathList, parseTask std files filePath = .error fault := by
    cases h with
    | idle hsettled hm => exact absurd hresult (hsettled.ready job (List.mem_of_getElem? hjob))
    | enqueue hcalled hm hpaths hjobs hmgr | notify hcalled hm hpaths hjobs hmgr =>
        subst hjobs hm
        obtain ⟨i, rfl, hnew⟩ := exists_index hcalled.settled.ready hjob hresult
        obtain ⟨filePath, hmem, htask⟩ := hcalled.exists_fault hnew hstep
        refine ⟨filePath, ?_, htask⟩
        rw [SharedMgr.deref, hpaths]
        exact List.mem_append_left _ hmem
    | get hcalled hm hresults hjobs hmgr =>
        subst hjobs hm
        obtain ⟨i, rfl, hnew⟩ := exists_index hcalled.settled.ready hjob hresult
        exact hcalled.exists_fault hnew hstep
  obtain ⟨filePath, hmem, htask⟩ := key
  rw [LogParserMgr.parse]
  cases hmap : m.logFilePathList.mapM (parseTask std files) with
  | error fault' => exact ⟨fault', rfl⟩
  | ok results =>
      obtain ⟨result, -, hok⟩ := exists_of_mem_left (mapM_eq_ok_iff.mp hmap) hmem
      rw [htask] at hok
      cases hok

/-- A future is ready. -/
theorem Stage.advance {future : Task} {futures : List Task} {results : List Bool} {job : ParseJob} {parseRes : Bool}
    (h : Stage std files jobs mgr m (.get (future :: futures) results)) (hjob : jobs[future]? = some job)
    (hresult : job.result? = some parseRes) :
    Stage std files jobs mgr m (.get futures (results ++ [parseRes])) := by
  generalize hfutures : future :: futures = futures' at h
  cases h with
  | @get m₀ old done pending _ hcalled hm hresults hjobs hmgr =>
      cases pending with
      | nil => cases hfutures
      | cons first pending =>
          rw [List.length_cons, List.range'_succ, List.cons.injEq] at hfutures
          obtain ⟨rfl, rfl⟩ := hfutures
          have hfirst : first = job := by
            rw [hjobs, List.getElem?_append_right (Nat.le_add_right _ _), Nat.add_sub_cancel_left,
              List.getElem?_append_right (Nat.le_refl _), Nat.sub_self] at hjob
            exact Option.some.inj hjob
          have hlen : old.length + done.length + 1 = old.length + (done ++ [first]).length := by
            rw [List.length_append, List.length_singleton, Nat.add_assoc]
          rw [List.append_cons] at hcalled hjobs hmgr
          rw [hlen]
          refine .get hcalled hm ?_ hjobs hmgr
          rw [List.map_append, List.map_append, hresults, hfirst, List.map_singleton, hresult]
          rfl

/-- The pointers a merge leaves are pointers it found. -/
theorem SharedCollected.pointers_collectAll {P : Task → Prop} (jobs : List ParseJob) (filePaths : List Bytes)
    {logParsers : List Task} (results : List Bool) {c : SharedCollected} (hlist : ∀ logParser ∈ logParsers, P logParser)
    (hc : ∀ logParser ∈ c.logParserList, P logParser) (hmap : ∀ entry ∈ c.logName2logParser.entries, P entry.2) :
    (∀ logParser ∈ (c.collectAll jobs filePaths logParsers results).logParserList, P logParser) ∧
      ∀ entry ∈ (c.collectAll jobs filePaths logParsers results).logName2logParser.entries, P entry.2 := by
  induction filePaths generalizing c logParsers results with
  | nil => cases logParsers <;> exact ⟨hc, hmap⟩
  | cons filePath filePaths ih =>
      cases logParsers with
      | nil => exact ⟨hc, hmap⟩
      | cons logParser logParsers =>
          cases results with
          | nil => exact ⟨hc, hmap⟩
          | cons parseRes results =>
              have hhead := hlist logParser List.mem_cons_self
              refine ih results (fun logParser hmem => hlist logParser (List.mem_cons_of_mem _ hmem)) ?_ ?_
              · cases parseRes with
                | false => exact hc
                | true =>
                    intro logParser' hmem
                    rcases List.mem_append.mp hmem with hmem | hmem
                    · exact hc logParser' hmem
                    · rwa [List.mem_singleton.mp hmem]
              · cases parseRes with
                | false => exact hmap
                | true =>
                    intro entry hmem
                    rw [SharedCollected.collect, if_pos rfl, AList.entries_insert] at hmem
                    rcases List.mem_cons.mp hmem with rfl | hmem
                    · exact hhead
                    · exact hmap entry ((List.kerase_sublist _ _).subset hmem)

theorem SharedMgr.pointers_merge {P : Task → Prop} {m m' : SharedMgr} {results : List Bool} {ok : Bool}
    (h : m.merge std files jobs results = .ok (ok, m')) (hlist : ∀ logParser ∈ m.logParserList, P logParser)
    (hmap : ∀ entry ∈ m.logName2logParser.entries, P entry.2) :
    (∀ logParser ∈ m'.logParserList, P logParser) ∧ ∀ entry ∈ m'.logName2logParser.entries, P entry.2 := by
  have hcollect := SharedCollected.pointers_collectAll jobs m.logFilePathList results
    (c := { logName2logParser := m.logName2logParser }) hlist (by simp) hmap
  rw [SharedMgr.merge] at h
  generalize SharedCollected.collectAll _ _ _ _ _ = c at h hcollect
  cases hparsers : c.logParserList with
  | nil =>
      simp only [hparsers] at h
      cases h
      exact ⟨by simp, hcollect.2⟩
  | cons first rest =>
      simp only [hparsers] at h
      split at h
      · cases h
        exact ⟨hparsers ▸ hcollect.1, hcollect.2⟩
      · obtain ⟨merged, -, hm⟩ := bind_eq_ok_iff.mp h
        cases hm
        exact ⟨hparsers ▸ hcollect.1, hcollect.2⟩

/-- At the end of the loop over the futures every task is ready. -/
theorem Stage.exists_called {results : List Bool} (h : Stage std files jobs mgr m (.get [] results)) :
    ∃ m₀ old done, Called std files m₀ old done m₀.logFilePathList ∧ m₀.deref old = m ∧
      done.map ParseJob.result? = results.map some ∧ jobs = old ++ done ∧ mgr = m₀.enqueued old done := by
  generalize hcaller : Caller.get [] results = caller at h
  cases h with
  | idle | enqueue | notify => cases hcaller
  | @get m₀ old done pending results' hcalled hm hresults hjobs hmgr =>
      rw [Caller.get.injEq] at hcaller
      obtain ⟨hpending, rfl⟩ := hcaller
      obtain rfl : pending = [] := List.length_eq_zero_iff.mp (List.range'_eq_nil_iff.mp hpending.symm)
      rw [List.append_nil] at hcalled hjobs hmgr
      exact ⟨m₀, old, done, hcalled, hm, hresults, hjobs, hmgr⟩

theorem Stage.ready {results : List Bool} (h : Stage std files jobs mgr m (.get [] results)) :
    ∀ job ∈ jobs, job.result? ≠ none := by
  obtain ⟨m₀, old, done, hcalled, -, hresults, hjobs, -⟩ := h.exists_called
  intro job hjob
  rw [hjobs] at hjob
  rcases List.mem_append.mp hjob with hjob | hjob
  · exact hcalled.settled.ready job hjob
  · exact ready_of_map_eq hresults job hjob

/-- Behind the pointers the merge is the sequential call. -/
theorem Stage.merge {results : List Bool} (h : Stage std files jobs mgr m (.get [] results)) :
    (mgr.merge std files jobs results).map (fun merged => (merged.1, merged.2.deref jobs)) = m.parse std files ∧
      mgr.logFilePathList = m.logFilePathList ∧
      ∀ ok mgr', mgr.merge std files jobs results = .ok (ok, mgr') → Settled jobs mgr' := by
  have hready := h.ready
  obtain ⟨m₀, old, done, hcalled, rfl, hresults, rfl, rfl⟩ := h.exists_called
  have hlen : done.length = results.length := by simpa using congrArg List.length hresults
  have hzip : (m₀.deref old).logFilePathList.mapM (parseTask std files) = _ := hcalled.mapM_eq hresults
  have hfst : (results.zip (done.map ParseJob.logParser)).map Prod.fst = results :=
    List.map_fst_zip (by simp [hlen])
  have hsnd : (results.zip (done.map ParseJob.logParser)).map Prod.snd = done.map ParseJob.logParser :=
    List.map_snd_zip (by simp [hlen])
  refine ⟨?_, rfl, fun ok mgr' hmerge => ?_⟩
  · have hderef := SharedMgr.deref_merge hzip (by
      rw [hsnd]
      exact hcalled.settled.deref_enqueued done)
    rwa [hfst] at hderef
  · have hlt : ∀ logParser ∈ (m₀.enqueued old done).logParserList, logParser < (old ++ done).length := by
      intro logParser hmem
      rw [List.length_append]
      rcases List.mem_append.mp hmem with hmem | hmem
      · exact Nat.lt_add_right _ (hcalled.settled.logParserList logParser hmem)
      · exact (List.mem_range'_1.mp hmem).2
    have hmap : ∀ entry ∈ (m₀.enqueued old done).logName2logParser.entries, entry.2 < (old ++ done).length := by
      intro entry hmem
      rw [List.length_append]
      exact Nat.lt_add_right _ (hcalled.settled.logName2logParser entry hmem)
    obtain ⟨hlist', hmap'⟩ := SharedMgr.pointers_merge hmerge hlt hmap
    exact ⟨hready, hlist', hmap'⟩

end Steps

/-! ### Runs -/

theorem Refines.start (std : StdSort) (threads : Nat) (filePaths : List Bytes) :
    Refines std (parsePool std threads filePaths).start (session std filePaths).start where
  lastCall := rfl
  stage := fun _ => .idle ⟨by simp [parsePool], by simp [parsePool], by simp [parsePool]⟩ rfl
  fault := fun h => absurd rfl h

/-- What a step of the pool is to the session: nothing, or the call under way, when the caller returns. -/
inductive Follows (std : StdSort) (filePaths : List Bytes) (s s' : ParsePool) (t : Session) : Session → Prop
  | stay (hidle : s'.caller = .idle → s.caller = .idle) : Follows std filePaths s s' t t
  | call {t' : Session} (hbusy : s.caller ≠ .idle) (hidle : s'.caller = .idle)
      (hstep : (session std filePaths).step t s.files = some t') :
      Follows std filePaths s s' t t'

theorem Refines.step {s s' : ParsePool} {a : ParsePool.Label} {t : Session} (filePaths : List Bytes)
    (h : Refines std s t) (hstep : s.step std a = some s') :
    ∃ t', Follows std filePaths s s' t t' ∧ Refines std s' t' := by
  obtain ⟨hfault, heffect⟩ := ParsePool.effect_of_step hstep
  have hstage := h.stage hfault
  have stay : ∀ {s'}, (s'.caller = .idle → s.caller = .idle) → Refines std s' t →
      ∃ t', Follows std filePaths s s' t t' ∧ Refines std s' t' :=
    fun hidle hs' => ⟨t, .stay hidle, hs'⟩
  cases heffect with
  | parse files hcaller =>
      rw [hcaller] at hstage
      cases hstage with
      | idle hsettled hm =>
          refine stay (fun hidle => by cases hidle) { h with stage := fun _ => ?_, fault := fun hne => absurd hfault hne }
          have hcalled : Called std files s.mgr s.jobs [] [] := ⟨hsettled, .nil⟩
          have hmgr : s.mgr = s.mgr.enqueued s.jobs [] := by
            rw [SharedMgr.enqueued, List.length_nil, List.range'_zero, List.append_nil]
          exact .enqueue hcalled hm rfl (List.append_nil _).symm hmgr
  | @enqueue filePath filePaths futures pool hcaller hpool =>
      rw [hcaller] at hstage
      cases hstage with
      | @enqueue m₀ old new _ done hcalled hm hpaths hjobs hmgr =>
          have hlen : s.jobs.length = old.length + new.length := by rw [hjobs, List.length_append]
          have hrange : List.range' old.length new.length ++ [s.jobs.length] =
              List.range' old.length (new ++ [ParseJob.ofFile filePath]).length := by
            rw [hlen, List.length_append, List.length_singleton, List.range'_concat, Nat.one_mul]
          have hcalled' : Called std s.files m₀ old (new ++ [.ofFile filePath]) (done ++ [filePath]) :=
            { hcalled with rest := List.rel_append hcalled.rest (.cons (ParseJob.rest_ofFile filePath) .nil) }
          refine stay (fun hidle => by cases hidle) { h with stage := fun _ => ?_, fault := fun hne => absurd hfault hne }
          simp only [hrange]
          refine .notify hcalled' hm ?_ ?_ ?_
          · rw [hpaths, List.append_assoc, List.singleton_append]
          · rw [hjobs, List.append_assoc]
          · rw [hmgr, SharedMgr.enqueued, SharedMgr.enqueued, ← hrange, List.append_assoc]
  | enqueued hcaller =>
      rw [hcaller] at hstage
      cases hstage with
      | @enqueue m₀ old new _ done hcalled hm hpaths hjobs hmgr =>
          rw [List.append_nil] at hpaths
          subst hpaths
          refine stay (fun hidle => by cases hidle) { h with stage := fun _ => ?_, fault := fun hne => absurd hfault hne }
          have hget : Stage std s.files s.jobs s.mgr t.mgr
              (.get (List.range' (old.length + ([] : List ParseJob).length) new.length) []) :=
            .get hcalled hm rfl hjobs hmgr
          exact hget
  | get hcaller hjob hresult =>
      rw [hcaller] at hstage
      exact stay (fun hidle => by cases hidle)
        { h with stage := fun _ => hstage.advance hjob hresult, fault := fun hne => absurd hfault hne }
  | @merge parseResList ok mgr hcaller hmerge =>
      rw [hcaller] at hstage
      obtain ⟨hparse, hpaths, hsettled⟩ := hstage.merge
      rw [hmerge] at hparse
      refine ⟨{ mgr := mgr.deref s.jobs
                lastCall := some { filePaths := t.mgr.logFilePathList, files := s.files, ok } }, ?_, ?_⟩
      · refine .call (by simp [hcaller]) rfl ?_
        simp only [session, ← hparse]
        rfl
      · refine ⟨?_, fun _ => .idle (hsettled ok mgr hmerge) rfl, fun hne => absurd hfault hne⟩
        rw [hpaths]
  | mergeFault hcaller hmerge =>
      rw [hcaller] at hstage
      obtain ⟨hparse, -, -⟩ := hstage.merge
      rw [hmerge] at hparse
      exact stay id { h with stage := fun hnone => by cases hnone
                             fault := fun _ => ⟨_, hparse.symm⟩ }
  | notifyOne hcaller hpool =>
      rw [hcaller] at hstage
      cases hstage with
      | notify hcalled hm hpaths hjobs hmgr =>
          exact stay (fun hidle => by cases hidle)
            { h with stage := fun _ => .enqueue hcalled hm hpaths hjobs hmgr, fault := fun hne => absurd hfault hne }
  | job hidx hjob hresult hjobstep =>
      exact stay id
        { h with stage := fun _ => hstage.job hjob hresult hjobstep, fault := fun hne => absurd hfault hne }
  | jobFault hidx hjob hresult hjobstep =>
      exact stay id { h with stage := fun hnone => by cases hnone
                             fault := fun _ => hstage.exists_fault hjob hresult hjobstep }
  | worker hpool hfinish => exact stay id { h with }
  | wakeUp hpool => exact stay id { h with }

theorem simulates (std : StdSort) (threads : Nat) (filePaths : List Bytes) :
    Simulates (parsePool std threads filePaths) (session std filePaths) (Refines std) where
  start := Refines.start std threads filePaths
  step := by
    intro s a s' t h hstep
    obtain ⟨t', hfollows, h'⟩ := h.step filePaths hstep
    refine ⟨t', ?_, h'⟩
    cases hfollows with
    | stay hidle => exact Or.inl rfl
    | call hbusy hidle hcall => exact Or.inr ⟨s.files, hcall⟩

/-! ### The calls of a run -/

/-- The files of a call of `Parse`. -/
def ParsePool.Label.parsed : ParsePool.Label → Option Files
  | .parse files => some files
  | _ => none

/-- The files of the call that has not returned. -/
def ParsePool.underWay (s : ParsePool) : List Files :=
  match s.caller with
  | .idle => []
  | _ => [s.files]

/-- The call that returns in a step of the pool, and its result. -/
def returned (s : ParsePool) (_ : ParsePool.Label) (s' : ParsePool) : Option ParseCall :=
  match s.caller, s'.caller with
  | .idle, _ => none
  | _, .idle => s'.lastCall
  | _, _ => none

/-- The call that is a step of the session, and its result. -/
def answered (_ : Session) (_ : Files) (t : Session) : Option ParseCall := t.lastCall

theorem underWay_of_busy {s : ParsePool} (h : s.caller ≠ .idle) : s.underWay = [s.files] := by
  unfold ParsePool.underWay
  split
  · exact absurd ‹_› h
  · rfl

theorem underWay_of_idle {s : ParsePool} (h : s.caller = .idle) : s.underWay = [] := by
  rw [ParsePool.underWay, h]

theorem returned_of_idle {s : ParsePool} (h : s.caller = .idle) (a : ParsePool.Label) (s' : ParsePool) :
    returned s a s' = none := by
  unfold returned
  rw [h]

theorem returned_of_busy {s s' : ParsePool} (h : s'.caller ≠ .idle) (a : ParsePool.Label) : returned s a s' = none := by
  unfold returned
  split
  · rfl
  · exact absurd ‹_› h
  · rfl

theorem returned_of_return {s s' : ParsePool} (h : s.caller ≠ .idle) (h' : s'.caller = .idle) (a : ParsePool.Label) :
    returned s a s' = s'.lastCall := by
  unfold returned
  rw [h']
  split
  · exact absurd ‹_› h
  · rfl
  · exact absurd rfl ‹_›

/-- A call is made, is under way and returns, with the files it was made with. -/
theorem underWay_step {s s' : ParsePool} {a : ParsePool.Label} (h : s.step std a = some s') :
    s.underWay ++ a.parsed.toList = (returned s a s').toList.map ParseCall.files ++ s'.underWay := by
  have stay : a.parsed = none → s'.caller ≠ .idle → s.caller ≠ .idle → s'.files = s.files →
      s.underWay ++ a.parsed.toList = (returned s a s').toList.map ParseCall.files ++ s'.underWay := by
    intro hparsed hbusy' hbusy hfiles
    rw [underWay_of_busy hbusy, underWay_of_busy hbusy', returned_of_busy hbusy', hparsed, hfiles]
    rfl
  have same : a.parsed = none → s'.caller = s.caller → s'.files = s.files →
      s.underWay ++ a.parsed.toList = (returned s a s').toList.map ParseCall.files ++ s'.underWay := by
    intro hparsed hcaller hfiles
    by_cases hidle : s.caller = .idle
    · rw [underWay_of_idle hidle, underWay_of_idle (hcaller.trans hidle), returned_of_idle hidle, hparsed]
      rfl
    · exact stay hparsed (hcaller ▸ hidle) hidle hfiles
  cases (ParsePool.effect_of_step h).2 with
  | parse files hcaller =>
      rw [underWay_of_idle hcaller, returned_of_idle hcaller]
      rfl
  | enqueue hcaller hpool => exact stay rfl (by simp) (by simp [hcaller]) rfl
  | enqueued hcaller => exact stay rfl (by simp) (by simp [hcaller]) rfl
  | get hcaller hjob hresult => exact stay rfl (by simp) (by simp [hcaller]) rfl
  | merge hcaller hmerge =>
      have hbusy : s.caller ≠ .idle := by simp [hcaller]
      rw [underWay_of_busy hbusy, returned_of_return hbusy rfl]
      rfl
  | mergeFault hcaller hmerge => exact same rfl rfl rfl
  | notifyOne hcaller hpool => exact stay rfl (by simp) (by simp [hcaller]) rfl
  | job hidx hjob hresult hstep => exact same rfl rfl rfl
  | jobFault hidx hjob hresult hstep => exact same rfl rfl rfl
  | worker hpool hfinish => exact same rfl rfl rfl
  | wakeUp hpool => exact same rfl rfl rfl

/-- The calls that are made in a run are those that return, in order, and at most one that has not. -/
theorem underWay_run {threads : Nat} {filePaths : List Bytes} {s s' : ParsePool} {labels : List ParsePool.Label}
    (h : (parsePool std threads filePaths).run s labels = some s') :
    s.underWay ++ labels.filterMap ParsePool.Label.parsed =
      ((parsePool std threads filePaths).observe returned s labels).map ParseCall.files ++ s'.underWay := by
  induction labels generalizing s with
  | nil =>
      cases h
      exact List.append_nil _
  | cons a labels ih =>
      obtain ⟨s₁, hfirst, hrest⟩ := run_cons.mp h
      have hone : s.underWay ++ a.parsed.toList = _ := underWay_step hfirst
      have hsplit : (a :: labels).filterMap ParsePool.Label.parsed =
          a.parsed.toList ++ labels.filterMap ParsePool.Label.parsed := by
        rw [List.filterMap_cons]
        cases a.parsed <;> rfl
      rw [observe_cons hfirst, List.map_append, List.append_assoc, ← ih hrest, ← List.append_assoc, ← hone, hsplit,
        List.append_assoc]

/-- The calls of a session have its labels for their files. -/
theorem files_of_session {filePaths : List Bytes} {t t' : Session} {calls : List Files}
    (h : (session std filePaths).run t calls = some t') :
    ((session std filePaths).observe answered t calls).map ParseCall.files = calls := by
  induction calls generalizing t with
  | nil => rfl
  | cons files calls ih =>
      obtain ⟨t₁, hfirst, hrest⟩ := run_cons.mp h
      have hlast : (answered t files t₁).toList.map ParseCall.files = [files] := by
        simp only [session] at hfirst
        split at hfirst <;> cases hfirst
        rfl
      rw [observe_cons hfirst, List.map_append, ih hrest, hlast]
      rfl

/-- A call returns in the pool where it is a step of the session, with the same result. -/
theorem Follows.observed {filePaths : List Bytes} {s s' : ParsePool} {a : ParsePool.Label} {t t' : Session}
    (h : Follows std filePaths s s' t t') (hrefines : Refines std s' t') :
    (returned s a s' = none ∧ t' = t) ∨
      ((session std filePaths).step t s.files = some t' ∧ answered t s.files t' = returned s a s') := by
  cases h with
  | stay hidle =>
      refine .inl ⟨?_, rfl⟩
      by_cases hidle' : s'.caller = .idle
      · exact returned_of_idle (hidle hidle') a s'
      · exact returned_of_busy hidle' a
  | call hbusy hidle hstep => exact .inr ⟨hstep, hrefines.lastCall.symm.trans (returned_of_return hbusy hidle a).symm⟩

/-- Whatever the workers do, the calls of `Parse` that have returned do what the same calls do one after the other:
each returns what it returns there, the manager behind its pointers is the one they leave, and where the pool has
faulted, the sequential call faults as well. All calls that were made have returned but the one that is under way. -/
theorem parsePool_refines_session (std : StdSort) (threads : Nat) (filePaths : List Bytes)
    {labels : List ParsePool.Label} {s : ParsePool}
    (hrun : (parsePool std threads filePaths).run (parsePool std threads filePaths).start labels = some s) :
    ∃ calls t, labels.filterMap ParsePool.Label.parsed = calls ++ s.underWay ∧
      (session std filePaths).run (session std filePaths).start calls = some t ∧
      (parsePool std threads filePaths).observe returned (parsePool std threads filePaths).start labels =
        (session std filePaths).observe answered (session std filePaths).start calls ∧
      s.lastCall = t.lastCall ∧
      (s.caller = .idle → s.fault = none → s.mgr.deref s.jobs = t.mgr) ∧
      (s.fault ≠ none → ∃ fault, t.mgr.parse std s.files = .error fault) := by
  have hstep : ∀ s a s' t, Refines std s t → (parsePool std threads filePaths).step s a = some s' →
      (returned s a s' = none ∧ Refines std s' t) ∨ ∃ files t', (session std filePaths).step t files = some t' ∧
        answered t files t' = returned s a s' ∧ Refines std s' t' := by
    intro s a s' t h hstep
    obtain ⟨t', hfollows, h'⟩ := h.step filePaths hstep
    rcases hfollows.observed (a := a) h' with ⟨hnone, rfl⟩ | ⟨hcall, hsame⟩
    · exact .inl ⟨hnone, h'⟩
    · exact .inr ⟨s.files, t', hcall, hsame, h'⟩
  obtain ⟨calls, t, ht, hobserve, h⟩ := exists_run_of_observed hstep (Refines.start std threads filePaths) hrun
  have hmade : [] ++ labels.filterMap ParsePool.Label.parsed = _ := underWay_run hrun
  rw [List.nil_append, ← hobserve, files_of_session ht] at hmade
  refine ⟨calls, t, hmade, ht, hobserve.symm, h.lastCall, fun hidle hfault => ?_, h.fault⟩
  have hstage := h.stage hfault
  rw [hidle] at hstage
  cases hstage with
  | idle hsettled hm => exact hm

/-- Two workers parse a file each, one inside of the other. -/
def twoWorkers : List ParsePool.Label :=
  [.caller, .worker 0, .notifyOne none, .caller, .worker 1, .notifyOne none, .caller, .worker 1, .worker 0,
    .worker 1, .worker 0, .worker 1, .worker 1, .worker 1, .worker 0, .worker 0, .worker 0, .caller, .caller, .caller]

/-- Two calls on them, between which the number in the files changes. -/
def twoCalls : List ParsePool.Label :=
  .parse (oneNumber (ascii "1")) :: twoWorkers ++
    .parse (oneNumber (ascii "2")) :: .worker 0 :: .worker 1 :: twoWorkers

theorem parsePool_refines_session_twoWorkers :
    ∃ s, (parsePool .insertion 2 [ascii "a", ascii "b"]).run (parsePool .insertion 2 [ascii "a", ascii "b"]).start
        twoCalls = some s ∧
      ∃ t, (session .insertion [ascii "a", ascii "b"]).run (session .insertion [ascii "a", ascii "b"]).start
        [oneNumber (ascii "1"), oneNumber (ascii "2")] = some t ∧ s.mgr.deref s.jobs = t.mgr ∧
          s.lastCall = t.lastCall := by
  have hrun : ∃ s, (parsePool .insertion 2 [ascii "a", ascii "b"]).run
      (parsePool .insertion 2 [ascii "a", ascii "b"]).start twoCalls = some s ∧ s.caller = .idle ∧ s.fault = none :=
    ⟨_, rfl, rfl, rfl⟩
  obtain ⟨s, hrun, hidle, hfault⟩ := hrun
  obtain ⟨calls, t, hcalls, ht, -, hlast, hmgr, -⟩ :=
    parsePool_refines_session .insertion 2 [ascii "a", ascii "b"] hrun
  rw [underWay_of_idle hidle, List.append_nil] at hcalls
  subst hcalls
  exact ⟨s, hrun, t, ht, hmgr hidle hfault, hlast⟩

end ToyBox.LogParser
