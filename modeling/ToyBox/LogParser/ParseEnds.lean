import ToyBox.LogParser.ParseRefines
import ToyBox.Util.Drain

/-! `Parse` on the thread pool comes to its end: with a worker in the pool the call under way can always go on,
and it has only so many steps but for the wake-ups without a notification. No two threads use a parser at the
same time. -/

namespace ToyBox.LogParser

open Cxx Util TransitionSystem

variable {std : StdSort} {threads : Nat} {filePaths : List Bytes}

namespace ParsePool

/-! ### The pool of a manager -/

/-- The notification that the caller still has to send. -/
def pending : Caller → Nat
  | .notify .. => 1
  | _ => 0

/-- What the pool has to do with the tasks of the manager. -/
structure Fed (threads : Nat) (s : ParsePool) : Prop where
  pool : (threadPool threads).Reachable s.pool
  destructor : s.pool.destructor = .notCalled
  isStop : s.pool.isStop = false
  calls : s.pool.calls = s.jobs.length
  entered : s.pool.entered = List.range s.jobs.length
  finished : ∀ task ∈ s.pool.finished, ∃ job parseRes, s.jobs[task]? = some job ∧ job.result? = some parseRes
  notifies : s.pool.notifies = pending s.caller

theorem fed_start (std : StdSort) (threads : Nat) (filePaths : List Bytes) :
    Fed threads (parsePool std threads filePaths).start where
  pool := .start
  destructor := rfl
  isStop := rfl
  calls := rfl
  entered := rfl
  finished := fun _ h => by cases h
  notifies := rfl

theorem Fed.reachable {s : ParsePool} (h : Fed threads s) {a : ThreadPool.Label} {pool : ThreadPool}
    (hpool : s.pool.step a = some pool) : (threadPool threads).Reachable pool :=
  .step h.pool trivial (show (threadPool threads).step s.pool a = some pool from hpool)

/-- A task that has come to its end stays as it is. -/
theorem ready_set {jobs : List ParseJob} {task task' : Task} {job job' job₁ : ParseJob} {parseRes : Bool}
    (hjob : jobs[task]? = some job) (hresult : job.result? = none) (hjob₁ : jobs[task']? = some job₁)
    (hready : job₁.result? = some parseRes) : (jobs.set task job')[task']? = some job₁ := by
  rw [List.getElem?_set_ne]
  · exact hjob₁
  · rintro rfl
    cases hjob.symm.trans hjob₁
    rw [hresult] at hready
    cases hready

theorem Fed.effect {s s' : ParsePool} {a : Label} (h : Fed threads s) (heffect : Effect std s a s') :
    Fed threads s' := by
  cases heffect with
  | parse files hcaller => exact { h with notifies := by rw [h.notifies, hcaller]; rfl }
  | @enqueue filePath filePaths futures pool hcaller hpool =>
      have hlen : (s.jobs ++ [ParseJob.ofFile filePath]).length = s.jobs.length + 1 := by simp
      have hreach := h.reachable hpool
      cases ThreadPool.effect_of_step hpool with
      | accept hstop =>
          refine ⟨hreach, h.destructor, h.isStop, ?_, ?_, fun task htask => ?_, ?_⟩
          · rw [hlen, ← h.calls]
          · rw [hlen, List.range_succ, ← h.entered, ← h.calls]
          · obtain ⟨job, parseRes, hjob, hresult⟩ := h.finished task htask
            exact ⟨job, parseRes, List.getElem?_append_left (List.getElem?_eq_some_iff.mp hjob).1 ▸ hjob, hresult⟩
          · show s.pool.notifies + 1 = 1
            rw [h.notifies, hcaller]
            rfl
      | reject hstop =>
          rw [h.isStop] at hstop
          cases hstop
  | enqueued hcaller => exact { h with notifies := by rw [h.notifies, hcaller]; rfl }
  | get hcaller hjob hresult => exact { h with notifies := by rw [h.notifies, hcaller]; rfl }
  | merge hcaller hmerge => exact { h with notifies := by rw [h.notifies, hcaller]; rfl }
  | mergeFault hcaller hmerge => exact { h with }
  | notifyOne hcaller hpool =>
      have hreach := h.reachable hpool
      have hnotifies := h.notifies
      rw [hcaller] at hnotifies
      cases ThreadPool.effect_of_step hpool with
      | notifyNobody hpending hnone =>
          refine { h with pool := hreach, notifies := ?_ }
          rw [hnotifies] at hpending
          exact (Nat.succ.inj hpending).symm
      | notify hpending hidx =>
          refine { h with pool := hreach, notifies := ?_ }
          rw [hnotifies] at hpending
          exact (Nat.succ.inj hpending).symm
  | @job idx task job job' hidx hjob hresult hstep =>
      refine { h with calls := ?_, entered := ?_, finished := fun task' htask' => ?_ }
      · rw [h.calls, List.length_set]
      · rw [h.entered, List.length_set]
      · obtain ⟨job₁, parseRes, hjob₁, hready⟩ := h.finished task' htask'
        exact ⟨job₁, parseRes, ready_set hjob hresult hjob₁ hready, hready⟩
  | jobFault => exact { h with }
  | worker hpool hfinish =>
      have hreach := h.reachable hpool
      cases ThreadPool.effect_of_step hpool with
      | wait hidx hstop htasks => exact { h with pool := hreach }
      | leave hidx hstop htasks =>
          rw [h.isStop] at hstop
          cases hstop
      | pop hidx htasks => exact { h with pool := hreach }
      | begin hidx => exact { h with pool := hreach }
      | @finish idx task hidx =>
          refine { h with pool := hreach, finished := fun task' htask' => ?_ }
          rcases List.mem_append.mp htask' with htask' | htask'
          · exact h.finished task' htask'
          · rw [List.mem_singleton.mp htask']
            exact hfinish task hidx
  | wakeUp hpool =>
      have hreach := h.reachable hpool
      cases ThreadPool.effect_of_step hpool with
      | wakeUp hidx => exact { h with pool := hreach }

theorem fed_of_reachable {s : ParsePool} (hs : (parsePool std threads filePaths).Reachable s) : Fed threads s := by
  apply hs.invariant (P := Fed threads)
  · exact fed_start std threads filePaths
  · intro s a s' _ h _ hstep
    exact h.effect (effect_of_step hstep).2

/-! ### The measure -/

/-- The steps left of a task. -/
def jobLeft (job : ParseJob) : Nat :=
  match job.phase with
  | .readContent => 4
  | .sortContent => 3
  | .storeMetrics => 2
  | .rowCnt => 1
  | .ready _ => 0

/-- The steps left of a worker until it waits, but for those inside of a task. -/
def workerLeft : Worker → Nat
  | .locking => 1
  | .waiting => 0
  | .holding _ => 3
  | .running _ => 2
  | .returned => 0

/-- The steps left of the caller and those it still gives to others. -/
def callerLeft : Caller → Nat
  | .idle => 0
  | .enqueue filePaths futures => 11 * filePaths.length + futures.length + 2
  | .notify filePaths futures => 11 * filePaths.length + futures.length + 2
  | .get futures _ => futures.length + 1

/-- A bound on the steps until the call returns, but for those that wake-ups without a notification cause. -/
def stepsLeft (s : ParsePool) : Nat :=
  callerLeft s.caller + 2 * s.pool.notifies + 3 * s.pool.tasks.length + weight workerLeft s.pool.workers +
    weight jobLeft s.jobs + if s.fault = none then 1 else 0

def Label.isWakeUp : Label → Bool
  | .wakeUp _ => true
  | _ => false

def Label.isParse : Label → Bool
  | .parse _ => true
  | _ => false

theorem jobLeft_step {std : StdSort} {files : Files} {job job' : ParseJob} (hresult : job.result? = none)
    (h : job.step std files = .ok job') : jobLeft job' < jobLeft job := by
  obtain ⟨logParser, phase⟩ := job
  cases phase with
  | readContent =>
      obtain ⟨⟨ok, p⟩, -, hjob⟩ := Checked.bind_eq_ok_iff.mp h
      cases hjob
      cases ok <;> simp [jobLeft]
  | sortContent =>
      obtain ⟨p, -, hjob⟩ := Checked.bind_eq_ok_iff.mp h
      cases hjob
      simp [jobLeft]
  | storeMetrics =>
      obtain ⟨p, -, hjob⟩ := Checked.bind_eq_ok_iff.mp h
      cases hjob
      simp [jobLeft]
  | rowCnt =>
      cases h
      simp [jobLeft]
  | ready parseRes => cases hresult

/-- A step of the pool that a worker takes. -/
theorem stepsLeft_worker {s : ParsePool} {idx : Nat} {pool : ThreadPool}
    (hpool : s.pool.step (.worker idx) = some pool) : stepsLeft { s with pool } < stepsLeft s := by
  cases ThreadPool.effect_of_step hpool with
  | wait hidx _ _ =>
      have hset := weight_set workerLeft hidx .waiting
      simp only [stepsLeft, workerLeft] at hset ⊢
      omega
  | leave hidx _ _ =>
      have hset := weight_set workerLeft hidx .returned
      simp only [stepsLeft, workerLeft] at hset ⊢
      omega
  | @pop idx task tasks hidx htasks =>
      have hset := weight_set workerLeft hidx (.holding task)
      simp only [stepsLeft, workerLeft, htasks, List.length_cons] at hset ⊢
      omega
  | @begin idx task hidx =>
      have hset := weight_set workerLeft hidx (.running task)
      simp only [stepsLeft, workerLeft] at hset ⊢
      omega
  | @finish idx task hidx =>
      have hset := weight_set workerLeft hidx .locking
      simp only [stepsLeft, workerLeft] at hset ⊢
      omega

/-- Every step lowers the measure, but a call and a wake-up without a notification. -/
theorem stepsLeft_step {s s' : ParsePool} {a : Label} (hs : Fed threads s) (hstep : s.step std a = some s')
    (hparse : a.isParse = false) (hwake : a.isWakeUp = false) : stepsLeft s' < stepsLeft s := by
  obtain ⟨hfault, heffect⟩ := effect_of_step hstep
  cases heffect with
  | parse files hcaller => cases hparse
  | wakeUp hpool => cases hwake
  | enqueue hcaller hpool =>
      cases ThreadPool.effect_of_step hpool with
      | accept hstop =>
          simp only [stepsLeft, hcaller, callerLeft, List.length_append, List.length_nil, List.length_cons,
            weight_append, weight_cons, weight_nil, ParseJob.ofFile, jobLeft]
          omega
      | reject hstop =>
          rw [hs.isStop] at hstop
          cases hstop
  | enqueued hcaller =>
      simp only [stepsLeft, hcaller, callerLeft, List.length_nil]
      omega
  | get hcaller hjob hresult =>
      simp only [stepsLeft, hcaller, callerLeft, List.length_cons]
      omega
  | merge hcaller hmerge =>
      simp only [stepsLeft, hcaller, callerLeft]
      omega
  | mergeFault hcaller hmerge =>
      simp only [stepsLeft, hfault, if_true, reduceCtorEq, if_false]
      omega
  | notifyOne hcaller hpool =>
      cases ThreadPool.effect_of_step hpool with
      | notifyNobody hpending hnone =>
          simp only [stepsLeft, hcaller, callerLeft, hpending]
          omega
      | notify hpending hidx =>
          have hset := weight_set workerLeft hidx .locking
          simp only [stepsLeft, workerLeft, hcaller, callerLeft, hpending] at hset ⊢
          omega
  | @job idx task job job' hidx hjob hresult hjobstep =>
      have hset := weight_set jobLeft hjob job'
      have hless := jobLeft_step hresult hjobstep
      simp only [stepsLeft]
      omega
  | jobFault hidx hjob hresult hjobstep =>
      simp only [stepsLeft, hfault, if_true, reduceCtorEq, if_false]
      omega
  | worker hpool hfinish => exact stepsLeft_worker hpool

theorem stepsLeft_wakeUp {s s' : ParsePool} {a : Label} (hstep : s.step std a = some s') (hwake : a.isWakeUp = true) :
    stepsLeft s' ≤ stepsLeft s + 1 := by
  obtain ⟨-, heffect⟩ := effect_of_step hstep
  cases heffect with
  | wakeUp hpool =>
      cases ThreadPool.effect_of_step hpool with
      | wakeUp hidx =>
          have hset := weight_set workerLeft hidx .locking
          simp only [stepsLeft, workerLeft] at hset ⊢
          omega
  | parse | enqueue | enqueued | get | merge | mergeFault | notifyOne | job | jobFault | worker => cases hwake

/-! ### No step missing -/

theorem exists_poolStep {s : ThreadPool} {idx : Nat} {w : Worker} (hidx : s.workers[idx]? = some w)
    (hawake : w.IsAwake) : ∃ pool, s.step (.worker idx) = some pool := by
  simp only [ThreadPool.step, ThreadPool.workerStep, hidx]
  cases w with
  | locking | holding task | running task => exact ⟨_, rfl⟩
  | waiting => exact absurd rfl hawake.1
  | returned => exact absurd rfl hawake.2

section Progress

variable (hthreads : 0 < threads) {s : ParsePool} (hs : Fed threads s)
include hthreads hs

/-- The tasks that workers run have objects. -/
theorem lt_length_of_running {idx : Nat} {task : Task} (hidx : s.pool.workers[idx]? = some (.running task)) :
    task < s.jobs.length := by
  obtain ⟨hledger, -, -⟩ := reachable_invariants hthreads hs.pool
  have hhand : task ∈ s.pool.inHands :=
    List.mem_filterMap.mpr ⟨_, List.mem_of_getElem? hidx, rfl⟩
  have hpopped : task ∈ s.pool.popped := hledger.popped_perm.subset (List.mem_append_left _ hhand)
  have hentered : task ∈ s.pool.entered := hledger.fifo ▸ List.mem_append_left _ hpopped
  rw [hs.entered] at hentered
  exact List.mem_range.mp hentered

/-- A worker that is awake can move. -/
theorem exists_workerStep (std : StdSort) (hfault : s.fault = none) {idx : Nat} {w : Worker}
    (hidx : s.pool.workers[idx]? = some w) (hawake : w.IsAwake) : ∃ s', s.step std (.worker idx) = some s' := by
  obtain ⟨pool, hpool⟩ := exists_poolStep hidx hawake
  rw [step.eq_def, if_pos hfault]
  show ∃ s', s.workerStep std idx = some s'
  rw [workerStep.eq_def, hpool]
  split
  case h_1 task hrunning =>
    have hlt := lt_length_of_running hthreads hs hrunning
    rw [List.getElem?_eq_getElem hlt]
    simp only
    split
    · split
      · exact ⟨_, rfl⟩
      · exact ⟨_, rfl⟩
    · exact ⟨_, rfl⟩
  case h_2 => exact ⟨_, rfl⟩

/-- While a future is not ready, some worker is awake. -/
theorem exists_awake {future : Task} {job : ParseJob} (hpending : pending s.caller = 0)
    (hjob : s.jobs[future]? = some job) (hresult : job.result? = none) :
    ∃ (idx : Nat) (w : Worker), s.pool.workers[idx]? = some w ∧ w.IsAwake := by
  obtain ⟨-, hattended, -⟩ := reachable_invariants hthreads hs.pool
  have hpool := threadPool_invariant hthreads hs.pool
  have haccepted : future ∈ s.pool.accepted := by
    rw [← hpool.accepted, hs.entered]
    exact List.mem_range.mpr (List.getElem?_eq_some_iff.mp hjob).1
  have awake_of_mem : ∀ w ∈ s.pool.workers, w.IsAwake →
      ∃ (idx : Nat) (w : Worker), s.pool.workers[idx]? = some w ∧ w.IsAwake := by
    intro w hw hawake
    obtain ⟨idx, hidx⟩ := List.getElem?_of_mem hw
    exact ⟨idx, w, hidx, hawake⟩
  rcases List.mem_append.mp (hpool.onePlace.symm.subset haccepted) with htasks | hplace
  · rcases hattended.awake (List.ne_nil_of_mem htasks) with ⟨w, hw, hawake⟩ | hnotifies | hdestructor
    · exact awake_of_mem w hw hawake
    · rw [hs.notifies, hpending] at hnotifies
      exact absurd hnotifies (Nat.lt_irrefl 0)
    · rw [hs.destructor] at hdestructor
      cases hdestructor
  · rcases List.mem_append.mp hplace with hhand | hfinished
    · obtain ⟨w, hw, hin⟩ := List.mem_filterMap.mp hhand
      refine awake_of_mem w hw ⟨?_, ?_⟩
      · rintro rfl
        cases hin
      · rintro rfl
        cases hin
    · obtain ⟨job', parseRes, hjob', hready⟩ := hs.finished future hfinished
      cases hjob.symm.trans hjob'
      rw [hresult] at hready
      cases hready

/-- The call under way can go on. -/
theorem exists_step (std : StdSort) (hfault : s.fault = none) (hcaller : s.caller ≠ .idle)
    (hfuture : ∀ future futures results, s.caller = .get (future :: futures) results → future < s.jobs.length) :
    ∃ a s', a.isParse = false ∧ a.isWakeUp = false ∧ s.step std a = some s' := by
  cases hc : s.caller with
  | idle => exact absurd hc hcaller
  | enqueue filePaths futures =>
      refine ⟨.caller, ?_⟩
      simp only [step.eq_def, hfault, if_true, callerStep.eq_def, hc, ThreadPool.step_enqueue]
      cases filePaths with
      | nil => exact ⟨_, rfl, rfl, rfl⟩
      | cons filePath filePaths => exact ⟨_, rfl, rfl, rfl⟩
  | notify filePaths futures =>
      have hnotifies : s.pool.notifies = 1 := by
        rw [hs.notifies, hc]
        rfl
      by_cases hwaiting : .waiting ∈ s.pool.workers
      · obtain ⟨idx, hidx⟩ := List.getElem?_of_mem hwaiting
        refine ⟨.notifyOne (some idx), ?_⟩
        simp only [step.eq_def, hfault, if_true, hc, ThreadPool.step, ThreadPool.notifyOne.eq_def, hnotifies, hidx]
        exact ⟨_, rfl, rfl, rfl⟩
      · refine ⟨.notifyOne none, ?_⟩
        simp only [step.eq_def, hfault, if_true, hc, ThreadPool.step, ThreadPool.notifyOne.eq_def, hnotifies,
          if_neg hwaiting]
        exact ⟨_, rfl, rfl, rfl⟩
  | get futures results =>
      cases futures with
      | nil =>
          refine ⟨.caller, ?_⟩
          simp only [step.eq_def, hfault, if_true, callerStep.eq_def, hc]
          cases s.mgr.merge std s.files s.jobs results with
          | error fault => exact ⟨_, rfl, rfl, rfl⟩
          | ok merged => exact ⟨_, rfl, rfl, rfl⟩
      | cons future futures =>
          have hlt := hfuture future futures results hc
          have hjob := List.getElem?_eq_getElem hlt
          cases hresult : s.jobs[future].result? with
          | some parseRes =>
              refine ⟨.caller, ?_⟩
              simp only [step.eq_def, hfault, if_true, callerStep.eq_def, hc, hjob, Option.bind_some, hresult]
              exact ⟨_, rfl, rfl, rfl⟩
          | none =>
              have hpending : pending s.caller = 0 := by
                rw [hc]
                rfl
              obtain ⟨idx, w, hidx, hawake⟩ := exists_awake hthreads hs hpending hjob hresult
              obtain ⟨s', hs'⟩ := exists_workerStep hthreads hs std hfault hidx hawake
              exact ⟨.worker idx, s', rfl, rfl, hs'⟩

end Progress

/-! ### One call -/

/-- The state after `Parse` is called. -/
def parsing (s : ParsePool) (files : Files) : ParsePool :=
  { s with caller := .enqueue s.mgr.logFilePathList [], files }

/-- A call of `Parse` beside the call of the sequential manager: under way, perhaps stopped by a fault that the
sequential call has as well, or returned. -/
inductive Beside (std : StdSort) (filePaths : List Bytes) (files : Files) (t : Session) (s : ParsePool) : Prop
  | underWay (hcaller : s.caller ≠ .idle) (hfiles : s.files = files) (h : Refines std s t)
  | returned {t' : Session} (hidle : s.caller = .idle) (hfault : s.fault = none)
      (hcall : (session std filePaths).step t files = some t')
      (h : Refines std s t')

theorem files_step {s s' : ParsePool} {a : Label} (hstep : s.step std a = some s') (hparse : a.isParse = false) :
    s'.files = s.files := by
  obtain ⟨-, heffect⟩ := effect_of_step hstep
  cases heffect with
  | parse files hcaller => cases hparse
  | enqueue | enqueued | get | merge | mergeFault | notifyOne | job | jobFault | worker | wakeUp => rfl

/-- The caller is busy until it returns, and stays idle until it is called. -/
theorem caller_step {s s' : ParsePool} {a : Label} (hstep : s.step std a = some s') (hparse : a.isParse = false)
    (hidle : s.caller = .idle) : s'.caller = .idle := by
  obtain ⟨-, heffect⟩ := effect_of_step hstep
  cases heffect with
  | parse files hcaller => cases hparse
  | enqueue hcaller | enqueued hcaller | get hcaller | merge hcaller | notifyOne hcaller =>
      exact absurd (hidle.symm.trans hcaller) (by simp)
  | mergeFault | job | jobFault | worker | wakeUp => exact hidle

/-- A step that returns is the end of a merge. -/
theorem merge_fault {s s' : ParsePool} {a : Label} (hstep : s.step std a = some s') (hbusy : s.caller ≠ .idle)
    (hidle : s'.caller = .idle) : s'.fault = none := by
  obtain ⟨hfault, heffect⟩ := effect_of_step hstep
  cases heffect with
  | merge => exact hfault
  | parse | enqueue | enqueued | get | notifyOne => cases hidle
  | mergeFault | job | jobFault | worker | wakeUp => exact absurd hidle hbusy

/-- Nothing faults between two calls. -/
theorem fault_step {s s' : ParsePool} {a : Label} (hstep : s.step std a = some s') (hidle : s.caller = .idle)
    (hsettled : Settled s.jobs s.mgr) : s'.fault = none := by
  obtain ⟨hfault, heffect⟩ := effect_of_step hstep
  cases heffect with
  | mergeFault hcaller => exact absurd (hidle.symm.trans hcaller) (by simp)
  | jobFault hidx hjob hresult => exact absurd hresult (hsettled.ready _ (List.mem_of_getElem? hjob))
  | parse | enqueue | enqueued | get | merge | notifyOne | job | worker | wakeUp => exact hfault

theorem settled_of_refines {s : ParsePool} {t : Session} (h : Refines std s t) (hidle : s.caller = .idle)
    (hfault : s.fault = none) : Settled s.jobs s.mgr ∧ s.mgr.deref s.jobs = t.mgr := by
  have hstage := h.stage hfault
  rw [hidle] at hstage
  cases hstage with
  | idle hsettled hm => exact ⟨hsettled, hm⟩

/-- The future the caller waits for is that of a task. -/
theorem future_lt_of_refines {s : ParsePool} {t : Session} (h : Refines std s t) (hfault : s.fault = none)
    {future : Task} {futures : List Task} {results : List Bool} (hcaller : s.caller = .get (future :: futures) results) :
    future < s.jobs.length := by
  have hstage := h.stage hfault
  rw [hcaller] at hstage
  generalize hfutures : future :: futures = futures' at hstage
  cases hstage with
  | @get m₀ old done pending _ hcalled hm hresults hjobs hmgr =>
      have hmem : future ∈ List.range' (old.length + done.length) pending.length := hfutures ▸ List.mem_cons_self
      have hlt := (List.mem_range'_1.mp hmem).2
      rwa [Nat.add_assoc, ← List.length_append, ← List.length_append, ← hjobs] at hlt

theorem Beside.step {files : Files} {t : Session} {s s' : ParsePool} {a : Label}
    (h : Beside std filePaths files t s) (hstep : s.step std a = some s') (hparse : a.isParse = false) :
    Beside std filePaths files t s' := by
  cases h with
  | underWay hcaller hfiles hrefines =>
      obtain ⟨t', hfollows, h'⟩ := hrefines.step filePaths hstep
      cases hfollows with
      | stay hidle =>
          exact .underWay (fun hs' => hcaller (hidle hs')) ((files_step hstep hparse).trans hfiles) h'
      | call hbusy hidle hcall =>
          exact .returned hidle (merge_fault hstep hbusy hidle) (hfiles ▸ hcall) h'
  | returned hidle hfault hcall hrefines =>
      have hidle' := caller_step hstep hparse hidle
      have hfault' := fault_step hstep hidle (settled_of_refines hrefines hidle hfault).1
      obtain ⟨t', hfollows, h'⟩ := hrefines.step filePaths hstep
      cases hfollows with
      | stay _ => exact .returned hidle' hfault' hcall h'
      | call hbusy _ _ => exact absurd hidle hbusy

theorem Beside.run {files : Files} {t : Session} {s s' : ParsePool} {labels : List Label}
    (h : Beside std filePaths files t s) (hlabels : ∀ a ∈ labels, a.isParse = false)
    (hrun : (parsePool std threads filePaths).run s labels = some s') : Beside std filePaths files t s' := by
  induction labels generalizing s with
  | nil =>
      cases hrun
      exact h
  | cons a labels ih =>
      obtain ⟨s₁, hfirst, hrest⟩ := run_cons.mp hrun
      exact ih (h.step hfirst (hlabels a List.mem_cons_self)) (fun a' ha' => hlabels a' (List.mem_cons_of_mem a ha'))
        hrest

end ParsePool

open ParsePool

/-- A call of `Parse` on a pool with a worker, in any interleaving: it has only so many steps, but for the wake-ups
without a notification; until it returns it can go on; and what it returns, and leaves behind the pointers, is what
the sequential call does, which reads out of range if this one does. -/
theorem parsePool_returns (hthreads : 0 < threads) {s s' : ParsePool}
    (hs : (parsePool std threads filePaths).Reachable s) (hidle : s.caller = .idle) (hfault : s.fault = none)
    (files : Files) {labels : List ParsePool.Label} (hlabels : ∀ a ∈ labels, a.isParse = false)
    (hrun : (parsePool std threads filePaths).run (s.parsing files) labels = some s') :
    labels.length ≤ (s.parsing files).stepsLeft + 2 * labels.countP Label.isWakeUp ∧
      (s'.fault = none → s'.caller ≠ .idle →
        ∃ a s'', a.isParse = false ∧ a.isWakeUp = false ∧ s'.step std a = some s'') ∧
      (s'.fault = none → s'.caller = .idle → ∃ ok,
        (s.mgr.deref s.jobs).parse std files = .ok (ok, s'.mgr.deref s'.jobs) ∧
          s'.lastCall = some { filePaths := s.mgr.logFilePathList, files, ok }) ∧
      (s'.fault ≠ none → ∃ fault, (s.mgr.deref s.jobs).parse std files = .error fault) := by
  have hcall : s.step std (.parse files) = some (s.parsing files) := by
    rw [ParsePool.step.eq_def, if_pos hfault, hidle]
    rfl
  have hreach₁ : (parsePool std threads filePaths).Reachable (s.parsing files) :=
    hs.step trivial (show (parsePool std threads filePaths).step s (.parse files) = _ from hcall)
  have hreach' : (parsePool std threads filePaths).Reachable s' := Reachable.run hreach₁ hrun
  obtain ⟨t, -, hrefines⟩ := (simulates std threads filePaths).exists_reachable hs
  obtain ⟨-, hm⟩ := settled_of_refines hrefines hidle hfault
  have hbeside₁ : Beside std filePaths files t (s.parsing files) := by
    obtain ⟨t₁, hfollows, h₁⟩ := hrefines.step filePaths hcall
    cases hfollows with
    | stay _ => exact .underWay (by simp [parsing]) rfl h₁
    | call hbusy _ _ => exact absurd hidle hbusy
  have hbeside := hbeside₁.run hlabels hrun
  refine ⟨?_, fun hfault' hbusy => ?_, fun hfault' hidle' => ?_, fun hfault' => ?_⟩
  · have hbound := length_le_measure (T := parsePool std threads filePaths) (P := Fed threads)
      stepsLeft Label.isWakeUp 1
      (fun s a s' h hstep => h.effect (effect_of_step hstep).2)
      (fun s a s' _ hwake hstep => stepsLeft_wakeUp hstep hwake)
      (fun s a s' h hparse hwake hstep => stepsLeft_step h hstep hparse hwake)
      (fed_of_reachable hreach₁) hlabels hrun
    omega
  · cases hbeside with
    | underWay _ hfiles hrefines' =>
        exact exists_step hthreads (fed_of_reachable hreach') std hfault' hbusy
          fun future futures results hc => future_lt_of_refines hrefines' hfault' hc
    | returned hidle' _ _ _ => exact absurd hidle' hbusy
  · cases hbeside with
    | underWay hbusy _ _ => exact absurd hidle' hbusy
    | returned _ _ hcall' hrefines' =>
        obtain ⟨-, hm'⟩ := settled_of_refines hrefines' hidle' hfault'
        simp only [session] at hcall'
        split at hcall'
        · cases hcall'
        · rename_i ok mgr hparse
          cases hcall'
          rw [hm, hm']
          refine ⟨ok, hparse, ?_⟩
          rw [hrefines'.lastCall, ← hm]
          rfl
  · cases hbeside with
    | underWay _ hfiles hrefines' =>
        rw [hm, ← hfiles]
        exact hrefines'.fault hfault'
    | returned _ hfault'' _ _ => exact absurd hfault'' hfault'

theorem parsePool_returns_twoWorkers :
    ∃ s', (parsePool .insertion 2 [ascii "a", ascii "b"]).run
        ((parsePool .insertion 2 [ascii "a", ascii "b"]).start.parsing (oneNumber (ascii "1"))) twoWorkers = some s' ∧
      ∃ ok, (LogParserMgr.ofPaths [ascii "a", ascii "b"]).parse .insertion (oneNumber (ascii "1")) =
        .ok (ok, s'.mgr.deref s'.jobs) := by
  have hrun : ∃ s', (parsePool .insertion 2 [ascii "a", ascii "b"]).run
      ((parsePool .insertion 2 [ascii "a", ascii "b"]).start.parsing (oneNumber (ascii "1"))) twoWorkers = some s' ∧
      s'.fault = none ∧ s'.caller = .idle := ⟨_, rfl, rfl, rfl⟩
  obtain ⟨s', hrun, hfault, hidle⟩ := hrun
  have hreturns := parsePool_returns (by decide) .start rfl rfl (oneNumber (ascii "1")) (by decide) hrun
  obtain ⟨ok, hparse, -⟩ := hreturns.2.2.1 hfault hidle
  exact ⟨s', hrun, ok, hparse⟩

/-! ### Data races -/

/-- Where the images of two elements are the same, the elements are. -/
theorem idx_eq_of_nodup_filterMap {α β : Type} {f : α → Option β} {l : List α} (h : (l.filterMap f).Nodup) {i j : Nat}
    {a a' : α} {b : β} (hi : l[i]? = some a) (hj : l[j]? = some a') (ha : f a = some b) (ha' : f a' = some b) :
    i = j := by
  induction l generalizing i j with
  | nil => cases hi
  | cons c l ih =>
      have mem_of : ∀ {k : Nat} {a : α}, l[k]? = some a → f a = some b → b ∈ l.filterMap f :=
        fun hk ha => List.mem_filterMap.mpr ⟨_, List.mem_of_getElem? hk, ha⟩
      cases i with
      | zero =>
          cases j with
          | zero => rfl
          | succ j =>
              cases hi
              rw [List.filterMap_cons_some ha, List.nodup_cons] at h
              exact absurd (mem_of (by simpa using hj) ha') h.1
      | succ i =>
          cases j with
          | zero =>
              cases hj
              rw [List.filterMap_cons_some ha', List.nodup_cons] at h
              exact absurd (mem_of (by simpa using hi) ha) h.1
          | succ j =>
              have hrest : (l.filterMap f).Nodup := by
                cases hc : f c with
                | none => rwa [List.filterMap_cons_none hc] at h
                | some d =>
                    rw [List.filterMap_cons_some hc] at h
                    exact (List.nodup_cons.mp h).2
              have heq : i = j := ih hrest (by simpa using hi) (by simpa using hj)
              rw [heq]

/-- A parser that a worker changes is in the hands of this worker alone: no other runs its task, and the caller is
neither merging nor has it returned. -/
theorem parsePool_noRace (hthreads : 0 < threads) {s s' : ParsePool}
    (hs : (parsePool std threads filePaths).Reachable s) {idx : Nat} (hstep : s.step std (.worker idx) = some s')
    {task : Task} (hchange : s'.jobs[task]? ≠ s.jobs[task]?) :
    s.pool.workers[idx]? = some (.running task) ∧
      (∀ idx', s.pool.workers[idx']? = some (.running task) → idx' = idx) ∧ s.caller ≠ .idle ∧
      ∀ results, s.caller ≠ .get [] results := by
  obtain ⟨hfault, heffect⟩ := effect_of_step hstep
  obtain ⟨t, -, hrefines⟩ := (simulates std threads filePaths).exists_reachable hs
  have hstage := hrefines.stage hfault
  cases heffect with
  | @job _ task' job job' hidx hjob hresult hjobstep =>
      obtain rfl : task' = task := by
        by_contra hne
        exact hchange (List.getElem?_set_ne hne)
      obtain ⟨hledger, -, -⟩ := reachable_invariants hthreads (fed_of_reachable hs).pool
      have hruns : s.pool.inRuns.Nodup :=
        (hledger.started_perm.nodup_iff.mpr hledger.nodup_started).of_append_left
      refine ⟨hidx, fun idx' hidx' => ?_, ?_, ?_⟩
      · exact idx_eq_of_nodup_filterMap hruns hidx' hidx rfl rfl
      · intro hidle
        obtain ⟨hsettled, -⟩ := settled_of_refines hrefines hidle hfault
        exact hsettled.ready job (List.mem_of_getElem? hjob) hresult
      · intro results hcaller
        rw [hcaller] at hstage
        exact hstage.ready job (List.mem_of_getElem? hjob) hresult
  | jobFault => exact absurd rfl hchange
  | worker => exact absurd rfl hchange

/-- The first worker is in the task of the first file when the second has not looked at the queue. -/
theorem parsePool_noRace_twoWorkers :
    ∃ s, (parsePool .insertion 2 [ascii "a", ascii "b"]).run (parsePool .insertion 2 [ascii "a", ascii "b"]).start
        [.parse (oneNumber (ascii "1")), .caller, .worker 0, .notifyOne none, .worker 0] = some s ∧
      s.caller ≠ .idle ∧ ∀ idx', s.pool.workers[idx']? = some (.running 0) → idx' = 0 := by
  have hrun : ∃ s s', (parsePool .insertion 2 [ascii "a", ascii "b"]).run
      (parsePool .insertion 2 [ascii "a", ascii "b"]).start
        [.parse (oneNumber (ascii "1")), .caller, .worker 0, .notifyOne none, .worker 0] = some s ∧
      s.step .insertion (.worker 0) = some s' ∧
      (s.jobs[0]?.map ParseJob.phase) = some .readContent ∧ (s'.jobs[0]?.map ParseJob.phase) = some .sortContent :=
    ⟨_, _, rfl, rfl, rfl, rfl⟩
  obtain ⟨s, s', hrun, hstep, hphase, hphase'⟩ := hrun
  have hchange : s'.jobs[0]? ≠ s.jobs[0]? := by
    intro heq
    rw [heq, hphase] at hphase'
    cases hphase'
  obtain ⟨-, halone, hidle, -⟩ := parsePool_noRace (by decide) (reachable_of_run hrun) hstep hchange
  exact ⟨s, hrun, hidle, halone⟩

end ToyBox.LogParser
