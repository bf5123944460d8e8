import ToyBox.Library.TransitionSystem

/-! The thread pool. A section under `queue_mutex_` is one step; a notification is a step of its own, since it
is sent after the mutex is released. Threads that call `Enqueue` have no state but the notification they still
have to send, so that there can be any number of them. -/

namespace ToyBox.Util

/-- The packaged task of one call of `Enqueue`, by the number of the call. -/
abbrev Task := Nat

/-- Where the thread of a worker is. -/
inductive Worker
  /-- It wants the mutex, at the head of the loop or woken up inside of `wait`. -/
  | locking
  /-- Blocked in `wait`. -/
  | waiting
  | holding (task : Task)
  | running (task : Task)
  | returned
  deriving DecidableEq, Repr

namespace Worker

/-- The task a worker has in its hands. -/
def inHand : Worker → Option Task
  | holding task => some task
  | running task => some task
  | _ => none

/-- The task that has begun to run. -/
def inRun : Worker → Option Task
  | running task => some task
  | _ => none

/-- A worker that will come to look at the queue by itself. -/
def IsAwake (w : Worker) : Prop := w ≠ waiting ∧ w ≠ returned

instance : DecidablePred IsAwake := fun _ => inferInstanceAs (Decidable (_ ∧ _))

/-- What a notification does to a worker. -/
def wake : Worker → Worker
  | waiting => locking
  | w => w

end Worker

/-- Where the thread that destroys the pool is. -/
inductive Destructor
  | notCalled
  | notifyAll
  /-- The workers before this one are joined. -/
  | join (idx : Nat)
  | done
  deriving DecidableEq, Repr

/-- The members of the pool, the calls that are under way and what has happened. -/
structure ThreadPool where
  workers : List Worker
  tasks : List Task := []
  isStop : Bool := false
  /-- Calls of `Enqueue` that have left the mutex and not yet called `notify_one`. -/
  notifies : Nat := 0
  destructor : Destructor := .notCalled
  /-- How often `Enqueue` was called, and the calls that did not throw. -/
  calls : Nat := 0
  accepted : List Task := []
  /-- The tasks that were put into the queue, and those that were taken out, in this order. -/
  entered : List Task := []
  popped : List Task := []
  started : List Task := []
  finished : List Task := []

namespace ThreadPool

/-- `std::runtime_error`. -/
inductive RuntimeError
  | enqueueOnStoppedThreadPool
  deriving DecidableEq, Repr

def RuntimeError.what : RuntimeError → String
  | .enqueueOnStoppedThreadPool => "enqueue on stopped ThreadPool"

/-- The constructor. -/
def make (threads : Nat) : ThreadPool := { workers := List.replicate threads .locking }

def setWorker (s : ThreadPool) (idx : Nat) (w : Worker) : ThreadPool :=
  { s with workers := s.workers.set idx w }

/-- The section of `Enqueue` under the mutex. -/
def enqueue (s : ThreadPool) (task : Task) : Except RuntimeError ThreadPool :=
  if s.isStop then .error .enqueueOnStoppedThreadPool
  else .ok { s with tasks := s.tasks ++ [task], notifies := s.notifies + 1, entered := s.entered ++ [task] }

/-- `notify_one`: it wakes up one of the workers that wait, whichever the library takes. -/
def notifyOne (s : ThreadPool) (idx : Option Nat) : Option ThreadPool :=
  match s.notifies, idx with
  | 0, _ => none
  | notifies + 1, none =>
      if .waiting ∈ s.workers then none else some { s with notifies }
  | notifies + 1, some idx =>
      if s.workers[idx]? = some .waiting then some { s.setWorker idx .locking with notifies } else none

/-- The section of a worker under the mutex: `wait` with its predicate, the test for the end, and the front of
the queue. -/
def lockedSection (s : ThreadPool) (idx : Nat) : ThreadPool :=
  match s.tasks with
  | [] => if s.isStop then s.setWorker idx .returned else s.setWorker idx .waiting
  | task :: tasks => { s.setWorker idx (.holding task) with tasks, popped := s.popped ++ [task] }

/-- The loop of a worker. -/
def workerStep (s : ThreadPool) (idx : Nat) : Option ThreadPool :=
  match s.workers[idx]? with
  | some .locking => some (s.lockedSection idx)
  | some (.holding task) => some { s.setWorker idx (.running task) with started := s.started ++ [task] }
  | some (.running task) => some { s.setWorker idx .locking with finished := s.finished ++ [task] }
  | some .waiting => none
  | some .returned => none
  | none => none

/-- `ThreadPool::~ThreadPool`. -/
def destructorStep (s : ThreadPool) : Option ThreadPool :=
  match s.destructor with
  | .notCalled => some { s with isStop := true, destructor := .notifyAll }
  | .notifyAll => some { s with workers := s.workers.map Worker.wake, destructor := .join 0 }
  | .join idx =>
      match s.workers[idx]? with
      | none => some { s with destructor := .done }
      | some .returned => some { s with destructor := .join (idx + 1) }
      | some _ => none
  | .done => none

inductive Label
  | enqueue
  | notifyOne (idx : Option Nat)
  | worker (idx : Nat)
  /-- `wait` may wake up without a notification. -/
  | wakeUp (idx : Nat)
  | destructor

def step (s : ThreadPool) : Label → Option ThreadPool
  | .enqueue =>
      let called := { s with calls := s.calls + 1 }
      match called.enqueue s.calls with
      | .ok s' => some { s' with accepted := s.accepted ++ [s.calls] }
      | .error _ => some called
  | .notifyOne idx => s.notifyOne idx
  | .worker idx => s.workerStep idx
  | .wakeUp idx => if s.workers[idx]? = some .waiting then some (s.setWorker idx .locking) else none
  | .destructor => s.destructorStep

/-- The steps of the pool. -/
inductive Effect (s : ThreadPool) : Label → ThreadPool → Prop
  | accept (hstop : s.isStop = false) :
      Effect s .enqueue { s with
        calls := s.calls + 1
        accepted := s.accepted ++ [s.calls]
        tasks := s.tasks ++ [s.calls]
        notifies := s.notifies + 1
        entered := s.entered ++ [s.calls] }
  | reject (hstop : s.isStop = true) : Effect s .enqueue { s with calls := s.calls + 1 }
  | notifyNobody {notifies : Nat} (hpending : s.notifies = notifies + 1) (hnone : .waiting ∉ s.workers) :
      Effect s (.notifyOne none) { s with notifies }
  | notify {notifies idx : Nat} (hpending : s.notifies = notifies + 1) (hidx : s.workers[idx]? = some .waiting) :
      Effect s (.notifyOne (some idx)) { s with workers := s.workers.set idx .locking, notifies }
  | wait {idx : Nat} (hidx : s.workers[idx]? = some .locking) (hstop : s.isStop = false) (htasks : s.tasks = []) :
      Effect s (.worker idx) { s with workers := s.workers.set idx .waiting }
  | leave {idx : Nat} (hidx : s.workers[idx]? = some .locking) (hstop : s.isStop = true) (htasks : s.tasks = []) :
      Effect s (.worker idx) { s with workers := s.workers.set idx .returned }
  | pop {idx : Nat} {task : Task} {tasks : List Task} (hidx : s.workers[idx]? = some .locking)
      (htasks : s.tasks = task :: tasks) :
      Effect s (.worker idx)
        { s with workers := s.workers.set idx (.holding task), tasks, popped := s.popped ++ [task] }
  | begin {idx : Nat} {task : Task} (hidx : s.workers[idx]? = some (.holding task)) :
      Effect s (.worker idx)
        { s with workers := s.workers.set idx (.running task), started := s.started ++ [task] }
  | finish {idx : Nat} {task : Task} (hidx : s.workers[idx]? = some (.running task)) :
      Effect s (.worker idx)
        { s with workers := s.workers.set idx .locking, finished := s.finished ++ [task] }
  | wakeUp {idx : Nat} (hidx : s.workers[idx]? = some .waiting) :
      Effect s (.wakeUp idx) { s with workers := s.workers.set idx .locking }
  | stop (hdestructor : s.destructor = .notCalled) :
      Effect s .destructor { s with isStop := true, destructor := .notifyAll }
  | notifyAll (hdestructor : s.destructor = .notifyAll) :
      Effect s .destructor { s with workers := s.workers.map Worker.wake, destructor := .join 0 }
  | join {idx : Nat} (hdestructor : s.destructor = .join idx) (hidx : s.workers[idx]? = some .returned) :
      Effect s .destructor { s with destructor := .join (idx + 1) }
  | joined {idx : Nat} (hdestructor : s.destructor = .join idx) (hidx : s.workers[idx]? = none) :
      Effect s .destructor { s with destructor := .done }

theorem step_enqueue (s : ThreadPool) :
    s.step .enqueue = some (if s.isStop then { s with calls := s.calls + 1 } else
      { s with
        calls := s.calls + 1
        accepted := s.accepted ++ [s.calls]
        tasks := s.tasks ++ [s.calls]
        notifies := s.notifies + 1
        entered := s.entered ++ [s.calls] }) := by
  rw [step, enqueue]
  cases s.isStop <;> rfl

theorem effect_of_step {s s' : ThreadPool} {a : Label} (h : s.step a = some s') : Effect s a s' := by
  cases a with
  | enqueue =>
      rw [step_enqueue] at h
      cases h
      split
      case isTrue hstop => exact .reject hstop
      case isFalse hstop => exact .accept (Bool.not_eq_true _ ▸ hstop)
  | notifyOne idx =>
      rw [step, notifyOne.eq_def] at h
      split at h
      case h_1 => cases h
      case h_2 notifies hpending =>
        split at h
        · cases h
        · cases h
          exact .notifyNobody hpending ‹_›
      case h_3 notifies idx hpending =>
        split at h
        · cases h
          exact .notify hpending ‹_›
        · cases h
  | worker idx =>
      rw [step, workerStep] at h
      split at h
      case h_1 hidx =>
        cases h
        rw [lockedSection.eq_def]
        split
        case h_1 htasks =>
          cases hstop : s.isStop with
          | true => exact .leave hidx hstop htasks
          | false => exact .wait hidx hstop htasks
        case h_2 htasks => exact .pop hidx htasks
      case h_2 hidx =>
        cases h
        exact .begin hidx
      case h_3 hidx =>
        cases h
        exact .finish hidx
      all_goals cases h
  | wakeUp idx =>
      rw [step] at h
      split at h
      · cases h
        exact .wakeUp ‹_›
      · cases h
  | destructor =>
      rw [step, destructorStep] at h
      split at h
      case h_1 hdestructor =>
        cases h
        exact .stop hdestructor
      case h_2 hdestructor =>
        cases h
        exact .notifyAll hdestructor
      case h_3 hdestructor =>
        split at h
        · cases h
          exact .joined hdestructor ‹_›
        · cases h
          exact .join hdestructor ‹_›
        · cases h
      case h_4 => cases h

end ThreadPool

/-- A pool of some workers, under all interleavings. Steps after the end of the destructor are not excluded. -/
def threadPool (threads : Nat) : TransitionSystem ThreadPool ThreadPool.Label where
  start := .make threads
  step := ThreadPool.step

end ToyBox.Util
