import Mathlib.Data.List.Nodup
import ToyBox.Util.ThreadPool

/-! What holds of the pool in every interleaving: every task whose `Enqueue` did not throw is in one place, tasks leave
in the order they entered, no wake-up is lost, and when the destructor is done every task has finished. -/

namespace ToyBox.Util

open Worker

namespace ThreadPool

/-- The tasks that workers have in their hands, begun or not. -/
def inHands (s : ThreadPool) : List Task := s.workers.filterMap inHand

/-- Those that have begun to run. -/
def inRuns (s : ThreadPool) : List Task := s.workers.filterMap inRun

/-- Where the tasks are. -/
structure Ledger (s : ThreadPool) : Prop where
  accepted : s.entered = s.accepted
  lt_calls : ∀ task ∈ s.entered, task < s.calls
  nodup : s.entered.Nodup
  fifo : s.popped ++ s.tasks = s.entered
  popped_perm : (s.inHands ++ s.finished).Perm s.popped
  started_perm : (s.inRuns ++ s.finished).Perm s.started

/-- Who will look at the queue. -/
structure Attended (s : ThreadPool) : Prop where
  workers_ne_nil : s.workers ≠ []
  isStop_iff : s.isStop = true ↔ s.destructor ≠ .notCalled
  returned : .returned ∈ s.workers → s.isStop = true ∧ s.tasks = []
  awake : s.tasks ≠ [] → (∃ w ∈ s.workers, w.IsAwake) ∨ 0 < s.notifies ∨ s.destructor = .notifyAll

/-- What the destructor waits for. -/
structure Joining (s : ThreadPool) : Prop where
  not_waiting : s.isStop = true → s.destructor ≠ .notifyAll → .waiting ∉ s.workers
  returned_lt : ∀ idx, s.destructor = .join idx → ∀ i < idx, s.workers[i]? = some .returned
  returned : s.destructor = .done → ∀ w ∈ s.workers, w = .returned

/-! ### The workers -/

section Workers

variable {α : Type} {workers : List Worker} {idx : Nat} {w : Worker}

/-- One worker moves, and the others keep what they have. -/
theorem filterMap_set (f : Worker → Option α) (h : workers[idx]? = some w) :
    ∃ xs ys, workers.filterMap f = xs ++ ((f w).toList ++ ys) ∧
      ∀ w', (workers.set idx w').filterMap f = xs ++ ((f w').toList ++ ys) := by
  obtain ⟨hlt, rfl⟩ := List.getElem?_eq_some_iff.mp h
  have hset : ∀ w', (workers.set idx w').filterMap f =
      (workers.take idx).filterMap f ++ ((f w').toList ++ (workers.drop (idx + 1)).filterMap f) := by
    intro w'
    rw [List.set_eq_take_append_cons_drop, if_pos hlt, List.filterMap_append, List.filterMap_cons]
    cases f w' <;> rfl
  refine ⟨_, _, ?_, hset⟩
  rw [← hset, List.set_getElem_self]

theorem filterMap_set_of_eq (f : Worker → Option α) (h : workers[idx]? = some w) (w' : Worker)
    (hf : f w' = f w) :
    (workers.set idx w').filterMap f = workers.filterMap f := by
  obtain ⟨xs, ys, hold, hnew⟩ := filterMap_set f h
  rw [hnew, hold, hf]

theorem filterMap_map_wake (f : Worker → Option α) (hf : f .waiting = f .locking) (workers : List Worker) :
    (workers.map wake).filterMap f = workers.filterMap f := by
  rw [List.filterMap_map]
  congr 1
  funext w
  cases w with
  | waiting => exact hf.symm
  | locking | holding | running | returned => rfl

theorem mem_set_of_ne {w' : Worker} (h : w ∈ workers.set idx w') (hne : w ≠ w') : w ∈ workers :=
  (List.mem_or_eq_of_mem_set h).resolve_right hne

theorem mem_set_self (h : workers[idx]? = some w) (w' : Worker) : w' ∈ workers.set idx w' :=
  List.mem_set (List.getElem?_eq_some_iff.mp h).1 w'

end Workers

/-! ### The ledger -/

/-- A task leaves a worker for the end of a list. -/
theorem perm_move (task : Task) (xs ys zs : List Task) :
    (xs ++ ([task] ++ ys) ++ zs).Perm (xs ++ ys ++ zs ++ [task]) := by
  have hmiddle : (xs ++ ([task] ++ ys) ++ zs).Perm (task :: (xs ++ ys ++ zs)) := by
    rw [List.singleton_append, List.append_assoc, List.cons_append, List.append_assoc]
    exact List.perm_middle
  exact hmiddle.trans (List.perm_append_singleton task _).symm

/-- A worker moves that keeps its task. -/
theorem Ledger.setWorker {s : ThreadPool} {idx : Nat} {w : Worker} (h : Ledger s)
    (hidx : s.workers[idx]? = some w) (w' : Worker) (hhand : w'.inHand = w.inHand) (hrun : w'.inRun = w.inRun) :
    Ledger { s with workers := s.workers.set idx w' } where
  accepted := h.accepted
  lt_calls := h.lt_calls
  nodup := h.nodup
  fifo := h.fifo
  popped_perm := by
    rw [inHands, filterMap_set_of_eq inHand hidx w' hhand]
    exact h.popped_perm
  started_perm := by
    rw [inRuns, filterMap_set_of_eq inRun hidx w' hrun]
    exact h.started_perm

theorem Ledger.effect {s s' : ThreadPool} {a : Label} (h : Ledger s) (heffect : Effect s a s') : Ledger s' := by
  cases heffect with
  | accept hstop =>
      have hnew : s.calls ∉ s.entered := fun hmem => absurd (h.lt_calls _ hmem) (Nat.lt_irrefl _)
      refine { h with accepted := congrArg (· ++ [s.calls]) h.accepted, lt_calls := ?_, nodup := ?_, fifo := ?_ }
      · intro task htask
        rcases List.mem_append.mp htask with htask | htask
        · exact Nat.lt_succ_of_lt (h.lt_calls task htask)
        · rw [List.mem_singleton.mp htask]
          exact Nat.lt_succ_self _
      · exact h.nodup.append (List.nodup_singleton _) (List.disjoint_singleton.mpr hnew)
      · rw [← List.append_assoc, h.fifo]
  | reject hstop => exact { h with lt_calls := fun task htask => Nat.lt_succ_of_lt (h.lt_calls task htask) }
  | notifyNobody hpending hnone => exact { h with }
  | notify hpending hidx => exact { h.setWorker hidx .locking rfl rfl with }
  | wait hidx hstop htasks => exact h.setWorker hidx .waiting rfl rfl
  | leave hidx hstop htasks => exact h.setWorker hidx .returned rfl rfl
  | @pop idx task tasks hidx htasks =>
      obtain ⟨xs, ys, hold, hnew⟩ := filterMap_set inHand hidx
      have hperm : (xs ++ ys ++ s.finished).Perm s.popped := by
        have hperm := h.popped_perm
        rwa [inHands, hold] at hperm
      refine { h with fifo := ?_, popped_perm := ?_, started_perm := ?_ }
      · show s.popped ++ [task] ++ tasks = s.entered
        rw [← h.fifo, htasks, List.append_assoc, List.singleton_append]
      · rw [inHands, hnew]
        exact (perm_move task xs ys s.finished).trans (hperm.append_right [task])
      · rw [inRuns, filterMap_set_of_eq inRun hidx (.holding task) rfl]
        exact h.started_perm
  | @begin idx task hidx =>
      obtain ⟨xs, ys, hold, hnew⟩ := filterMap_set inRun hidx
      have hperm : (xs ++ ys ++ s.finished).Perm s.started := by
        have hperm := h.started_perm
        rwa [inRuns, hold] at hperm
      refine { h with popped_perm := ?_, started_perm := ?_ }
      · rw [inHands, filterMap_set_of_eq inHand hidx (.running task) rfl]
        exact h.popped_perm
      · rw [inRuns, hnew]
        exact (perm_move task xs ys s.finished).trans (hperm.append_right [task])
  | @finish idx task hidx =>
      obtain ⟨xs, ys, hold, hnew⟩ := filterMap_set inHand hidx
      obtain ⟨xs', ys', hold', hnew'⟩ := filterMap_set inRun hidx
      refine { h with popped_perm := ?_, started_perm := ?_ }
      · have hperm := h.popped_perm
        rw [inHands, hold] at hperm
        rw [inHands, hnew, ← List.append_assoc]
        exact (perm_move task xs ys s.finished).symm.trans hperm
      · have hperm := h.started_perm
        rw [inRuns, hold'] at hperm
        rw [inRuns, hnew', ← List.append_assoc]
        exact (perm_move task xs' ys' s.finished).symm.trans hperm
  | wakeUp hidx => exact h.setWorker hidx .locking rfl rfl
  | stop hdestructor => exact { h with }
  | notifyAll hdestructor =>
      refine { h with popped_perm := ?_, started_perm := ?_ }
      · rw [inHands, filterMap_map_wake inHand rfl]
        exact h.popped_perm
      · rw [inRuns, filterMap_map_wake inRun rfl]
        exact h.started_perm
  | join hdestructor hidx => exact { h with }
  | joined hdestructor hidx => exact { h with }

/-! ### Wake-ups -/

/-- A worker moves that is not left waiting: it will look at the queue itself. -/
theorem Attended.of_awake {s s' : ThreadPool} {idx : Nat} {w w' : Worker} (h : Attended s)
    (hidx : s.workers[idx]? = some w) (hworkers : s'.workers = s.workers.set idx w') (hawake : w'.IsAwake)
    (hstop : s'.isStop = s.isStop) (hdestructor : s'.destructor = s.destructor)
    (htasks : s.tasks = [] → s'.tasks = []) : Attended s' where
  workers_ne_nil := by
    rw [hworkers]
    exact List.ne_nil_of_mem (mem_set_self hidx w')
  isStop_iff := by
    rw [hstop, hdestructor]
    exact h.isStop_iff
  returned := by
    intro hmem
    rw [hworkers] at hmem
    obtain ⟨hstopped, hempty⟩ := h.returned (mem_set_of_ne hmem hawake.2.symm)
    exact ⟨hstop.trans hstopped, htasks hempty⟩
  awake := fun _ => Or.inl ⟨w', hworkers ▸ mem_set_self hidx w', hawake⟩

/-- A worker stops looking at an empty queue. -/
theorem Attended.of_empty {s : ThreadPool} {idx : Nat} {w : Worker} (h : Attended s)
    (hidx : s.workers[idx]? = some w) (w' : Worker) (htasks : s.tasks = [])
    (hreturned : w' = .returned → s.isStop = true) :
    Attended { s with workers := s.workers.set idx w' } where
  workers_ne_nil := List.ne_nil_of_mem (mem_set_self hidx w')
  isStop_iff := h.isStop_iff
  returned := by
    intro hmem
    by_cases hw : w' = .returned
    · exact ⟨hreturned hw, htasks⟩
    · exact h.returned (mem_set_of_ne hmem (Ne.symm hw))
  awake := fun hne => absurd htasks hne

theorem Attended.effect {s s' : ThreadPool} {a : Label} (h : Attended s) (heffect : Effect s a s') :
    Attended s' := by
  cases heffect with
  | accept hstop =>
      refine { h with returned := fun hmem => ?_, awake := fun _ => Or.inr (Or.inl (Nat.succ_pos _)) }
      rw [(h.returned hmem).1] at hstop
      exact Bool.noConfusion hstop
  | reject hstop => exact { h with }
  | notifyNobody hpending hnone =>
      refine { h with awake := fun hne => ?_ }
      -- nobody waits, and nobody has returned while there are tasks
      obtain ⟨w, hw⟩ := List.exists_mem_of_ne_nil _ h.workers_ne_nil
      refine Or.inl ⟨w, hw, ?_, ?_⟩
      · rintro rfl
        exact hnone hw
      · rintro rfl
        exact hne (h.returned hw).2
  | notify hpending hidx => exact h.of_awake hidx rfl (by decide) rfl rfl id
  | wait hidx hstop htasks => exact h.of_empty hidx .waiting htasks fun heq => by cases heq
  | leave hidx hstop htasks => exact h.of_empty hidx .returned htasks fun _ => hstop
  | pop hidx htasks =>
      exact h.of_awake hidx rfl ⟨by simp, by simp⟩ rfl rfl fun hempty => by simp [htasks] at hempty
  | begin hidx => exact h.of_awake hidx rfl ⟨by simp, by simp⟩ rfl rfl id
  | finish hidx => exact h.of_awake hidx rfl (by decide) rfl rfl id
  | wakeUp hidx => exact h.of_awake hidx rfl (by decide) rfl rfl id
  | stop hdestructor =>
      exact { h with
        isStop_iff := by simp
        returned := fun hmem => ⟨rfl, (h.returned hmem).2⟩
        awake := fun _ => Or.inr (Or.inr rfl) }
  | notifyAll hdestructor =>
      have hreturned : .returned ∈ s.workers.map wake → s.isStop = true ∧ s.tasks = [] := by
        intro hmem
        obtain ⟨w, hw, hwake⟩ := List.mem_map.mp hmem
        cases w with
        | returned => exact h.returned hw
        | waiting | locking | holding | running => cases hwake
      refine ⟨?_, ?_, hreturned, fun hne => Or.inl ?_⟩
      · simpa using h.workers_ne_nil
      · simpa [hdestructor] using h.isStop_iff
      · obtain ⟨w, hw⟩ := List.exists_mem_of_ne_nil _ h.workers_ne_nil
        refine ⟨wake w, List.mem_map_of_mem hw, ?_, ?_⟩
        · cases w <;> simp [wake]
        · intro heq
          exact hne (hreturned (heq ▸ List.mem_map_of_mem hw)).2
  | join hdestructor hidx =>
      refine { h with isStop_iff := ?_, awake := fun hne => ?_ }
      · simpa [hdestructor] using h.isStop_iff
      · simpa [hdestructor] using h.awake hne
  | joined hdestructor hidx =>
      refine { h with isStop_iff := ?_, awake := fun hne => ?_ }
      · simpa [hdestructor] using h.isStop_iff
      · simpa [hdestructor] using h.awake hne

/-! ### The end -/

/-- A worker that has not returned moves, and does not begin to wait after the stop. -/
theorem Joining.setWorker {s s' : ThreadPool} {idx : Nat} {w w' : Worker} (h : Joining s)
    (hidx : s.workers[idx]? = some w) (hw : w ≠ .returned) (hworkers : s'.workers = s.workers.set idx w')
    (hwait : w' = .waiting → s.isStop = false) (hstop : s'.isStop = s.isStop)
    (hdestructor : s'.destructor = s.destructor) : Joining s' where
  not_waiting := by
    rw [hstop, hdestructor, hworkers]
    intro hstopped hnot hmem
    refine h.not_waiting hstopped hnot (mem_set_of_ne hmem ?_)
    intro heq
    rw [hwait heq.symm] at hstopped
    exact Bool.noConfusion hstopped
  returned_lt := by
    rw [hdestructor, hworkers]
    intro last hjoin i hi
    have hreturned := h.returned_lt last hjoin i hi
    rw [List.getElem?_set_ne]
    · exact hreturned
    · rintro rfl
      exact hw (Option.some.inj (hidx.symm.trans hreturned))
  returned := by
    rw [hdestructor]
    intro hdone
    exact absurd (h.returned hdone w (List.mem_of_getElem? hidx)) hw

theorem Joining.effect {s s' : ThreadPool} {a : Label} (h : Joining s) (hattended : Attended s)
    (heffect : Effect s a s') : Joining s' := by
  cases heffect with
  | accept hstop => exact { h with }
  | reject hstop => exact { h with }
  | notifyNobody hpending hnone => exact { h with }
  | notify hpending hidx => exact h.setWorker hidx (by decide) rfl (fun heq => by cases heq) rfl rfl
  | wait hidx hstop htasks => exact h.setWorker hidx (by decide) rfl (fun _ => hstop) rfl rfl
  | leave hidx hstop htasks => exact h.setWorker hidx (by decide) rfl (fun heq => by cases heq) rfl rfl
  | pop hidx htasks => exact h.setWorker hidx (by decide) rfl (fun heq => by cases heq) rfl rfl
  | begin hidx => exact h.setWorker hidx (by simp) rfl (fun heq => by cases heq) rfl rfl
  | finish hidx => exact h.setWorker hidx (by simp) rfl (fun heq => by cases heq) rfl rfl
  | wakeUp hidx => exact h.setWorker hidx (by decide) rfl (fun heq => by cases heq) rfl rfl
  | stop hdestructor =>
      exact { not_waiting := fun _ hnot => absurd rfl hnot
              returned_lt := fun _ hjoin => by cases hjoin
              returned := fun hdone => by cases hdone }
  | notifyAll hdestructor =>
      refine ⟨fun _ _ hmem => ?_, ?_, fun hdone => by cases hdone⟩
      · obtain ⟨w, -, hwake⟩ := List.mem_map.mp hmem
        cases w <;> cases hwake
      · intro idx hjoin i hi
        cases hjoin
        exact absurd hi (Nat.not_lt_zero i)
  | @join last hdestructor hlast =>
      have hstop : s.isStop = true := hattended.isStop_iff.mpr (by simp [hdestructor])
      refine ⟨fun _ _ => h.not_waiting hstop (by simp [hdestructor]), ?_, fun hdone => by cases hdone⟩
      intro idx hjoin i hi
      cases hjoin
      rcases Nat.lt_succ_iff_lt_or_eq.mp hi with hi | rfl
      · exact h.returned_lt last hdestructor i hi
      · exact hlast
  | @joined last hdestructor hlast =>
      have hstop : s.isStop = true := hattended.isStop_iff.mpr (by simp [hdestructor])
      refine ⟨fun _ _ => h.not_waiting hstop (by simp [hdestructor]), (fun _ hjoin => by cases hjoin), fun _ => ?_⟩
      intro w (hw : w ∈ s.workers)
      obtain ⟨i, hi⟩ := List.getElem?_of_mem hw
      have hlt : i < last := by
        have := (List.getElem?_eq_some_iff.mp hi).1
        have := List.getElem?_eq_none_iff.mp hlast
        omega
      exact Option.some.inj (hi.symm.trans (h.returned_lt last hdestructor i hlt))

/-! ### Every interleaving -/

theorem ledger_make (threads : Nat) : Ledger (make threads) where
  accepted := rfl
  lt_calls := by simp [make]
  nodup := List.nodup_nil
  fifo := rfl
  popped_perm := by simp [make, inHands, List.filterMap_replicate, inHand]
  started_perm := by simp [make, inRuns, List.filterMap_replicate, inRun]

theorem attended_make {threads : Nat} (hthreads : 0 < threads) : Attended (make threads) where
  workers_ne_nil := by
    rw [make, Ne, List.replicate_eq_nil_iff]
    exact Nat.ne_of_gt hthreads
  isStop_iff := by simp [make]
  returned := by simp [make]
  awake := fun hne => absurd rfl hne

theorem joining_make (threads : Nat) : Joining (make threads) where
  not_waiting := fun hstop => by cases hstop
  returned_lt := fun _ hjoin => by cases hjoin
  returned := fun hdone => by cases hdone

/-- What holds in every reachable state. -/
structure PoolInvariant (s : ThreadPool) : Prop where
  /-- Until the stop `Enqueue` does not throw, and puts its task behind the others. -/
  accepts : s.destructor = .notCalled → ∀ task, s.enqueue task =
    .ok { s with tasks := s.tasks ++ [task], notifies := s.notifies + 1, entered := s.entered ++ [task] }
  /-- `Enqueue` throws after the stop, and leaves the queue as it is. -/
  stopped : s.destructor ≠ .notCalled → ∀ task, s.enqueue task = .error .enqueueOnStoppedThreadPool ∧
    s.step .enqueue = some { s with calls := s.calls + 1 }
  /-- The tasks that entered the queue are those of the calls that did not throw, in the order of the calls. -/
  accepted : s.entered = s.accepted
  /-- Such a task is in one place, and begins to run at most once. -/
  nodup : s.accepted.Nodup
  onePlace : (s.tasks ++ (s.inHands ++ s.finished)).Perm s.accepted
  started : (s.inRuns ++ s.finished).Perm s.started ∧ s.started.Nodup
  /-- Tasks leave the queue in the order they entered it. -/
  fifo : s.popped ++ s.tasks = s.entered
  /-- No wake-up is lost. -/
  awake : s.tasks ≠ [] → (∃ w ∈ s.workers, w.IsAwake) ∨ 0 < s.notifies ∨ s.destructor = .notifyAll
  /-- The pool is drained before the last worker returns. -/
  drained : (∀ w ∈ s.workers, w = .returned) → s.tasks = []
  /-- When the destructor is done, every task has finished. -/
  finished : s.destructor = .done → s.finished.Perm s.accepted
  /-- The destructor does not wait for ever: it can go on, or the worker can that it joins. -/
  joins : ∀ idx, s.destructor = .join idx →
    (∃ s', s.step .destructor = some s') ∨ ∃ s', s.step (.worker idx) = some s'

theorem inRun_sublist (workers : List Worker) : (workers.filterMap inRun).Sublist (workers.filterMap inHand) := by
  induction workers with
  | nil => exact List.Sublist.refl _
  | cons w workers ih =>
      cases w with
      | running task => exact ih.cons_cons task
      | holding task => exact ih.cons task
      | locking | waiting | returned => exact ih

theorem Ledger.nodup_started {s : ThreadPool} (h : Ledger s) : s.started.Nodup := by
  have hpopped : s.popped.Nodup := (h.fifo ▸ h.nodup).of_append_left
  have hsublist : (s.inRuns ++ s.finished).Sublist (s.inHands ++ s.finished) :=
    (inRun_sublist s.workers).append (List.Sublist.refl _)
  exact h.started_perm.nodup_iff.mp ((h.popped_perm.nodup_iff.mpr hpopped).sublist hsublist)

/-- A task is in the queue, with a worker, or finished. -/
theorem Ledger.onePlace {s : ThreadPool} (h : Ledger s) :
    (s.tasks ++ (s.inHands ++ s.finished)).Perm s.accepted := by
  rw [← h.accepted, ← h.fifo]
  exact (h.popped_perm.append_left s.tasks).trans List.perm_append_comm

/-- No worker returns while there are tasks. -/
theorem Attended.drained {s : ThreadPool} (h : Attended s) (hall : ∀ w ∈ s.workers, w = .returned) : s.tasks = [] := by
  obtain ⟨w, hw⟩ := List.exists_mem_of_ne_nil _ h.workers_ne_nil
  exact (h.returned (hall w hw ▸ hw)).2

theorem finished_of_done {s : ThreadPool} (hledger : Ledger s) (hattended : Attended s) (hjoining : Joining s)
    (hdone : s.destructor = .done) : s.finished.Perm s.accepted := by
  have hall := hjoining.returned hdone
  have hnone : s.inHands = [] := by
    rw [inHands, List.filterMap_eq_nil_iff]
    intro w hw
    rw [hall w hw]
    rfl
  have hperm := hledger.onePlace
  rwa [hattended.drained hall, hnone, List.nil_append, List.nil_append] at hperm

/-- After the stop no worker waits that the destructor joins. -/
theorem join_progress {s : ThreadPool} (hattended : Attended s) (hjoining : Joining s) {idx : Nat}
    (hjoin : s.destructor = .join idx) :
    (∃ s', s.step .destructor = some s') ∨ ∃ s', s.step (.worker idx) = some s' := by
  have hstop : s.isStop = true := hattended.isStop_iff.mpr (by simp [hjoin])
  have hawake := hjoining.not_waiting hstop (by simp [hjoin])
  simp only [step, destructorStep, hjoin, workerStep]
  cases hidx : s.workers[idx]? with
  | none => exact Or.inl ⟨_, rfl⟩
  | some w =>
      cases w with
      | returned => exact Or.inl ⟨_, rfl⟩
      | locking => exact Or.inr ⟨_, rfl⟩
      | holding task => exact Or.inr ⟨_, rfl⟩
      | running task => exact Or.inr ⟨_, rfl⟩
      | waiting => exact absurd (List.mem_of_getElem? hidx) hawake

theorem poolInvariant_of {s : ThreadPool} (hledger : Ledger s) (hattended : Attended s) (hjoining : Joining s) :
    PoolInvariant s where
  accepts := by
    intro hnotCalled task
    have hopen : ¬s.isStop = true := fun hstop => hattended.isStop_iff.mp hstop hnotCalled
    exact if_neg hopen
  stopped := by
    intro hcalled task
    have hstop := hattended.isStop_iff.mpr hcalled
    exact ⟨if_pos hstop, by rw [step_enqueue, if_pos hstop]⟩
  accepted := hledger.accepted
  nodup := hledger.accepted ▸ hledger.nodup
  onePlace := hledger.onePlace
  started := ⟨hledger.started_perm, hledger.nodup_started⟩
  fifo := hledger.fifo
  awake := hattended.awake
  drained := hattended.drained
  finished := finished_of_done hledger hattended hjoining
  joins := fun _ => join_progress hattended hjoining

end ThreadPool

open ThreadPool

section Reachable

variable {threads : Nat} (hthreads : 0 < threads) {s : ThreadPool} (h : (threadPool threads).Reachable s)
include hthreads h

theorem reachable_invariants : Ledger s ∧ Attended s ∧ Joining s := by
  apply h.invariant (P := fun s => Ledger s ∧ Attended s ∧ Joining s)
  · exact ⟨ledger_make threads, attended_make hthreads, joining_make threads⟩
  · rintro s a s' - ⟨hledger, hattended, hjoining⟩ - hstep
    have heffect := effect_of_step hstep
    exact ⟨hledger.effect heffect, hattended.effect heffect, hjoining.effect hattended heffect⟩

/-- The invariant of a pool with a worker, in every interleaving. -/
theorem threadPool_invariant : PoolInvariant s := by
  obtain ⟨hledger, hattended, hjoining⟩ := reachable_invariants hthreads h
  exact poolInvariant_of hledger hattended hjoining

end Reachable

/-- A worker waits, a task enters the queue, and the pool is stopped before the worker is notified. -/
def stoppedBeforeNotify : List Label := [.worker 0, .enqueue, .destructor]

theorem threadPool_invariant_stoppedBeforeNotify :
    ∃ s, (threadPool 1).run (threadPool 1).start stoppedBeforeNotify = some s ∧ s.tasks = [0] ∧ s.accepted = [0] ∧
      s.workers = [.waiting] ∧ PoolInvariant s :=
  ⟨_, rfl, rfl, rfl, rfl, threadPool_invariant (by decide)
    (TransitionSystem.reachable_of_run
      (show (threadPool 1).run (threadPool 1).start stoppedBeforeNotify = some _ from rfl))⟩

end ToyBox.Util
