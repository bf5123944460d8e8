import ToyBox.Library.TransitionSystem
import ToyBox.Logger.FileWriter

/-! Runs of one file writer in which calls to the operating system fail, in any hours, and rotated files are
deleted by others. A rename that fails is made up for by the next rotation. A flush that fails is not, since
the buffered writer keeps its error; nor is any call between the rename and the end, since the next rotation
finds no file to rename, or one rotated file too many. -/

namespace ToyBox.Logger.Recovery

open FileWriter (FlushPasses RotatePasses)

structure State where
  fa : FileWriter
  fs : FileSystem

inductive Label
  | write (r : Record)
  | flush (faults : Faults)
  | rotate (faults : Faults) (now : Hour)
  /-- Somebody else deletes the rotated file of an hour. -/
  | delete (hourSuffix : Nat)

/-- The state after a call, whether it returns nil or an error. -/
def after (result : FileWriter.Result) : Option State :=
  (FileWriter.stateOf result).map fun (fa, fs) => { fa, fs }

def step (s : State) : Label → Option State
  | .write r => after (s.fa.write {} r s.fs)
  | .flush faults => after (s.fa.flush faults s.fs)
  | .rotate faults now => after (s.fa.rotate faults now s.fs)
  | .delete hourSuffix =>
      some { s with fs := (s.fs.remove (s.fa.genLogFileName hourSuffix)).getD s.fs }

/-- The runs after `Init`. -/
def system (fa : FileWriter) (fs : FileSystem) : TransitionSystem State Label where
  start := { fa, fs }
  step

/-- The next rotation in a later hour, in which no call fails, returns nil, leaves a buffered writer to an
open file at the file name, and keeps no more rotated files than hours to retain. -/
def Recovers (s : State) : Prop :=
  ∀ now : Hour, s.fa.currentFileSuffix < now.genCurrentFileSuffix →
    ∃ fa fs inode buf, s.fa.rotate {} now s.fs = .ok (fa, fs) ∧ fa.Open fs inode buf ∧
      fa.historyFileSuffix.length ≤ fa.retainHours

/-- The hour whose file the next rotation removes. -/
def overdue (fa : FileWriter) : Option Nat :=
  if fa.historyFileSuffix.length < fa.retainHours then none
  else (fa.historyFileSuffix ++ [fa.currentFileSuffix]).head?

/-- The hours that are kept after a rotation, and the new current one. -/
def rotatedTo (fa : FileWriter) (curFileSuffix : Nat) : FileWriter :=
  { fa with
    historyFileSuffix :=
      if fa.historyFileSuffix.length < fa.retainHours then fa.historyFileSuffix ++ [fa.currentFileSuffix]
      else (fa.historyFileSuffix ++ [fa.currentFileSuffix]).tail
    currentFileSuffix := curFileSuffix }

/-- The file of the hour is there when the next rotation has moved the current file aside. -/
def HasFile (s : State) (hourSuffix : Nat) : Prop :=
  hourSuffix = s.fa.currentFileSuffix ∨ s.fs.dir (s.fa.genLogFileName hourSuffix) ≠ none

/-- The steps that do no lasting harm. A flush does not fail. A rotation stays in the hour, or fails in its
rename, or no call of it fails, and it leaves the file that the next one is to remove. What others delete is
not the file that the next rotation removes. -/
def Recoverable (s : State) : Label → Prop
  | .write _ => True
  | .flush faults => FlushPasses faults s.fa
  | .rotate faults now =>
      now.genCurrentFileSuffix = s.fa.currentFileSuffix ∨
        FlushPasses faults s.fa ∧ (faults.rename = true ∨
          RotatePasses faults s.fa ∧ (overdue s.fa = none ∨ faults.remove = false) ∧
            ∀ hour, overdue (rotatedTo s.fa now.genCurrentFileSuffix) = some hour →
              hour = now.genCurrentFileSuffix ∨ HasFile s hour ∧ overdue s.fa ≠ some hour)
  | .delete hourSuffix => overdue s.fa = some hourSuffix → hourSuffix = s.fa.currentFileSuffix

/-- What the steps keep that do no harm. -/
structure Good (s : State) : Prop where
  isOpen : ∃ inode buf, s.fa.Open s.fs inode buf
  retained : s.fa.historyFileSuffix.length ≤ s.fa.retainHours
  hasFile : ∀ hour, overdue s.fa = some hour → HasFile s hour

/-! ### A rotation up to the removal -/

/-- The current file has been moved aside and a new one is open. -/
structure Moved (s s' : State) (now : Hour) : Prop where
  fileName : s'.fa.fileName = s.fa.fileName
  retainHours : s'.fa.retainHours = s.fa.retainHours
  current : s'.fa.currentFileSuffix = now.genCurrentFileSuffix
  history : s'.fa.historyFileSuffix = s.fa.historyFileSuffix ++ [s.fa.currentFileSuffix]
  isOpen : ∃ inode, s'.fa.Open s'.fs inode []
  files : ∀ hour, s'.fs.dir (s.fa.genLogFileName hour) ≠ none ↔ HasFile s hour

variable {s s' : State} {inode : Nat} {buf : Bytes} {faults : Faults} {now : Hour}

theorem Moved.genLogFileName (h : Moved s s' now) (hour : Nat) :
    s'.fa.genLogFileName hour = s.fa.genLogFileName hour := by
  rw [FileWriter.genLogFileName, h.fileName, FileWriter.genLogFileName]

theorem exists_moved (h : s.fa.Open s.fs inode buf) (hpasses : RotatePasses faults s.fa)
    (hnow : now.genCurrentFileSuffix ≠ s.fa.currentFileSuffix) :
    ∃ s', s.fa.rotate faults now s.fs = s'.fa.removeOverdue faults s'.fs ∧ Moved s s' now := by
  obtain ⟨b, handle, fs', hrotate, hopen, hdir, -⟩ := h.rotate hpasses hnow
  refine ⟨⟨_, fs'⟩, hrotate, ⟨rfl, rfl, rfl, rfl, ⟨_, hopen⟩, ?_⟩⟩
  intro hour
  show fs'.dir (s.fa.genLogFileName hour) ≠ none ↔ _
  rw [hdir, Function.update_of_ne (s.fa.genLogFileName_ne hour)]
  by_cases hhour : hour = s.fa.currentFileSuffix
  · simp [hhour, HasFile]
  · rw [Function.update_of_ne (s.fa.genLogFileName_injective.ne hhour)]
    simp [hhour, HasFile]

/-! ### The removal -/

theorem overdue_eq_none_iff {fa : FileWriter} :
    overdue fa = none ↔ fa.historyFileSuffix.length < fa.retainHours := by
  unfold overdue
  by_cases hroom : fa.historyFileSuffix.length < fa.retainHours <;> simp [hroom]

/-- With room for one more file, nothing is removed. -/
theorem Moved.removeOverdue_of_room (h : Moved s s' now) (hroom : overdue s.fa = none) :
    s'.fa.removeOverdue faults s'.fs = .ok (s'.fa, s'.fs) ∧
      s'.fa.historyFileSuffix = (rotatedTo s.fa now.genCurrentFileSuffix).historyFileSuffix := by
  have hlength : s.fa.historyFileSuffix.length < s.fa.retainHours := overdue_eq_none_iff.mp hroom
  constructor
  · apply FileWriter.removeOverdue_of_room
    rw [h.history, h.retainHours, List.length_append, List.length_singleton]
    omega
  · rw [h.history, rotatedTo, if_pos hlength]

/-- Without, the first of the rotated files is one too many. -/
theorem Moved.full (h : Moved s s' now) {hour : Nat} (hoverdue : overdue s.fa = some hour) :
    s'.fa.historyFileSuffix =
        hour :: (rotatedTo s.fa now.genCurrentFileSuffix).historyFileSuffix ∧
      s'.fa.historyFileSuffix.length > s'.fa.retainHours := by
  have hlength : ¬s.fa.historyFileSuffix.length < s.fa.retainHours := by
    rw [← overdue_eq_none_iff, hoverdue]
    exact Option.some_ne_none hour
  rw [overdue, if_neg hlength] at hoverdue
  constructor
  · rw [h.history, rotatedTo, if_neg hlength]
    exact (List.cons_head?_tail hoverdue).symm
  · rw [h.history, h.retainHours, List.length_append, List.length_singleton]
    omega

theorem Moved.removeOverdue_fails (h : Moved s s' now) {hour : Nat} (hoverdue : overdue s.fa = some hour)
    (hfails : faults.remove = true ∨ ¬HasFile s hour) :
    s'.fa.removeOverdue faults s'.fs = .error (.error s'.fa s'.fs) := by
  obtain ⟨hhistory, hfull⟩ := h.full hoverdue
  unfold FileWriter.removeOverdue
  rw [if_pos hfull, hhistory]
  show (if faults.remove = true then _ else _) = _
  by_cases hremove : faults.remove = true
  · rw [if_pos hremove]
  · have hnone : s'.fs.dir (s'.fa.genLogFileName hour) = none := by
      rw [h.genLogFileName]
      exact not_not.mp (mt (h.files hour).mp (hfails.resolve_left hremove))
    rw [if_neg hremove]
    rw [FileSystem.remove_of_none hnone]

/-- A rotation has come to its end. -/
structure Rotated (s s' : State) (now : Hour) : Prop where
  retainHours : s'.fa.retainHours = s.fa.retainHours
  current : s'.fa.currentFileSuffix = now.genCurrentFileSuffix
  history : s'.fa.historyFileSuffix = (rotatedTo s.fa now.genCurrentFileSuffix).historyFileSuffix
  isOpen : ∃ inode, s'.fa.Open s'.fs inode []
  files : ∀ hour, HasFile s' hour ↔
    hour = now.genCurrentFileSuffix ∨ HasFile s hour ∧ overdue s.fa ≠ some hour

/-- What the next rotation removes depends on the hours only. -/
theorem Rotated.overdue_eq (h : Rotated s s' now) :
    overdue s'.fa = overdue (rotatedTo s.fa now.genCurrentFileSuffix) := by
  unfold overdue
  rw [h.history, h.retainHours, h.current]
  rfl

/-- A rotation has come to its end, and these are the rotated files. -/
structure Completed (s s' : State) (now : Hour) : Prop where
  fileName : s'.fa.fileName = s.fa.fileName
  retainHours : s'.fa.retainHours = s.fa.retainHours
  current : s'.fa.currentFileSuffix = now.genCurrentFileSuffix
  history : s'.fa.historyFileSuffix = (rotatedTo s.fa now.genCurrentFileSuffix).historyFileSuffix
  isOpen : ∃ inode, s'.fa.Open s'.fs inode []
  files : ∀ hour, s'.fs.dir (s.fa.genLogFileName hour) ≠ none ↔ HasFile s hour ∧ overdue s.fa ≠ some hour

theorem Completed.rotated (h : Completed s s' now) : Rotated s s' now := by
  refine ⟨h.retainHours, h.current, h.history, h.isOpen, fun hour => ?_⟩
  have hname : s'.fa.genLogFileName hour = s.fa.genLogFileName hour := by
    rw [FileWriter.genLogFileName, h.fileName, FileWriter.genLogFileName]
  rw [HasFile, h.current, hname, h.files]

theorem exists_completed (h : s.fa.Open s.fs inode buf) (hpasses : RotatePasses faults s.fa)
    (hnow : now.genCurrentFileSuffix ≠ s.fa.currentFileSuffix)
    (hremove : overdue s.fa = none ∨ faults.remove = false)
    (hfile : ∀ hour, overdue s.fa = some hour → HasFile s hour) :
    ∃ s', s.fa.rotate faults now s.fs = .ok (s'.fa, s'.fs) ∧ Completed s s' now := by
  obtain ⟨s₁, hrotate, hmoved⟩ := exists_moved h hpasses hnow
  cases hoverdue : overdue s.fa with
  | none =>
      obtain ⟨hdone, hhistory⟩ := hmoved.removeOverdue_of_room hoverdue
      refine ⟨s₁, hrotate.trans hdone, hmoved.fileName, hmoved.retainHours, hmoved.current, hhistory,
        hmoved.isOpen, ?_⟩
      intro hour
      rw [hmoved.files]
      simp [hoverdue]
  | some overdueHour =>
      obtain ⟨hhistory, hfull⟩ := hmoved.full hoverdue
      have hsome : s₁.fs.dir (s.fa.genLogFileName overdueHour) ≠ none :=
        (hmoved.files overdueHour).mpr (hfile overdueHour hoverdue)
      obtain ⟨i, hi⟩ := Option.ne_none_iff_exists'.mp hsome
      obtain ⟨fs₂, hdone, hdir, -, hhandles, -⟩ :=
        FileWriter.removeOverdue_of_full (hremove.resolve_left (by simp [hoverdue])) hfull hhistory
          ((hmoved.genLogFileName overdueHour).symm ▸ hi)
      obtain ⟨inode', hopen⟩ := hmoved.isOpen
      have hopen₂ := hopen.remove hdir hhandles
      rw [hmoved.genLogFileName] at hdir
      refine ⟨⟨_, fs₂⟩, hrotate.trans hdone, hmoved.fileName, hmoved.retainHours, hmoved.current, rfl,
        ⟨inode', hopen₂.writer, hopen₂.dir⟩, ?_⟩
      intro hour
      show fs₂.dir (s.fa.genLogFileName hour) ≠ none ↔ _
      rw [hdir]
      by_cases hhour : hour = overdueHour
      · simp [hhour, hoverdue]
      · rw [Function.update_of_ne (s.fa.genLogFileName_injective.ne hhour), hmoved.files]
        simp [hoverdue, Ne.symm hhour]

theorem exists_rotated (h : s.fa.Open s.fs inode buf) (hpasses : RotatePasses faults s.fa)
    (hnow : now.genCurrentFileSuffix ≠ s.fa.currentFileSuffix)
    (hremove : overdue s.fa = none ∨ faults.remove = false)
    (hfile : ∀ hour, overdue s.fa = some hour → HasFile s hour) :
    ∃ s', s.fa.rotate faults now s.fs = .ok (s'.fa, s'.fs) ∧ Rotated s s' now := by
  obtain ⟨s', hrotate, hcompleted⟩ := exists_completed h hpasses hnow hremove hfile
  exact ⟨s', hrotate, hcompleted.rotated⟩

theorem length_rotatedTo {fa : FileWriter} (hlength : fa.historyFileSuffix.length ≤ fa.retainHours)
    (curFileSuffix : Nat) :
    (rotatedTo fa curFileSuffix).historyFileSuffix.length ≤ fa.retainHours := by
  unfold rotatedTo
  by_cases hroom : fa.historyFileSuffix.length < fa.retainHours
  · simp only [if_pos hroom, List.length_append, List.length_singleton]
    omega
  · simp only [if_neg hroom, List.length_tail, List.length_append, List.length_singleton]
    omega

/-! ### States that recover, and states that do not -/

theorem exists_later (suffix : Nat) : ∃ now : Hour, suffix < now.genCurrentFileSuffix := by
  refine ⟨{ year := suffix + 1, month := 1, day := 1, hour := 0 }, ?_⟩
  simp only [Hour.genCurrentFileSuffix]
  omega

/-- One failing rotation in a later hour is enough. -/
theorem not_recovers_of_error
    (h : ∀ now : Hour, now.genCurrentFileSuffix ≠ s.fa.currentFileSuffix →
      ∃ failure, s.fa.rotate {} now s.fs = .error failure) : ¬Recovers s := by
  intro hrecovers
  obtain ⟨now, hlater⟩ := exists_later s.fa.currentFileSuffix
  obtain ⟨failure, hfails⟩ := h now (Nat.ne_of_gt hlater)
  obtain ⟨fa, fs, inode, buf, hok, -⟩ := hrecovers now hlater
  rw [hfails] at hok
  cases hok

theorem Good.recovers (h : Good s) : Recovers s := by
  intro now hlater
  obtain ⟨inode, buf, hopen⟩ := h.isOpen
  obtain ⟨s', hrotate, hrotated⟩ := exists_rotated hopen (FileWriter.rotatePasses_noFaults s.fa)
    (Nat.ne_of_gt hlater) (.inr rfl) h.hasFile
  obtain ⟨inode', hopen'⟩ := hrotated.isOpen
  refine ⟨s'.fa, s'.fs, inode', [], hrotate, hopen', ?_⟩
  rw [hrotated.history, hrotated.retainHours]
  exact length_rotatedTo h.retained _

/-- With the current file open and not too many rotated ones, all that matters is the file that the next
rotation has to remove. -/
theorem recovers_iff (hopen : s.fa.Open s.fs inode buf)
    (hretained : s.fa.historyFileSuffix.length ≤ s.fa.retainHours) :
    Recovers s ↔ ∀ hour, overdue s.fa = some hour → HasFile s hour := by
  constructor
  · intro hrecovers hour hoverdue
    by_contra hmissing
    refine not_recovers_of_error ?_ hrecovers
    intro now hnow
    obtain ⟨s', hrotate, hmoved⟩ :=
      exists_moved hopen (FileWriter.rotatePasses_noFaults s.fa) hnow
    exact ⟨_, hrotate.trans (hmoved.removeOverdue_fails hoverdue (.inr hmissing))⟩
  · intro hfile
    exact Good.recovers ⟨⟨inode, buf, hopen⟩, hretained, hfile⟩

/-- A rotation removes one file at most, so a history that is too long stays so. -/
theorem not_recovers_of_long (hopen : s.fa.Open s.fs inode buf)
    (hlong : s.fa.retainHours < s.fa.historyFileSuffix.length) : ¬Recovers s := by
  intro hrecovers
  obtain ⟨now, hlater⟩ := exists_later s.fa.currentFileSuffix
  obtain ⟨fa, fs, inode', buf', hok, -, hlength⟩ := hrecovers now hlater
  by_cases hfile : ∀ hour, overdue s.fa = some hour → HasFile s hour
  · obtain ⟨s', hrotate, hrotated⟩ := exists_rotated hopen (FileWriter.rotatePasses_noFaults s.fa)
      (Nat.ne_of_gt hlater) (.inr rfl) hfile
    cases Except.ok.inj (hok.symm.trans hrotate)
    rw [hrotated.history, hrotated.retainHours, rotatedTo, if_neg (by omega)] at hlength
    simp only [List.length_tail, List.length_append, List.length_singleton] at hlength
    omega
  · obtain ⟨hour, hoverdue, hmissing⟩ := by simpa using hfile
    obtain ⟨s', hrotate, hmoved⟩ :=
      exists_moved hopen (FileWriter.rotatePasses_noFaults s.fa) (Nat.ne_of_gt hlater)
    rw [hrotate, hmoved.removeOverdue_fails hoverdue (.inr hmissing)] at hok
    cases hok

/-- The error of a buffered writer stays, so every flush fails. -/
theorem not_recovers_of_err {b : BufWriter} (hwriter : s.fa.fileBuffWriter = some b) (herr : b.err = true) :
    ¬Recovers s := by
  apply not_recovers_of_error
  intro now hnow
  have hflush : s.fa.flush {} s.fs = .error (.error (s.fa.setBuffWriter b) s.fs) := by
    unfold FileWriter.flush
    simp only [hwriter, BufWriter.flush, herr, if_true, FileWriter.ofBufWriter]
  exact ⟨_, FileWriter.rotate_of_flush_error hnow hwriter hflush⟩

/-- Without a current file there is nothing to rename. -/
theorem not_recovers_of_missing {handle wr : Nat} (hfile : s.fa.file = some handle)
    (hwriter : s.fa.fileBuffWriter = some { wr }) (hdir : s.fs.dir s.fa.fileName = none) :
    ¬Recovers s := by
  apply not_recovers_of_error
  intro now hnow
  have hflush : s.fa.flush {} s.fs = .ok (s.fa.setBuffWriter { wr }, s.fs) := by
    unfold FileWriter.flush
    simp only [hwriter, BufWriter.flush, Bool.false_eq_true, if_false, if_true, FileWriter.ofBufWriter]
  have hrename : (s.fa.setBuffWriter { wr }).renameFile {} now.genCurrentFileSuffix s.fs =
      .error (.error (s.fa.setBuffWriter { wr }) s.fs) := by
    have hfile' : (s.fa.setBuffWriter { wr }).file = some handle := hfile
    have hnone : s.fs.rename (s.fa.setBuffWriter { wr }).fileName
        ((s.fa.setBuffWriter { wr }).genLogFileName (s.fa.setBuffWriter { wr }).currentFileSuffix) = none :=
      FileSystem.rename_of_none hdir
    simp only [FileWriter.renameFile, hfile', hnone, Bool.false_eq_true, if_false]
  exact ⟨_, (FileWriter.rotate_of_flush_ok hnow hwriter hflush).trans (Checked.bind_of_eq_error hrename _)⟩

/-! ### Calls that fail -/

/-- A flush that fails leaves a writer that does not recover. -/
theorem exists_flushFails (hopen : s.fa.Open s.fs inode buf) (hfails : ¬FlushPasses faults s.fa) :
    ∃ s', s.fa.flush faults s.fs = .error (.error s'.fa s'.fs) ∧ ¬Recovers s' := by
  obtain ⟨handle, hfile, hwriter, hhandle⟩ := hopen.writer
  unfold FlushPasses at hfails
  rw [hopen.buffered, not_or] at hfails
  obtain ⟨n, hn⟩ := Option.ne_none_iff_exists'.mp hfails.1
  obtain ⟨b, fs, hflush, herr⟩ := BufWriter.flush_fails hfails.2
  refine ⟨⟨s.fa.setBuffWriter b, fs⟩, ?_, not_recovers_of_err rfl herr⟩
  unfold FileWriter.flush
  rw [hwriter, hn]
  exact congrArg s.fa.ofBufWriter hflush

theorem rotate_renameFails (hopen : s.fa.Open s.fs inode buf) (hflush : FlushPasses faults s.fa)
    (hrename : faults.rename = true) (hnow : now.genCurrentFileSuffix ≠ s.fa.currentFileSuffix) :
    ∃ b, s.fa.rotate faults now s.fs = .error (.error (s.fa.setBuffWriter b) (s.fs.append inode buf)) ∧
      (s.fa.setBuffWriter b).Open (s.fs.append inode buf) inode [] := by
  obtain ⟨handle, hfile, hhandle, hdone, hopen₁⟩ := hopen.flush hflush
  refine ⟨{ wr := handle }, ?_, hopen₁⟩
  have hfails : (s.fa.setBuffWriter { wr := handle }).renameFile faults now.genCurrentFileSuffix
      (s.fs.append inode buf) =
        .error (.error (s.fa.setBuffWriter { wr := handle }) (s.fs.append inode buf)) := by
    have hfile' : (s.fa.setBuffWriter { wr := handle }).file = some handle := hfile
    simp only [FileWriter.renameFile, hfile', if_pos hrename]
  obtain ⟨_, _, hwriter, _⟩ := hopen.writer
  apply (FileWriter.rotate_of_flush_ok hnow hwriter hdone).trans
  exact Checked.bind_of_eq_error hfails _

/-- Once the current file has been moved aside, a call that fails leaves no current file. -/
theorem rotate_createFails (hopen : s.fa.Open s.fs inode buf) (hflush : FlushPasses faults s.fa)
    (hrename : faults.rename = false) (hnow : now.genCurrentFileSuffix ≠ s.fa.currentFileSuffix)
    (hfails : ¬(faults.close = false ∧ FileWriter.CreatePasses faults)) :
    ∃ s', s.fa.rotate faults now s.fs = .error (.error s'.fa s'.fs) ∧ ¬Recovers s' := by
  obtain ⟨handle, fs, hrotate, hfile, hhandle, hdir, -⟩ := hopen.rotate_renamed hflush hrename hnow
  let fa := (s.fa.setBuffWriter { wr := handle }).pushHistory now.genCurrentFileSuffix
  let closed := { fs with handles := Function.update fs.handles handle none }
  have hmissing : closed.dir fa.fileName = none := by
    show fs.dir s.fa.fileName = none
    rw [hdir, Function.update_of_ne (s.fa.genLogFileName_ne _).symm]
    exact Function.update_self _ _ _
  refine ⟨⟨fa, closed⟩, ?_, not_recovers_of_missing hfile rfl hmissing⟩
  rw [hrotate]
  have hfile' : fa.file = some handle := hfile
  cases hclose : faults.close with
  | true =>
      have hcloseFails : fa.closeFile faults fs = .error (.error fa closed) := by
        unfold FileWriter.closeFile
        rw [hfile', Option.bind_some, FileSystem.close_of_open hhandle, hclose]
        rfl
      exact Checked.bind_of_eq_error hcloseFails _
  | false =>
      have hcloseDone : fa.closeFile faults fs = .ok (fa, closed) :=
        FileWriter.closeFile_of_open hclose hfile' hhandle
      have hcreateFails : fa.crateFile faults closed = .error (.error fa closed) := by
        unfold FileWriter.crateFile
        by_cases hmkdir : faults.mkdirAll = some false
        · rw [if_pos hmkdir]
        · have hopenFails : faults.openFile = true := by
            by_contra hpasses
            exact hfails ⟨hclose, hmkdir, Bool.eq_false_iff.mpr hpasses⟩
          rw [if_neg hmkdir, if_pos hopenFails]
      exact (Checked.bind_of_eq_ok hcloseDone _).trans (Checked.bind_of_eq_error hcreateFails _)

/-! ### The steps -/

/-- Bytes that leave the buffer change nothing for the rotations. -/
theorem Good.append (h : Good s) {b : BufWriter} {bytes : Bytes}
    (hopen : (s.fa.setBuffWriter b).Open (s.fs.append inode bytes) inode buf) :
    Good ⟨s.fa.setBuffWriter b, s.fs.append inode bytes⟩ :=
  ⟨⟨inode, buf, hopen⟩, h.retained, h.hasFile⟩

/-- A step from a good state does no harm and leads to a good state, or it leads to one that does not
recover. -/
def Settled (s s' : State) (label : Label) : Prop :=
  Recoverable s label ∧ Good s' ∨ ¬Recoverable s label ∧ ¬Recovers s'

/-- Where the current file is open and not too many rotated ones are kept, the file that the next rotation
removes decides. -/
theorem settled_of_open {label : Label} (hopen : s'.fa.Open s'.fs inode buf)
    (hretained : s'.fa.historyFileSuffix.length ≤ s'.fa.retainHours)
    (hiff : Recoverable s label ↔ ∀ hour, overdue s'.fa = some hour → HasFile s' hour) :
    Settled s s' label := by
  by_cases hfile : ∀ hour, overdue s'.fa = some hour → HasFile s' hour
  · exact .inl ⟨hiff.mpr hfile, ⟨inode, buf, hopen⟩, hretained, hfile⟩
  · exact .inr ⟨mt hiff.mp hfile, mt (recovers_iff hopen hretained).mp hfile⟩

namespace Good

theorem write (h : Good s) (r : Record) :
    ∃ s', step s (.write r) = some s' ∧ Settled s s' (.write r) := by
  obtain ⟨inode, buf, hopen⟩ := h.isOpen
  by_cases haccepts : s.fa.Accepts r
  · obtain ⟨out, buf', b, hwrite, hopen', -⟩ := hopen.write haccepts
    exact ⟨_, congrArg after hwrite, .inl ⟨trivial, h.append hopen'⟩⟩
  · have hwrite : s.fa.write {} r s.fs = .ok (s.fa, s.fs) := if_neg haccepts
    exact ⟨_, congrArg after hwrite, .inl ⟨trivial, h⟩⟩

theorem flush (h : Good s) (faults : Faults) :
    ∃ s', step s (.flush faults) = some s' ∧ Settled s s' (.flush faults) := by
  obtain ⟨inode, buf, hopen⟩ := h.isOpen
  by_cases hflush : FlushPasses faults s.fa
  · obtain ⟨handle, -, -, hdone, hopen'⟩ := hopen.flush hflush
    exact ⟨_, congrArg after hdone, .inl ⟨hflush, h.append hopen'⟩⟩
  · obtain ⟨s', hfails, hs'⟩ := exists_flushFails hopen hflush
    exact ⟨s', congrArg after hfails, .inr ⟨hflush, hs'⟩⟩

theorem delete (h : Good s) (hourSuffix : Nat) :
    ∃ s', step s (.delete hourSuffix) = some s' ∧ Settled s s' (.delete hourSuffix) := by
  obtain ⟨inode, buf, hopen⟩ := h.isOpen
  let s' : State := { s with fs := (s.fs.remove (s.fa.genLogFileName hourSuffix)).getD s.fs }
  obtain ⟨hdir, hhandles⟩ := s.fs.remove_getD (s.fa.genLogFileName hourSuffix)
  refine ⟨s', rfl, ?_⟩
  have hopen' : s'.fa.Open s'.fs inode buf := hopen.remove hdir hhandles
  have hhas : ∀ hour, HasFile s' hour ↔
      hour = s.fa.currentFileSuffix ∨ hour ≠ hourSuffix ∧ HasFile s hour := by
    intro hour
    show hour = s.fa.currentFileSuffix ∨ s'.fs.dir (s.fa.genLogFileName hour) ≠ none ↔ _
    rw [hdir]
    by_cases hhour : hour = hourSuffix
    · simp [hhour]
    · rw [Function.update_of_ne (s.fa.genLogFileName_injective.ne hhour), HasFile]
      tauto
  apply settled_of_open hopen' h.retained
  constructor
  · intro hharmless hour hoverdue
    rw [hhas]
    by_cases hhour : hour = hourSuffix
    · exact .inl (hhour.trans (hharmless (hhour ▸ hoverdue)))
    · exact .inr ⟨hhour, h.hasFile hour hoverdue⟩
  · intro hfile hoverdue
    have := (hhas hourSuffix).mp (hfile hourSuffix hoverdue)
    exact this.resolve_right fun hne => hne.1 rfl

/-- A rotation in a new hour whose calls succeed up to the removal. -/
theorem rotate_passes (h : Good s) (hpasses : RotatePasses faults s.fa)
    (hnow : now.genCurrentFileSuffix ≠ s.fa.currentFileSuffix) :
    ∃ s', Recovery.step s (.rotate faults now) = some s' ∧ Settled s s' (.rotate faults now) := by
  obtain ⟨inode, buf, hopen⟩ := h.isOpen
  by_cases hremove : overdue s.fa = none ∨ faults.remove = false
  · obtain ⟨s', hrotate, hrotated⟩ := exists_rotated hopen hpasses hnow hremove h.hasFile
    obtain ⟨inode', hopen'⟩ := hrotated.isOpen
    have hretained : s'.fa.historyFileSuffix.length ≤ s'.fa.retainHours := by
      rw [hrotated.history, hrotated.retainHours]
      exact length_rotatedTo h.retained _
    refine ⟨s', congrArg after hrotate, settled_of_open hopen' hretained ?_⟩
    simp only [Recoverable, hnow, hpasses, hpasses.flush, hpasses.rename, hremove, hrotated.files,
      hrotated.overdue_eq, Bool.false_eq_true, false_or, true_and]
  · have hfaulty : faults.remove = true := by
      by_contra hok
      exact hremove (.inr (Bool.eq_false_iff.mpr hok))
    obtain ⟨hour, hoverdue⟩ := Option.ne_none_iff_exists'.mp (mt Or.inl hremove)
    obtain ⟨s', hrotate, hmoved⟩ := exists_moved hopen hpasses hnow
    obtain ⟨inode', hopen'⟩ := hmoved.isOpen
    refine ⟨s', congrArg after (hrotate.trans (hmoved.removeOverdue_fails hoverdue (.inl hfaulty))), .inr ?_⟩
    refine ⟨?_, not_recovers_of_long hopen' (hmoved.full hoverdue).2⟩
    simp only [Recoverable, hnow, hpasses.rename, hremove, Bool.false_eq_true, false_or, false_and, and_false,
      not_false_eq_true]

theorem rotate (h : Good s) (faults : Faults) (now : Hour) :
    ∃ s', Recovery.step s (.rotate faults now) = some s' ∧ Settled s s' (.rotate faults now) := by
  obtain ⟨inode, buf, hopen⟩ := h.isOpen
  by_cases hnow : now.genCurrentFileSuffix = s.fa.currentFileSuffix
  · have hrotate : s.fa.rotate faults now s.fs = .ok (s.fa, s.fs) := if_pos hnow
    exact ⟨_, congrArg after hrotate, .inl ⟨.inl hnow, h⟩⟩
  by_cases hflush : FlushPasses faults s.fa
  · cases hrename : faults.rename with
    | true =>
        obtain ⟨b, hfails, hopen'⟩ := rotate_renameFails hopen hflush hrename hnow
        exact ⟨_, congrArg after hfails, .inl ⟨.inr ⟨hflush, .inl hrename⟩, h.append hopen'⟩⟩
    | false =>
        by_cases hcreate : faults.close = false ∧ FileWriter.CreatePasses faults
        · exact h.rotate_passes ⟨hflush, hrename, hcreate.1, hcreate.2⟩ hnow
        · obtain ⟨s', hfails, hs'⟩ := rotate_createFails hopen hflush hrename hnow hcreate
          refine ⟨s', congrArg after hfails, .inr ⟨?_, hs'⟩⟩
          rintro (hsame | ⟨-, hrenames | ⟨hpasses, -⟩⟩)
          · exact hnow hsame
          · rw [hrename] at hrenames
            cases hrenames
          · exact hcreate ⟨hpasses.close, hpasses.create⟩
  · obtain ⟨s', hfails, hs'⟩ := exists_flushFails hopen hflush
    obtain ⟨_, _, hwriter, _⟩ := hopen.writer
    have hrotate := FileWriter.rotate_of_flush_error hnow hwriter hfails
    exact ⟨s', congrArg after hrotate, .inr ⟨fun hharmless => hflush (hharmless.resolve_left hnow).1, hs'⟩⟩

theorem step (h : Good s) (label : Label) :
    ∃ s', Recovery.step s label = some s' ∧ Settled s s' label := by
  cases label with
  | write r => exact h.write r
  | flush faults => exact h.flush faults
  | rotate faults now => exact h.rotate faults now
  | delete hourSuffix => exact h.delete hourSuffix

end Good

/-! ### The runs -/

theorem exists_init (fa₀ : FileWriter) (fs₀ : FileSystem) (start : Hour) :
    ∃ fa fs inode, fa₀.init {} start fs₀ = .ok (fa, fs) ∧ fa.Open fs inode [] ∧
      fa.currentFileSuffix = start.genCurrentFileSuffix ∧ fa.retainHours = fa₀.retainHours ∧
      fa.historyFileSuffix = fa₀.historyFileSuffix := by
  obtain ⟨fs, inode, handle, hcreate, hhandle, hdir, -⟩ :=
    FileWriter.crateFile_spec FileWriter.createPasses_noFaults
      { fa₀ with currentFileSuffix := start.genCurrentFileSuffix } fs₀
  refine ⟨_, fs, inode, hcreate, ⟨⟨handle, rfl, rfl, hhandle⟩, ?_⟩, rfl, rfl, rfl⟩
  show fs.dir fa₀.fileName = some inode
  rw [hdir]
  exact Function.update_self _ _ _

/-- `Init` opens the first file, and there is no rotated one. -/
theorem good_start {fa₀ fa : FileWriter} {fs₀ fs : FileSystem} {start : Hour}
    (hempty : fa₀.historyFileSuffix = []) (hretain : 0 ≤ fa₀.retainHours)
    (hinit : fa₀.init {} start fs₀ = .ok (fa, fs)) : Good (system fa fs).start := by
  obtain ⟨fa', fs', inode, hinit', hopen, -, hretainHours, hhistory⟩ := exists_init fa₀ fs₀ start
  cases Except.ok.inj (hinit.symm.trans hinit')
  rw [hempty] at hhistory
  refine ⟨⟨inode, [], hopen⟩, ?_, ?_⟩
  · show fa.historyFileSuffix.length ≤ fa.retainHours
    rw [hhistory, hretainHours]
    exact hretain
  · intro hour hoverdue
    replace hoverdue : overdue fa = some hour := hoverdue
    unfold overdue at hoverdue
    rw [hhistory] at hoverdue
    split at hoverdue
    · cases hoverdue
    · exact .inl (Option.some.inj hoverdue).symm

/-- In a run whose steps do no harm, every state recovers, and after one more step the writer recovers
exactly if that step does no harm either. -/
theorem recovers_reachableBy {fa₀ fa : FileWriter} {fs₀ fs : FileSystem} {start : Hour}
    (hempty : fa₀.historyFileSuffix = []) (hretain : 0 ≤ fa₀.retainHours)
    (hinit : fa₀.init {} start fs₀ = .ok (fa, fs)) {s : State}
    (hs : (system fa fs).ReachableBy Recoverable s) :
    Recovers s ∧ ∀ label, ∃ s', step s label = some s' ∧ (Recovers s' ↔ Recoverable s label) := by
  have hgood : Good s := by
    induction hs with
    | start => exact good_start hempty hretain hinit
    | step _ hharmless hstep ih =>
        obtain ⟨s', hstep', hsettled⟩ := ih.step _
        cases Option.some.inj (hstep.symm.trans hstep')
        exact (hsettled.resolve_right fun h => h.1 hharmless).2
  refine ⟨hgood.recovers, ?_⟩
  intro label
  obtain ⟨s', hstep, hsettled⟩ := hgood.step label
  refine ⟨s', hstep, ?_⟩
  rcases hsettled with ⟨hharmless, hs'⟩ | ⟨hharm, hs'⟩
  · exact iff_of_true hs'.recovers hharmless
  · exact iff_of_false hs' hharm

def infoLog : FileWriter := { fileName := ascii "logs/log.info", retainHours := 48 }

def tenOClock : Hour := .mayFirst 10

def elevenOClock : Hour := .mayFirst 11

/-- `recovers_reachableBy` after a rotation whose rename failed. -/
theorem recovers_reachableBy_renameFails :
    ∃ fa fs s, infoLog.init {} tenOClock FileSystem.empty = .ok (fa, fs) ∧
      step ⟨fa, fs⟩ (.rotate { rename := true } elevenOClock) = some s ∧ Recovers s := by
  obtain ⟨fa, fs, -, hinit, -⟩ := exists_init infoLog FileSystem.empty tenOClock
  obtain ⟨s, hstep, hrecovers⟩ :=
    (recovers_reachableBy rfl (by decide) hinit .start).2 (.rotate { rename := true } elevenOClock)
  exact ⟨fa, fs, s, hinit, hstep, hrecovers.mpr (.inr ⟨.inl rfl, .inl rfl⟩)⟩

/-- After one `OpenFile` that fails in a rotation the writer does not recover. -/
theorem not_recovers_openFileFails :
    ¬∀ fa fs s, infoLog.init {} tenOClock FileSystem.empty = .ok (fa, fs) →
      (system fa fs).Reachable s → Recovers s := by
  intro hall
  obtain ⟨fa, fs, -, hinit, -, hhour, -⟩ := exists_init infoLog FileSystem.empty tenOClock
  let label := Label.rotate { openFile := true } elevenOClock
  obtain ⟨s, hstep, hsettled⟩ := (good_start rfl (by decide) hinit).step label
  have hreachable : (system fa fs).Reachable s := .step (a := label) .start trivial hstep
  refine (hsettled.resolve_left ?_).2 (hall fa fs s hinit hreachable)
  rintro ⟨hharmless, -⟩
  rcases hharmless with hsame | ⟨-, hrename | ⟨hpasses, -⟩⟩
  · have hsuffix : elevenOClock.genCurrentFileSuffix = tenOClock.genCurrentFileSuffix := hsame.trans hhour
    exact absurd hsuffix (by decide)
  · cases hrename
  · exact absurd hpasses.create.2 (by decide)

end ToyBox.Logger.Recovery
