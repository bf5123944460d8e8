import ToyBox.Library.Checked
import ToyBox.Library.FileSystem
import ToyBox.Logger.Record

/-! The file writer of the logger: a level filter, a buffered writer to the current file, and the rotation
that moves the current file aside when the hour changes. -/

namespace ToyBox.Logger

structure FileWriter where
  logLevelFloor : Int := 0
  logLevelCeiling : Int := 0
  fileName : Bytes := []
  /-- The handle of the open file. -/
  file : Option Nat := none
  fileBuffWriter : Option BufWriter := none
  currentFileSuffix : Nat := 0
  retainHours : Int := 0
  historyFileSuffix : List Nat := []

/-- The calls to the operating system that fail within one method: how many bytes a failing `write` still
writes, whether the error of a failing `mkdir` says that the directory exists. -/
structure Faults where
  write : Option Nat := none
  rename : Bool := false
  close : Bool := false
  mkdirAll : Option Bool := none
  openFile : Bool := false
  remove : Bool := false

namespace FileWriter

/-- What a method that does not return nil leaves behind. -/
inductive Failure
  | error (fa : FileWriter) (fs : FileSystem)
  | panic

/-- A method returns nil with the writer and the file system after it, or fails. -/
abbrev Result := Except Failure (FileWriter × FileSystem)

/-- What a method leaves behind, whether it returns nil or an error; nothing if it panics. -/
def stateOf : Result → Option (FileWriter × FileSystem)
  | .ok state => some state
  | .error (.error fa fs) => some (fa, fs)
  | .error .panic => none

def newFileWriter : FileWriter := {}

def setFileName (fileName : Bytes) (fa : FileWriter) : FileWriter := { fa with fileName }

def setLogLevelFloor (logLevel : Int) (fa : FileWriter) : FileWriter :=
  { fa with logLevelFloor := logLevel }

def setLogLevelCeiling (logLevel : Int) (fa : FileWriter) : FileWriter :=
  { fa with logLevelCeiling := logLevel }

def setRetainHours (retainHours : Int) (fa : FileWriter) : FileWriter := { fa with retainHours }

/-- The bytes that are still in the buffer. -/
def buffered (fa : FileWriter) : Bytes := (fa.fileBuffWriter.map BufWriter.buf).getD []

def bufferSize : Nat := 8192

def setBuffWriter (fa : FileWriter) (b : BufWriter) : FileWriter := { fa with fileBuffWriter := some b }

/-- The file has been opened under a new handle. -/
def setFile (fa : FileWriter) (handle : Nat) : FileWriter :=
  { fa with file := some handle, fileBuffWriter := some { wr := handle } }

/-- The current file has been moved aside. -/
def pushHistory (fa : FileWriter) (curFileSuffix : Nat) : FileWriter :=
  { fa with
    historyFileSuffix := fa.historyFileSuffix ++ [fa.currentFileSuffix]
    currentFileSuffix := curFileSuffix }

/-- What a call of the buffered writer means for the file writer. -/
def ofBufWriter (fa : FileWriter) : BufWriter.Result → Result
  | .ok (b, fs) => .ok (fa.setBuffWriter b, fs)
  | .error (b, fs) => .error (.error (fa.setBuffWriter b) fs)

def genLogFileName (fa : FileWriter) (hourSuffix : Nat) : Bytes :=
  fa.fileName ++ ascii "." ++ decimal hourSuffix

/-- Whether a record passes the level filter. -/
def Accepts (fa : FileWriter) (r : Record) : Prop :=
  ¬(r.logLevel.toInt < fa.logLevelFloor ∨ r.logLevel.toInt > fa.logLevelCeiling)

instance (fa : FileWriter) (r : Record) : Decidable (fa.Accepts r) := by
  unfold Accepts
  infer_instance

def crateFile (faults : Faults) (fa : FileWriter) (fs : FileSystem) : Result :=
  if faults.mkdirAll = some false then .error (.error fa fs)
  else if faults.openFile then .error (.error fa fs)
  else
    let (fs, file) := fs.openFile fa.fileName
    .ok (fa.setFile file, fs)

def init (faults : Faults) (now : Hour) (fa : FileWriter) (fs : FileSystem) : Result :=
  crateFile faults { fa with currentFileSuffix := now.genCurrentFileSuffix } fs

def write (faults : Faults) (r : Record) (fa : FileWriter) (fs : FileSystem) : Result :=
  if fa.Accepts r then
    match fa.fileBuffWriter with
    | none => .error (.error fa fs)
    | some b => fa.ofBufWriter (b.writeString bufferSize faults.write r.string fs)
  else .ok (fa, fs)

def flush (faults : Faults) (fa : FileWriter) (fs : FileSystem) : Result :=
  match fa.fileBuffWriter with
  | none => .error .panic
  | some b => fa.ofBufWriter (b.flush faults.write fs)

/-! ### Rotation -/

/-- The current file is moved aside under the suffix of its hour. -/
def renameFile (faults : Faults) (curFileSuffix : Nat) (fa : FileWriter) (fs : FileSystem) : Result :=
  match fa.file with
  | none => .ok (fa, fs)
  | some _ =>
      if faults.rename then .error (.error fa fs)
      else
        match fs.rename fa.fileName (fa.genLogFileName fa.currentFileSuffix) with
        | none => .error (.error fa fs)
        | some fs => .ok (fa.pushHistory curFileSuffix, fs)

/-- A `close` that fails still gives the handle up. -/
def closeFile (faults : Faults) (fa : FileWriter) (fs : FileSystem) : Result :=
  match fa.file.bind fs.close with
  | none => .error (.error fa fs)
  | some fs => if faults.close then .error (.error fa fs) else .ok (fa, fs)

/-- The oldest rotated file goes when there are more of them than hours to retain. -/
def removeOverdue (faults : Faults) (fa : FileWriter) (fs : FileSystem) : Result :=
  if fa.historyFileSuffix.length > fa.retainHours then
    match fa.historyFileSuffix with
    | [] => .error .panic
    | overdue :: rest =>
        if faults.remove then .error (.error fa fs)
        else
          match fs.remove (fa.genLogFileName overdue) with
          | none => .error (.error fa fs)
          | some fs => .ok ({ fa with historyFileSuffix := rest }, fs)
  else .ok (fa, fs)

def rotate (faults : Faults) (now : Hour) (fa : FileWriter) (fs : FileSystem) : Result :=
  let curFileSuffix := now.genCurrentFileSuffix
  if curFileSuffix = fa.currentFileSuffix then .ok (fa, fs)
  else do
    let (fa, fs) ← if fa.fileBuffWriter.isSome then fa.flush faults fs else .ok (fa, fs)
    let (fa, fs) ← fa.renameFile faults curFileSuffix fs
    let (fa, fs) ← fa.closeFile faults fs
    let (fa, fs) ← fa.crateFile faults fs
    fa.removeOverdue faults fs

/-! ### The file names -/

theorem genLogFileName_ne (fa : FileWriter) (suffix : Nat) : fa.genLogFileName suffix ≠ fa.fileName := by
  intro h
  have := congrArg List.length h
  simp [genLogFileName, ascii] at this

/-- The digits of the hour are what follows the last point of a name. -/
theorem takeWhile_reverse_genLogFileName (fa : FileWriter) (suffix : Nat) :
    (fa.genLogFileName suffix).reverse.takeWhile (· ≠ 46) = (decimal suffix).reverse := by
  have hdigits : ∀ b ∈ (decimal suffix).reverse, decide (b ≠ (46 : UInt8)) = true := by
    intro b hb
    have := (isDigit_of_mem_decimal (List.mem_reverse.mp hb)).1
    simp only [decide_eq_true_eq]
    rintro rfl
    simp at this
  have hpoint : (ascii ".").reverse = [46] := by decide
  rw [genLogFileName, List.reverse_append, List.reverse_append, List.takeWhile_append_of_pos hdigits, hpoint]
  simp

/-- A name fixes the hour and the name of the current file. -/
theorem genLogFileName_eq_iff {fa fa' : FileWriter} {suffix suffix' : Nat} :
    fa.genLogFileName suffix = fa'.genLogFileName suffix' ↔
      fa.fileName = fa'.fileName ∧ suffix = suffix' := by
  constructor
  · intro h
    have hdigits := congrArg (fun name => name.reverse.takeWhile (· ≠ (46 : UInt8))) h
    simp only [takeWhile_reverse_genLogFileName, List.reverse_inj] at hdigits
    obtain rfl := decimal_injective hdigits
    exact ⟨List.append_cancel_right (List.append_cancel_right h), rfl⟩
  · rintro ⟨hname, rfl⟩
    rw [genLogFileName, hname, genLogFileName]

theorem genLogFileName_injective (fa : FileWriter) : Function.Injective fa.genLogFileName :=
  fun _ _ h => decimal_injective (List.append_cancel_left h)

/-! ### What the methods do to an open file -/

/-- The current file is open, with some bytes buffered. -/
structure Open (fa : FileWriter) (fs : FileSystem) (inode : Nat) (buf : Bytes) : Prop where
  writer : ∃ handle, fa.file = some handle ∧ fa.fileBuffWriter = some { wr := handle, buf } ∧
    fs.handles handle = some inode
  dir : fs.dir fa.fileName = some inode

/-- Nothing that fails keeps a flush from returning nil. -/
def FlushPasses (faults : Faults) (fa : FileWriter) : Prop := faults.write = none ∨ fa.buffered = []

/-- Nothing that fails keeps `crateFile` from returning nil. -/
def CreatePasses (faults : Faults) : Prop := faults.mkdirAll ≠ some false ∧ faults.openFile = false

/-- Nothing that fails keeps a rotation from getting to the removal. -/
structure RotatePasses (faults : Faults) (fa : FileWriter) : Prop where
  flush : FlushPasses faults fa
  rename : faults.rename = false
  close : faults.close = false
  create : CreatePasses faults

theorem flushPasses_noFaults (fa : FileWriter) : FlushPasses {} fa := .inl rfl

theorem createPasses_noFaults : CreatePasses {} := ⟨by decide, rfl⟩

theorem rotatePasses_noFaults (fa : FileWriter) : RotatePasses {} fa :=
  ⟨flushPasses_noFaults fa, rfl, rfl, createPasses_noFaults⟩

variable {faults : Faults} {fa : FileWriter} {fs : FileSystem} {inode : Nat} {buf : Bytes}

theorem Open.buffered (h : fa.Open fs inode buf) : fa.buffered = buf := by
  obtain ⟨handle, _, hwriter, _⟩ := h.writer
  rw [FileWriter.buffered, hwriter]
  rfl

/-- A file is opened at the name, with nothing buffered. -/
theorem crateFile_spec (hcreate : CreatePasses faults) (fa : FileWriter) (fs : FileSystem) :
    ∃ fs' inode' handle, crateFile faults fa fs = .ok (fa.setFile handle, fs') ∧
      fs'.handles handle = some inode' ∧
      fs'.dir = Function.update fs.dir fa.fileName (some inode') ∧
      fs'.data inode' = fs.content fa.fileName ∧ (∀ i < fs.nextInode, fs'.data i = fs.data i) ∧
      fs'.removed = fs.removed ∧ fs'.replaced = fs.replaced ∧
      (fs.dir fa.fileName = none → inode' = fs.nextInode) := by
  obtain ⟨fs', handle, inode', hopen, hdir, hhandle, hdata, hkeep, hremoved, hreplaced, hnew⟩ :=
    fs.openFile_spec fa.fileName
  refine ⟨fs', inode', handle, ?_, hhandle, hdir, hdata, hkeep, hremoved, hreplaced, hnew⟩
  unfold crateFile
  rw [if_neg hcreate.1, if_neg (by simp [hcreate.2]), hopen]

/-- A written string goes to the file and the buffer, behind what is there. -/
theorem Open.write (h : fa.Open fs inode buf) {r : Record} (haccepts : fa.Accepts r) :
    ∃ out buf' b, write {} r fa fs = .ok (fa.setBuffWriter b, fs.append inode out) ∧
      (fa.setBuffWriter b).Open (fs.append inode out) inode buf' ∧ out ++ buf' = buf ++ r.string := by
  obtain ⟨handle, hfile, hwriter, hhandle⟩ := h.writer
  obtain ⟨out, buf', hwrite, hbytes⟩ :=
    BufWriter.writeString_of_open hhandle bufferSize r.string buf
  refine ⟨out, buf', { wr := handle, buf := buf' }, ?_, ⟨⟨handle, hfile, rfl, hhandle⟩, h.dir⟩, hbytes⟩
  unfold FileWriter.write
  simp only [if_pos haccepts, hwriter, hwrite, ofBufWriter]

theorem Open.flush (h : fa.Open fs inode buf) (hflush : FlushPasses faults fa) :
    ∃ handle, fa.file = some handle ∧ fs.handles handle = some inode ∧
      flush faults fa fs = .ok (fa.setBuffWriter { wr := handle }, fs.append inode buf) ∧
      (fa.setBuffWriter { wr := handle }).Open (fs.append inode buf) inode [] := by
  obtain ⟨handle, hfile, hwriter, hhandle⟩ := h.writer
  refine ⟨handle, hfile, hhandle, ?_, ⟨⟨handle, hfile, rfl, hhandle⟩, h.dir⟩⟩
  unfold FlushPasses at hflush
  rw [h.buffered] at hflush
  unfold FileWriter.flush
  simp only [hwriter, BufWriter.flush_of_open hhandle hflush, ofBufWriter]

theorem renameFile_of_dir {handle : Nat} (hrename : faults.rename = false)
    (hfile : fa.file = some handle) (hdir : fs.dir fa.fileName = some inode) (curFileSuffix : Nat) :
    ∃ fs', renameFile faults curFileSuffix fa fs = .ok (fa.pushHistory curFileSuffix, fs') ∧
      fs'.dir = Function.update (Function.update fs.dir fa.fileName none)
        (fa.genLogFileName fa.currentFileSuffix) (some inode) ∧
      fs'.data = fs.data ∧ fs'.nextInode = fs.nextInode ∧ fs'.handles = fs.handles ∧
      fs'.removed = fs.removed ∧ fs'.replaced = fs.replaced ++
        ((fs.dir (fa.genLogFileName fa.currentFileSuffix)).map fs.data).toList := by
  obtain ⟨fs', hfs, hdir', hkeep⟩ :=
    FileSystem.rename_of_dir hdir (fa.genLogFileName_ne fa.currentFileSuffix).symm
  refine ⟨fs', ?_, hdir', hkeep⟩
  unfold renameFile
  simp only [hfile, hrename, hfs, Bool.false_eq_true, if_false]

theorem closeFile_of_open {handle : Nat} (hclose : faults.close = false) (hfile : fa.file = some handle)
    (hopen : fs.handles handle = some inode) :
    closeFile faults fa fs =
      .ok (fa, { fs with handles := Function.update fs.handles handle none }) := by
  unfold closeFile
  rw [hfile, Option.bind_some, FileSystem.close_of_open hopen, hclose]
  rfl

/-- A rotation in a new hour ends where its flush fails. -/
theorem rotate_of_flush_error {now : Hour} {b : BufWriter} {failure : Failure}
    (hnow : now.genCurrentFileSuffix ≠ fa.currentFileSuffix) (hwriter : fa.fileBuffWriter = some b)
    (hflush : fa.flush faults fs = .error failure) : fa.rotate faults now fs = .error failure := by
  unfold FileWriter.rotate
  rw [if_neg hnow, if_pos (Option.isSome_of_eq_some hwriter)]
  exact Checked.bind_of_eq_error hflush _

/-- Otherwise it goes on with the rename. -/
theorem rotate_of_flush_ok {now : Hour} {b : BufWriter} {fa₁ : FileWriter} {fs₁ : FileSystem}
    (hnow : now.genCurrentFileSuffix ≠ fa.currentFileSuffix) (hwriter : fa.fileBuffWriter = some b)
    (hflush : fa.flush faults fs = .ok (fa₁, fs₁)) :
    fa.rotate faults now fs = (do
      let (fa, fs) ← fa₁.renameFile faults now.genCurrentFileSuffix fs₁
      let (fa, fs) ← fa.closeFile faults fs
      let (fa, fs) ← fa.crateFile faults fs
      fa.removeOverdue faults fs) := by
  unfold FileWriter.rotate
  rw [if_neg hnow, if_pos (Option.isSome_of_eq_some hwriter)]
  exact Checked.bind_of_eq_ok hflush _

/-- A rotation in a new hour, up to the rename: the buffer is empty, and there is no current file. -/
theorem Open.rotate_renamed (h : fa.Open fs inode buf) (hflush : FlushPasses faults fa)
    (hrename : faults.rename = false) {now : Hour}
    (hnow : now.genCurrentFileSuffix ≠ fa.currentFileSuffix) :
    ∃ handle fs',
      let fa' := (fa.setBuffWriter { wr := handle }).pushHistory now.genCurrentFileSuffix
      rotate faults now fa fs = (do
        let (fa, fs) ← fa'.closeFile faults fs'
        let (fa, fs) ← fa.crateFile faults fs
        fa.removeOverdue faults fs) ∧
      fa.file = some handle ∧ fs'.handles handle = some inode ∧
      fs'.dir = Function.update (Function.update fs.dir fa.fileName none)
        (fa.genLogFileName fa.currentFileSuffix) (some inode) ∧
      fs'.data = (fs.append inode buf).data ∧ fs'.nextInode = fs.nextInode ∧
      fs'.removed = fs.removed := by
  obtain ⟨handle, hfile, hhandle, hdone, hopen₁⟩ := h.flush hflush
  let fa₁ := fa.setBuffWriter { wr := handle }
  have hfile₁ : fa₁.file = some handle := hfile
  obtain ⟨fs₂, hmoved, hdir₂, hdata₂, hnext₂, hhandles₂, hremoved₂, -⟩ :=
    renameFile_of_dir hrename hfile₁ hopen₁.dir now.genCurrentFileSuffix
  refine ⟨handle, fs₂, ?_, hfile, hhandles₂ ▸ hhandle, hdir₂, hdata₂, hnext₂, hremoved₂⟩
  obtain ⟨_, _, hwriter, _⟩ := h.writer
  apply (rotate_of_flush_ok hnow hwriter hdone).trans
  exact Checked.bind_of_eq_ok hmoved _

/-- A rotation in a new hour, up to the removal: the file of the old hour has the old bytes under its new
name, and an empty file is open at the file name. -/
theorem Open.rotate (h : fa.Open fs inode buf) (hpasses : RotatePasses faults fa) {now : Hour}
    (hnow : now.genCurrentFileSuffix ≠ fa.currentFileSuffix) :
    ∃ b handle fs',
      let fa' := ((fa.setBuffWriter b).pushHistory now.genCurrentFileSuffix).setFile handle
      rotate faults now fa fs = removeOverdue faults fa' fs' ∧ fa'.Open fs' fs.nextInode [] ∧
      fs'.dir = Function.update
        (Function.update fs.dir (fa.genLogFileName fa.currentFileSuffix) (some inode))
        fa.fileName (some fs.nextInode) ∧
      fs'.data fs.nextInode = [] ∧ fs'.data inode = fs.data inode ++ buf ∧
      (∀ i < fs.nextInode, i ≠ inode → fs'.data i = fs.data i) ∧
      fs'.removed = fs.removed := by
  obtain ⟨handle, fs₂, hrotate, hfile, hhandle, hdir₂, hdata₂, hnext₂, hremoved₂⟩ :=
    h.rotate_renamed hpasses.flush hpasses.rename hnow
  let fa₂ := (fa.setBuffWriter { wr := handle }).pushHistory now.genCurrentFileSuffix
  have hfile₂ : fa₂.file = some handle := hfile
  let fs₃ := { fs₂ with handles := Function.update fs₂.handles handle none }
  have hclose : closeFile faults fa₂ fs₂ = .ok (fa₂, fs₃) :=
    closeFile_of_open hpasses.close hfile₂ hhandle
  obtain ⟨fs₄, inode', handle', hcreate, hhandle₄, hdir₄, hempty, hdata₄, hremoved₄, -, hnew⟩ :=
    crateFile_spec hpasses.create fa₂ fs₃
  have hname : fs₃.dir fa.fileName = none := by
    show fs₂.dir fa.fileName = none
    rw [hdir₂, Function.update_of_ne (genLogFileName_ne _ _).symm]
    exact Function.update_self _ _ _
  obtain rfl : inode' = fs.nextInode := (hnew hname).trans hnext₂
  have hlt : inode < fs.nextInode := fs.dir_lt _ _ h.dir
  refine ⟨{ wr := handle }, handle', fs₄, ?_, ⟨⟨handle', rfl, rfl, hhandle₄⟩, ?_⟩, ?_, ?_, ?_, ?_,
    hremoved₄.trans hremoved₂⟩
  · apply hrotate.trans
    apply (Checked.bind_of_eq_ok hclose _).trans
    exact Checked.bind_of_eq_ok hcreate _
  · rw [hdir₄]
    exact Function.update_self _ _ _
  · calc
      fs₄.dir = Function.update fs₂.dir fa.fileName (some fs.nextInode) := hdir₄
      _ = _ := by
        rw [hdir₂, Function.update_comm (genLogFileName_ne _ _), Function.update_idem,
          Function.update_comm (genLogFileName_ne _ _).symm]
  · rw [hempty, FileSystem.content]
    exact congrArg (fun i => (i.map fs₃.data).getD []) hname
  · rw [hdata₄ inode (hnext₂ ▸ hlt)]
    show fs₂.data inode = _
    rw [hdata₂]
    exact Function.update_self _ _ _
  · intro i hi hne
    rw [hdata₄ i (hnext₂ ▸ hi)]
    show fs₂.data i = _
    rw [hdata₂]
    exact Function.update_of_ne hne _ _

/-- The current file stays open when a rotated one goes. -/
theorem Open.remove (h : fa.Open fs inode buf) {fs' : FileSystem} {suffix : Nat}
    (hdir : fs'.dir = Function.update fs.dir (fa.genLogFileName suffix) none)
    (hhandles : fs'.handles = fs.handles) : fa.Open fs' inode buf := by
  refine ⟨hhandles ▸ h.writer, ?_⟩
  rw [hdir, Function.update_of_ne (fa.genLogFileName_ne suffix).symm, h.dir]

theorem removeOverdue_of_room (hroom : ¬fa.historyFileSuffix.length > fa.retainHours) :
    removeOverdue faults fa fs = .ok (fa, fs) :=
  if_neg hroom

theorem removeOverdue_of_full {overdue : Nat} {rest : List Nat} (hremove : faults.remove = false)
    (hfull : fa.historyFileSuffix.length > fa.retainHours)
    (hhistory : fa.historyFileSuffix = overdue :: rest)
    (hdir : fs.dir (fa.genLogFileName overdue) = some inode) :
    ∃ fs', removeOverdue faults fa fs = .ok ({ fa with historyFileSuffix := rest }, fs') ∧
      fs'.dir = Function.update fs.dir (fa.genLogFileName overdue) none ∧ fs'.data = fs.data ∧
      fs'.handles = fs.handles ∧ fs'.removed = fs.removed ++ [fs.data inode] ∧
      fs'.replaced = fs.replaced := by
  obtain ⟨fs', hfs, hfs'⟩ := FileSystem.remove_of_dir hdir
  refine ⟨fs', ?_, hfs'⟩
  unfold removeOverdue
  rw [if_pos hfull, hhistory]
  simp only [hremove, Bool.false_eq_true, if_false, hfs]

end FileWriter

end ToyBox.Logger
