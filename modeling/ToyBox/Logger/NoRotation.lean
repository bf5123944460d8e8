import ToyBox.Logger.Rotation

/-! Runs of a file writer that is told to retain -1 hours, which the configuration documents as no rotation.
`Rotate` does not ask for that value: in a new hour it moves the file aside and then finds one rotated file
too many, so that it removes what it has just moved. -/

namespace ToyBox.Logger.NoRotation

open Rotation

/-- The writer, the file system and the records for which `Write` has returned nil. -/
structure State where
  fa : FileWriter
  fs : FileSystem
  written : List Record := []

inductive Label
  | init (now : Hour)
  | write (r : Record)
  | flush
  | rotate (now : Hour)

/-- A call that returns nil, at any hour of the clock; there is no step for one that fails. -/
def step (s : State) : Label → Option State
  | .init now => (s.fa.init {} now s.fs).toOption.map fun (fa, fs) => { s with fa, fs }
  | .write r =>
      (s.fa.write {} r s.fs).toOption.map fun (fa, fs) => { fa, fs, written := s.written ++ [r] }
  | .flush => (s.fa.flush {} s.fs).toOption.map fun (fa, fs) => { s with fa, fs }
  | .rotate now => (s.fa.rotate {} now s.fs).toOption.map fun (fa, fs) => { s with fa, fs }

/-- The runs of a writer that has been configured. -/
def system (fa : FileWriter) (fs : FileSystem) : TransitionSystem State Label where
  start := { fa, fs }
  step

/-- No file is renamed or removed, and the current file with the buffer behind it holds what it held at
first and then the accepted records. -/
structure NotRotated (fa₀ : FileWriter) (fs₀ : FileSystem) (s : State) : Prop where
  others : ∀ name, name ≠ fa₀.fileName → s.fs.dir name = fs₀.dir name
  current : ∀ inode, fs₀.dir fa₀.fileName = some inode → s.fs.dir fa₀.fileName = some inode
  removed : s.fs.removed = fs₀.removed
  replaced : s.fs.replaced = fs₀.replaced
  bytes : s.fs.content fa₀.fileName ++ s.fa.buffered =
    fs₀.content fa₀.fileName ++ (s.written.filter (InRange fa₀)).flatMap Record.string

/-- A rotation finds the hour in which the writer is, and no `Init` comes while bytes are buffered. -/
def InHour (s : State) : Label → Prop
  | .init _ => s.fa.buffered = []
  | .rotate now => now.genCurrentFileSuffix = s.fa.currentFileSuffix
  | _ => True

/-- The writer is as `NewFileWriter` has made it, or its file is open; nothing has been rotated. -/
structure Usable (fa₀ : FileWriter) (s : State) : Prop where
  config : SameConfig fa₀ s.fa
  history : s.fa.historyFileSuffix = []
  file : (s.fa.file = none ∧ s.fa.fileBuffWriter = none) ∨ ∃ inode buf, s.fa.Open s.fs inode buf

variable {fa₀ : FileWriter} {fs₀ : FileSystem} {s s' : State}

/-- `open` on a file that is there changes no name. -/
theorem openFile_dir {fs : FileSystem} {name : Bytes} {inode : Nat} (h : fs.dir name = some inode) :
    (fs.openFile name).1.dir = fs.dir := by
  unfold FileSystem.openFile
  split
  · rfl
  · rename_i hnone
    rw [h] at hnone
    cases hnone

/-- Bytes that go to the open file are no rotation. -/
theorem NotRotated.append (h : NotRotated fa₀ fs₀ s) {fa : FileWriter} {inode : Nat} {out : Bytes}
    {written : List Record} (hdir : s.fs.dir fa₀.fileName = some inode)
    (hbytes : s.fs.data inode ++ out ++ fa.buffered =
      fs₀.content fa₀.fileName ++ (written.filter (InRange fa₀)).flatMap Record.string) :
    NotRotated fa₀ fs₀ { fa, fs := s.fs.append inode out, written } where
  others := h.others
  current := h.current
  removed := h.removed
  replaced := h.replaced
  bytes := by
    have hdir' : (s.fs.append inode out).dir fa₀.fileName = some inode := hdir
    have hcontent : (s.fs.append inode out).content fa₀.fileName = s.fs.data inode ++ out :=
      (FileSystem.content_of_dir hdir').trans (Function.update_self _ _ _)
    rw [← hbytes, ← hcontent]

/-- The content of the open file and what is buffered. -/
theorem NotRotated.open (h : NotRotated fa₀ fs₀ s) {inode : Nat} {buf : Bytes}
    (hdir : s.fs.dir fa₀.fileName = some inode) (hopen : s.fa.Open s.fs inode buf) :
    s.fs.data inode ++ buf =
      fs₀.content fa₀.fileName ++ (s.written.filter (InRange fa₀)).flatMap Record.string := by
  rw [← h.bytes, FileSystem.content_of_dir hdir, hopen.buffered]

namespace Usable

/-- Whatever has been buffered is lost with a second `Init`. -/
theorem init (hs : Usable fa₀ s) (hgood : NotRotated fa₀ fs₀ s) (now : Hour) :
    ∃ s', step s (.init now) = some s' ∧ Usable fa₀ s' ∧
      (NotRotated fa₀ fs₀ s' ↔ InHour s (.init now)) := by
  obtain ⟨fs', inode, handle, hcreate, hhandle, hdir, hdata, _, hremoved, hreplaced, _⟩ :=
    FileWriter.crateFile_spec FileWriter.createPasses_noFaults
      { s.fa with currentFileSuffix := now.genCurrentFileSuffix } s.fs
  have hinit : s.fa.init {} now s.fs = .ok (_, fs') := hcreate
  have hname : s.fa.fileName = fa₀.fileName := hs.config.fileName
  replace hdir : fs'.dir = Function.update s.fs.dir fa₀.fileName (some inode) := hname ▸ hdir
  replace hdata : fs'.data inode = s.fs.content fa₀.fileName := hname ▸ hdata
  have hcurrent : fs'.dir fa₀.fileName = some inode := by rw [hdir, Function.update_self]
  have hcontent : fs'.content fa₀.fileName = s.fs.content fa₀.fileName := by
    rw [FileSystem.content_of_dir hcurrent, hdata]
  refine ⟨{ s with fa := _, fs := fs' }, by rw [step, hinit]; rfl, ?_, fun h => ?_, fun hempty => ?_⟩
  · exact {
      config := ⟨hs.config.fileName, hs.config.floor, hs.config.ceiling, hs.config.retainHours⟩
      history := hs.history
      file := .inr ⟨inode, [], ⟨⟨handle, rfl, rfl, hhandle⟩, hname ▸ hcurrent⟩⟩ }
  · have hbytes : fs'.content fa₀.fileName ++ [] = _ := h.bytes
    rw [← hgood.bytes, hcontent, List.append_right_inj] at hbytes
    exact hbytes.symm
  · replace hempty : s.fa.buffered = [] := hempty
    exact {
      others := fun name hne => by
        show fs'.dir name = _
        rw [hdir, Function.update_of_ne hne, hgood.others name hne]
      current := fun inode₀ h₀ => by
        have hthere := hgood.current inode₀ h₀
        have hopen : (s.fs.openFile s.fa.fileName).1 = fs' := congrArg Prod.snd (Except.ok.inj hinit)
        show fs'.dir _ = _
        rw [← hopen, hname, openFile_dir hthere, hthere]
      removed := hremoved.trans hgood.removed
      replaced := hreplaced.trans hgood.replaced
      bytes := by
        show fs'.content _ ++ [] = _
        rw [hcontent, ← hgood.bytes, hempty] }

theorem write (hs : Usable fa₀ s) (hgood : NotRotated fa₀ fs₀ s) {r : Record}
    (hstep : step s (.write r) = some s') : Usable fa₀ s' ∧ NotRotated fa₀ fs₀ s' := by
  have hfilter : ((s.written ++ [r]).filter (InRange fa₀)).flatMap Record.string =
      (s.written.filter (InRange fa₀)).flatMap Record.string ++ bytesOf fa₀ r := by
    rw [← flatMap_bytesOf, ← flatMap_bytesOf, List.flatMap_append, List.flatMap_singleton]
  by_cases haccepts : s.fa.Accepts r
  · rcases hs.file with ⟨_, hwriter⟩ | ⟨inode, buf, hopen⟩
    · -- `Write` fails before `Init`
      simp [step, FileWriter.write, haccepts, hwriter, Except.toOption] at hstep
    · obtain ⟨out, buf', b, hwrite, hopen', hout⟩ := hopen.write haccepts
      have hdir : s.fs.dir fa₀.fileName = some inode := hs.config.fileName ▸ hopen.dir
      rw [step, hwrite] at hstep
      cases hstep
      refine ⟨⟨⟨hs.config.fileName, hs.config.floor, hs.config.ceiling, hs.config.retainHours⟩, hs.history,
        .inr ⟨inode, buf', hopen'⟩⟩, hgood.append hdir ?_⟩
      rw [hfilter, bytesOf, if_pos ((hs.config.accepts_iff r).mp haccepts), ← List.append_assoc,
        ← hgood.open hdir hopen, hopen'.buffered, List.append_assoc, List.append_assoc, hout]
  · have hwrite : s.fa.write {} r s.fs = .ok (s.fa, s.fs) := if_neg haccepts
    rw [step, hwrite] at hstep
    cases hstep
    refine ⟨⟨hs.config, hs.history, hs.file⟩, { hgood with bytes := ?_ }⟩
    rw [hfilter, bytesOf, if_neg (mt (hs.config.accepts_iff r).mpr haccepts), List.append_nil]
    exact hgood.bytes

theorem flush (hs : Usable fa₀ s) (hgood : NotRotated fa₀ fs₀ s) (hstep : step s .flush = some s') :
    Usable fa₀ s' ∧ NotRotated fa₀ fs₀ s' := by
  rcases hs.file with ⟨_, hwriter⟩ | ⟨inode, buf, hopen⟩
  · -- a nil pointer before `Init`
    simp [step, FileWriter.flush, hwriter, Except.toOption] at hstep
  · obtain ⟨handle, _, _, hflush, hopen'⟩ := hopen.flush (FileWriter.flushPasses_noFaults s.fa)
    have hdir : s.fs.dir fa₀.fileName = some inode := hs.config.fileName ▸ hopen.dir
    rw [step, hflush] at hstep
    cases hstep
    refine ⟨⟨⟨hs.config.fileName, hs.config.floor, hs.config.ceiling, hs.config.retainHours⟩, hs.history,
      .inr ⟨inode, [], hopen'⟩⟩, hgood.append hdir ?_⟩
    rw [hopen'.buffered, List.append_nil, hgood.open hdir hopen]

/-- In the hour of the writer nothing is done. -/
theorem rotate_same (hs : Usable fa₀ s) (hgood : NotRotated fa₀ fs₀ s) {now : Hour}
    (hnow : now.genCurrentFileSuffix = s.fa.currentFileSuffix) (hstep : step s (.rotate now) = some s') :
    Usable fa₀ s' ∧ NotRotated fa₀ fs₀ s' := by
  have hrotate : s.fa.rotate {} now s.fs = .ok (s.fa, s.fs) := if_pos hnow
  rw [step, hrotate] at hstep
  cases hstep
  exact ⟨hs, hgood⟩

/-- In another hour the file of the writer is gone. -/
theorem rotate_other (hretain : fa₀.retainHours = -1) (hs : Usable fa₀ s) {now : Hour}
    (hnow : now.genCurrentFileSuffix ≠ s.fa.currentFileSuffix) (hstep : step s (.rotate now) = some s') :
    ∃ inode buf, s.fa.Open s.fs inode buf ∧ s'.fs.removed = s.fs.removed ++ [s.fs.data inode ++ buf] ∧
      s'.fs.content fa₀.fileName = [] ∧ s'.fa.buffered = [] := by
  rcases hs.file with ⟨hfile, hwriter⟩ | ⟨inode, buf, hopen⟩
  · -- `Close` on a nil file fails
    have hrename : s.fa.renameFile {} now.genCurrentFileSuffix s.fs = .ok (s.fa, s.fs) := by
      simp [FileWriter.renameFile, hfile]
    have hclose : s.fa.closeFile {} s.fs = .error (.error s.fa s.fs) := by
      simp [FileWriter.closeFile, hfile]
    have hrotate : s.fa.rotate {} now s.fs = .error (.error s.fa s.fs) := by
      unfold FileWriter.rotate
      rw [if_neg hnow, hwriter]
      exact (Checked.bind_of_eq_ok hrename _).trans (Checked.bind_of_eq_error hclose _)
    rw [step, hrotate] at hstep
    cases hstep
  · obtain ⟨b, handle, fs', hrotate, hopen', hdir, hempty, hdata, -, hremoved⟩ :=
      hopen.rotate (FileWriter.rotatePasses_noFaults s.fa) hnow
    have hmoved : fs'.dir (s.fa.genLogFileName s.fa.currentFileSuffix) = some inode := by
      rw [hdir, Function.update_of_ne (s.fa.genLogFileName_ne _), Function.update_self]
    -- one rotated file is more than -1
    let fa' := ((s.fa.setBuffWriter b).pushHistory now.genCurrentFileSuffix).setFile handle
    have hhistory : fa'.historyFileSuffix = s.fa.currentFileSuffix :: [] := by
      show s.fa.historyFileSuffix ++ [s.fa.currentFileSuffix] = _
      rw [hs.history, List.nil_append]
    have hfull : fa'.historyFileSuffix.length > fa'.retainHours := by
      have hconfig : fa'.retainHours = -1 := hs.config.retainHours.trans hretain
      rw [hhistory, hconfig, List.length_singleton]
      decide
    obtain ⟨fs'', hremove, hdir'', hdata'', hhandles'', hremoved'', -⟩ :=
      FileWriter.removeOverdue_of_full (show ({} : Faults).remove = false from rfl) hfull hhistory hmoved
    rw [step, hrotate, hremove] at hstep
    cases hstep
    have hopen'' := hopen'.remove hdir'' hhandles''
    refine ⟨inode, buf, hopen, ?_, ?_, hopen''.buffered⟩
    · show fs''.removed = _
      rw [hremoved'', hremoved, hdata]
    · have hcontent := FileSystem.content_of_dir hopen''.dir
      rw [hdata'', hempty] at hcontent
      exact hs.config.fileName ▸ hcontent

/-- A rotation in another hour is one in which a file is removed. -/
theorem rotate (hretain : fa₀.retainHours = -1) (hs : Usable fa₀ s) (hgood : NotRotated fa₀ fs₀ s) {now : Hour}
    (hstep : step s (.rotate now) = some s') :
    (InHour s (.rotate now) → Usable fa₀ s') ∧ (NotRotated fa₀ fs₀ s' ↔ InHour s (.rotate now)) := by
  by_cases hnow : now.genCurrentFileSuffix = s.fa.currentFileSuffix
  · obtain ⟨hs', hgood'⟩ := hs.rotate_same hgood hnow hstep
    exact ⟨fun _ => hs', iff_of_true hgood' hnow⟩
  · obtain ⟨inode, buf, -, hremoved, -⟩ := hs.rotate_other hretain hnow hstep
    refine ⟨fun h => absurd h hnow, iff_of_false (fun h => ?_) hnow⟩
    have hsame := h.removed
    rw [hremoved, hgood.removed, List.append_right_eq_self] at hsame
    exact absurd hsame (List.cons_ne_nil _ _)

end Usable

/-- The writer that a configuration with -1 hours sets up. -/
def neverRotating (fileName : Bytes) (logLevelFloor logLevelCeiling : Int) : FileWriter :=
  configured fileName logLevelFloor logLevelCeiling (-1)

theorem usable_start (fileName : Bytes) (logLevelFloor logLevelCeiling : Int) (fs₀ : FileSystem) :
    let fa₀ := neverRotating fileName logLevelFloor logLevelCeiling
    Usable fa₀ (system fa₀ fs₀).start ∧ NotRotated fa₀ fs₀ (system fa₀ fs₀).start := by
  refine ⟨⟨⟨rfl, rfl, rfl, rfl⟩, rfl, .inl ⟨rfl, rfl⟩⟩, ?_⟩
  exact {
    others := fun _ _ => rfl
    current := fun _ h => h
    removed := rfl
    replaced := rfl
    bytes := rfl }

/-- What a call does to a writer that has not rotated. -/
theorem step_spec (hretain : fa₀.retainHours = -1) (hs : Usable fa₀ s) (hgood : NotRotated fa₀ fs₀ s)
    {label : Label} (hstep : step s label = some s') :
    (InHour s label → Usable fa₀ s') ∧ (NotRotated fa₀ fs₀ s' ↔ InHour s label) := by
  cases label with
  | init now =>
      obtain ⟨s'', hstep', hs', hiff⟩ := hs.init hgood now
      cases Option.some.inj (hstep.symm.trans hstep')
      exact ⟨fun _ => hs', hiff⟩
  | write r =>
      obtain ⟨hs', hgood'⟩ := hs.write hgood hstep
      exact ⟨fun _ => hs', iff_of_true hgood' trivial⟩
  | flush =>
      obtain ⟨hs', hgood'⟩ := hs.flush hgood hstep
      exact ⟨fun _ => hs', iff_of_true hgood' trivial⟩
  | rotate now => exact hs.rotate hretain hgood hstep

/-- As long as every rotation finds the hour of the writer, nothing is rotated; the first one that finds
another hour removes the file. -/
theorem notRotated_of_reachable (fileName : Bytes) (logLevelFloor logLevelCeiling : Int) (fs₀ : FileSystem)
    {s : State}
    (hs : (system (neverRotating fileName logLevelFloor logLevelCeiling) fs₀).ReachableBy InHour s) :
    NotRotated (neverRotating fileName logLevelFloor logLevelCeiling) fs₀ s ∧
      ∀ label s', step s label = some s' →
        (NotRotated (neverRotating fileName logLevelFloor logLevelCeiling) fs₀ s' ↔ InHour s label) := by
  obtain ⟨husable, hgood⟩ := usable_start fileName logLevelFloor logLevelCeiling fs₀
  have hinv := hs.invariant (P := fun s => Usable _ s ∧ NotRotated _ fs₀ s) ⟨husable, hgood⟩
    fun s label s' _ h hhour hstep => by
      obtain ⟨hs', hiff⟩ := step_spec rfl h.1 h.2 hstep
      exact ⟨hs' hhour, hiff.mpr hhour⟩
  exact ⟨hinv.2, fun label s' hstep => (step_spec rfl hinv.1 hinv.2 hstep).2⟩

def startRecord : Record := ⟨ascii "t", ascii "main.go:1", ascii "start", .info⟩

/-- A record that is flushed and then a rotation in the same hour. -/
theorem notRotated_of_reachable_oneHour :
    ∃ s, NotRotated (neverRotating (ascii "ums.log") 0 4) FileSystem.empty s ∧
      s.fs.content (ascii "ums.log") = startRecord.string := by
  have h₀ : (system (neverRotating (ascii "ums.log") 0 4) FileSystem.empty).ReachableBy InHour _ := .start
  have h₁ := h₀.step (a := Label.init (julyFirst 0)) rfl rfl
  have h₂ := h₁.step (a := Label.write startRecord) trivial rfl
  have h₃ := h₂.step (a := Label.flush) trivial rfl
  have h₄ := h₃.step (a := Label.rotate (julyFirst 0)) rfl (Option.some_get (by decide +kernel)).symm
  exact ⟨_, (notRotated_of_reachable (ascii "ums.log") 0 4 FileSystem.empty h₄).1, by decide +kernel⟩

/-- The hour changes: the record was in the only file there is, and that one is removed. -/
theorem not_notRotated_newHour :
    ∃ s, (system (neverRotating (ascii "ums.log") 0 4) FileSystem.empty).Reachable s ∧
      s.fs.removed = [startRecord.string] ∧ s.fs.content (ascii "ums.log") = [] ∧ s.fa.buffered = [] ∧
      ¬NotRotated (neverRotating (ascii "ums.log") 0 4) FileSystem.empty s := by
  have h₀ : (system (neverRotating (ascii "ums.log") 0 4) FileSystem.empty).Reachable _ := .start
  have h₁ := h₀.step (a := Label.init (julyFirst 0)) trivial rfl
  have h₂ := h₁.step (a := Label.write startRecord) trivial rfl
  have h₃ := h₂.step (a := Label.rotate (julyFirst 1)) trivial (Option.some_get (by decide +kernel)).symm
  refine ⟨_, h₃, by decide +kernel, by decide +kernel, by decide +kernel, fun h => ?_⟩
  exact absurd h.removed (by decide +kernel)

end ToyBox.Logger.NoRotation
