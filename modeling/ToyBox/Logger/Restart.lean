import Mathlib.Data.Set.Card
import ToyBox.Logger.Recovery
import ToyBox.Logger.Rotation

/-! The file writer over many lifetimes of its process. `Init` begins with an empty history, so that a writer
counts only the files that its own process has rotated; the files that earlier ones have left stay on the disk
besides them. -/

namespace ToyBox.Logger.Restart

open Recovery (HasFile overdue rotatedTo)

/-- The disk, and the writer of the process if one runs. -/
structure State where
  writer : Option FileWriter := none
  fs : FileSystem
  /-- The last hour the clock showed. -/
  now : Hour
  /-- The last step was a rotation in a new hour that returned nil. -/
  rotated : Bool := false

/-- How far a rotation gets in a process that stops. -/
inductive Point
  | flushed
  | renamed
  | created
  deriving DecidableEq

inductive Label
  | init (logLevelFloor logLevelCeiling : Int) (now : Hour)
  | write (r : Record)
  | flush
  | rotate (now : Hour)
  | stop
  /-- The process stops within a rotation. -/
  | stopIn (point : Point) (now : Hour)

/-- A rotation in a new hour, as far as it gets. -/
def rotateTo (point : Point) (now : Hour) (fa : FileWriter) (fs : FileSystem) : FileWriter.Result := do
  let (fa, fs) ← if fa.fileBuffWriter.isSome then fa.flush {} fs else .ok (fa, fs)
  if point = .flushed then .ok (fa, fs)
  else do
    let (fa, fs) ← fa.renameFile {} now.genCurrentFileSuffix fs
    if point = .renamed then .ok (fa, fs)
    else do
      let (fa, fs) ← fa.closeFile {} fs
      fa.crateFile {} fs

/-- The open files of a process end with it. -/
def exit (fs : FileSystem) : FileSystem := { fs with handles := fun _ => none }

/-- A call that returns nil; there is no step for one that fails. -/
def step (fileName : Bytes) (retainHours : Nat) (s : State) : Label → Option State
  | .init logLevelFloor logLevelCeiling now =>
      match s.writer with
      | some _ => none
      | none =>
          ((Rotation.configured fileName logLevelFloor logLevelCeiling retainHours).init {} now s.fs).toOption.map
            fun (fa, fs) => { writer := some fa, fs, now }
  | .write r =>
      s.writer.bind fun fa => (fa.write {} r s.fs).toOption.map fun (fa, fs) =>
        { s with writer := some fa, fs, rotated := false }
  | .flush =>
      s.writer.bind fun fa => (fa.flush {} s.fs).toOption.map fun (fa, fs) =>
        { s with writer := some fa, fs, rotated := false }
  | .rotate now =>
      s.writer.bind fun fa => (fa.rotate {} now s.fs).toOption.map fun (fa', fs) =>
        { writer := some fa', fs, now, rotated := now.genCurrentFileSuffix ≠ fa.currentFileSuffix }
  | .stop =>
      s.writer.map fun _ => { s with writer := none, fs := exit s.fs, rotated := false }
  | .stopIn point now =>
      s.writer.bind fun fa =>
        if now.genCurrentFileSuffix = fa.currentFileSuffix then none
        else (rotateTo point now fa s.fs).toOption.map fun (_, fs) => { fs := exit fs, now }

/-- All lifetimes of the writer of one log, from some disk on. -/
def system (fileName : Bytes) (retainHours : Nat) (fs₀ : FileSystem) (start : Hour) :
    TransitionSystem State Label where
  start := { fs := fs₀, now := start }
  step := step fileName retainHours

/-- The clock has not gone back. -/
def Clocked (s : State) : Label → Prop
  | .init _ _ now => s.now ≤ now
  | .rotate now => s.now ≤ now
  | .stopIn _ now => s.now ≤ now
  | _ => True

/-- The hours of which there is a rotated file. -/
def rotatedFiles (fileName : Bytes) (fs : FileSystem) : Set Nat :=
  {suffix | (∃ t : Hour, t.genCurrentFileSuffix = suffix) ∧
    fs.dir (fileName ++ ascii "." ++ decimal suffix) ≠ none}

/-- After a rotation there are no more rotated files than hours to retain. -/
def Retained (fileName : Bytes) (retainHours : Nat) (s : State) : Prop :=
  s.rotated = true → (rotatedFiles fileName s.fs).ncard ≤ retainHours

/-- The rotated files that the process has not made itself. -/
def leftovers (fa : FileWriter) (fs : FileSystem) : Set Nat :=
  rotatedFiles fa.fileName fs \ {suffix | suffix ∈ fa.historyFileSuffix ++ [fa.currentFileSuffix]}

/-- A rotation in a new hour finds no more rotated files of others than there is room for besides those of the
process itself. -/
def LeavesRoom (retainHours : Nat) (s : State) : Label → Prop
  | .rotate now => ∀ fa, s.writer = some fa → now.genCurrentFileSuffix ≠ fa.currentFileSuffix →
      (leftovers fa s.fs).ncard + min (fa.historyFileSuffix.length + 1) retainHours ≤ retainHours
  | _ => True

/-- What holds while a process runs. -/
structure Running (fileName : Bytes) (retainHours : Nat) (now : Hour) (fa : FileWriter) (fs : FileSystem) :
    Prop where
  fileName_eq : fa.fileName = fileName
  retainHours_eq : fa.retainHours = retainHours
  isOpen : ∃ inode buf, fa.Open fs inode buf
  current : ∃ t : Hour, t ≤ now ∧ t.genCurrentFileSuffix = fa.currentFileSuffix
  increasing : (fa.historyFileSuffix ++ [fa.currentFileSuffix]).Pairwise (· < ·)
  retained : fa.historyFileSuffix.length ≤ retainHours
  onDisk : ∀ suffix ∈ fa.historyFileSuffix, suffix ∈ rotatedFiles fileName fs

/-- What holds over all lifetimes. -/
structure Consistent (fileName : Bytes) (retainHours : Nat) (s : State) : Prop where
  finite : (rotatedFiles fileName s.fs).Finite
  running : ∀ fa, s.writer = some fa → Running fileName retainHours s.now fa s.fs

variable {fileName : Bytes} {retainHours : Nat} {fs₀ : FileSystem} {start now : Hour} {s s' : State}
  {fa : FileWriter} {fs : FileSystem}

theorem rotatedFiles_congr {fs' : FileSystem} (h : fs'.dir = fs.dir) :
    rotatedFiles fileName fs' = rotatedFiles fileName fs := by
  rw [rotatedFiles, rotatedFiles, h]

theorem mem_rotatedFiles_iff (hname : fa.fileName = fileName) (suffix : Nat) :
    suffix ∈ rotatedFiles fileName fs ↔
      (∃ t : Hour, t.genCurrentFileSuffix = suffix) ∧ fs.dir (fa.genLogFileName suffix) ≠ none := by
  rw [FileWriter.genLogFileName, hname]
  rfl

/-! ### The writer of one process -/

namespace Running

theorem write (h : Running fileName retainHours now fa fs) (r : Record) :
    ∃ fa' fs', fa.write {} r fs = .ok (fa', fs') ∧ Running fileName retainHours now fa' fs' ∧ fs'.dir = fs.dir := by
  by_cases haccepts : fa.Accepts r
  · obtain ⟨inode, buf, hopen⟩ := h.isOpen
    obtain ⟨out, buf', b, hwrite, hopen', -⟩ := hopen.write haccepts
    exact ⟨_, _, hwrite, { h with isOpen := ⟨inode, buf', hopen'⟩ }, rfl⟩
  · exact ⟨fa, fs, if_neg haccepts, h, rfl⟩

theorem flush (h : Running fileName retainHours now fa fs) :
    ∃ fa' fs', fa.flush {} fs = .ok (fa', fs') ∧ Running fileName retainHours now fa' fs' ∧ fs'.dir = fs.dir := by
  obtain ⟨inode, buf, hopen⟩ := h.isOpen
  obtain ⟨handle, -, -, hflush, hopen'⟩ := hopen.flush (FileWriter.flushPasses_noFaults fa)
  exact ⟨_, _, hflush, { h with isOpen := ⟨inode, [], hopen'⟩ }, rfl⟩

/-- What the next rotation removes is one of the hours the process knows of. -/
theorem mem_of_overdue {hour : Nat} (h : overdue fa = some hour) :
    hour ∈ fa.historyFileSuffix ++ [fa.currentFileSuffix] := by
  rw [overdue] at h
  split at h
  · cases h
  · exact List.mem_of_head? h

/-- The hours that are kept are those the process knows of, less the one whose file is removed. -/
theorem mem_rotatedTo_iff (hnodup : (fa.historyFileSuffix ++ [fa.currentFileSuffix]).Nodup)
    (curFileSuffix suffix : Nat) :
    suffix ∈ (rotatedTo fa curFileSuffix).historyFileSuffix ↔
      suffix ∈ fa.historyFileSuffix ++ [fa.currentFileSuffix] ∧ overdue fa ≠ some suffix := by
  rw [rotatedTo, overdue]
  dsimp only
  split
  case isTrue => simp
  case isFalse =>
    cases hknown : fa.historyFileSuffix ++ [fa.currentFileSuffix] with
    | nil => exact absurd hknown (List.concat_ne_nil _ _)
    | cons first rest =>
        rw [hknown] at hnodup
        have hfirst := (List.nodup_cons.mp hnodup).1
        rw [List.tail_cons, List.head?_cons, List.mem_cons, Ne, Option.some_inj]
        constructor
        · intro hmem
          exact ⟨Or.inr hmem, fun heq => hfirst (heq ▸ hmem)⟩
        · rintro ⟨heq | hmem, hne⟩
          · exact absurd heq.symm hne
          · exact hmem

theorem rotatedTo_sublist (curFileSuffix : Nat) :
    (rotatedTo fa curFileSuffix).historyFileSuffix.Sublist (fa.historyFileSuffix ++ [fa.currentFileSuffix]) := by
  rw [rotatedTo]
  dsimp only
  split
  · exact List.Sublist.refl _
  · exact List.tail_sublist _

theorem length_rotatedTo_eq (h : Running fileName retainHours now fa fs) (curFileSuffix : Nat) :
    (rotatedTo fa curFileSuffix).historyFileSuffix.length = min (fa.historyFileSuffix.length + 1) retainHours := by
  have hretained := h.retained
  have hretain := h.retainHours_eq
  rw [rotatedTo]
  dsimp only
  split
  · rw [List.length_append, List.length_singleton]
    omega
  · rw [List.length_tail, List.length_append, List.length_singleton]
    omega

theorem nodup (h : Running fileName retainHours now fa fs) :
    (fa.historyFileSuffix ++ [fa.currentFileSuffix]).Nodup :=
  h.increasing.imp Nat.ne_of_lt

/-- Every hour the process knows of has a file, or is the current one. -/
theorem hasFile (h : Running fileName retainHours now fa fs) {suffix : Nat}
    (hmem : suffix ∈ fa.historyFileSuffix ++ [fa.currentFileSuffix]) :
    (∃ t : Hour, t.genCurrentFileSuffix = suffix) ∧ HasFile ⟨fa, fs⟩ suffix := by
  rcases List.mem_append.mp hmem with hmem | hmem
  · obtain ⟨hhour, hdir⟩ := (mem_rotatedFiles_iff h.fileName_eq suffix).mp (h.onDisk suffix hmem)
    exact ⟨hhour, Or.inr hdir⟩
  · obtain ⟨t, -, ht⟩ := h.current
    rw [List.mem_singleton.mp hmem]
    exact ⟨⟨t, ht⟩, Or.inl rfl⟩

/-- The hours the process knows of are before a new one. -/
theorem lt_of_mem (h : Running fileName retainHours s.now fa fs) (hclock : s.now ≤ now)
    (hnow : now.genCurrentFileSuffix ≠ fa.currentFileSuffix) {suffix : Nat}
    (hmem : suffix ∈ fa.historyFileSuffix ++ [fa.currentFileSuffix]) : suffix < now.genCurrentFileSuffix := by
  obtain ⟨t, htime, ht⟩ := h.current
  have hcurrent : fa.currentFileSuffix < now.genCurrentFileSuffix := by
    refine lt_of_le_of_ne ?_ (Ne.symm hnow)
    calc
      fa.currentFileSuffix = t.genCurrentFileSuffix := ht.symm
      _ ≤ s.now.genCurrentFileSuffix := Hour.genCurrentFileSuffix_le.mpr htime
      _ ≤ now.genCurrentFileSuffix := Hour.genCurrentFileSuffix_le.mpr hclock
  rcases List.mem_append.mp hmem with hold | hlast
  · exact ((List.pairwise_append.mp h.increasing).2.2 suffix hold _ (List.mem_singleton_self _)).trans hcurrent
  · rwa [List.mem_singleton.mp hlast]

/-- A rotation in a new hour returns nil. The rotated files are then those that the process knows of and
those that were left by others. -/
theorem rotate (h : Running fileName retainHours s.now fa fs) (hclock : s.now ≤ now)
    (hnow : now.genCurrentFileSuffix ≠ fa.currentFileSuffix) :
    ∃ fa' fs', fa.rotate {} now fs = .ok (fa', fs') ∧ Running fileName retainHours now fa' fs' ∧
      fa'.historyFileSuffix.length = min (fa.historyFileSuffix.length + 1) retainHours ∧
      (∀ suffix ∈ fa'.historyFileSuffix, suffix ∈ fa.historyFileSuffix ++ [fa.currentFileSuffix]) ∧
      rotatedFiles fileName fs' = leftovers fa fs ∪ {suffix | suffix ∈ fa'.historyFileSuffix} := by
  obtain ⟨inode, buf, hopen⟩ := h.isOpen
  obtain ⟨⟨fa', fs'⟩, hrotate, hcompleted⟩ := Recovery.exists_completed (s := ⟨fa, fs⟩) hopen
    (FileWriter.rotatePasses_noFaults fa) hnow (Or.inr rfl) fun hour hoverdue => (h.hasFile (mem_of_overdue hoverdue)).2
  have hname : fa'.fileName = fileName := hcompleted.fileName.trans h.fileName_eq
  have hhistory : fa'.historyFileSuffix = (rotatedTo fa now.genCurrentFileSuffix).historyFileSuffix :=
    hcompleted.history
  have hknown : ∀ suffix ∈ fa'.historyFileSuffix, suffix ∈ fa.historyFileSuffix ++ [fa.currentFileSuffix] := by
    intro suffix hmem
    rw [hhistory] at hmem
    exact (rotatedTo_sublist _).subset hmem
  have hfiles : rotatedFiles fileName fs' = leftovers fa fs ∪ {suffix | suffix ∈ fa'.historyFileSuffix} := by
    ext suffix
    have hdir : fs'.dir (fa.genLogFileName suffix) ≠ none ↔
        HasFile ⟨fa, fs⟩ suffix ∧ overdue fa ≠ some suffix := hcompleted.files suffix
    have hkept := mem_rotatedTo_iff h.nodup now.genCurrentFileSuffix suffix
    rw [mem_rotatedFiles_iff h.fileName_eq, hdir, Set.mem_union, Set.mem_ofPred_eq, hhistory, hkept, leftovers,
      Set.mem_sdiff, mem_rotatedFiles_iff rfl, Set.mem_ofPred_eq]
    by_cases hmem : suffix ∈ fa.historyFileSuffix ++ [fa.currentFileSuffix]
    · simp [hmem, h.hasFile hmem]
    · have hcurrent : suffix ≠ fa.currentFileSuffix := fun heq => hmem (by simp [heq])
      have hoverdue : overdue fa ≠ some suffix := fun heq => hmem (mem_of_overdue heq)
      simp [hmem, hoverdue, HasFile, hcurrent]
  have hlength : fa'.historyFileSuffix.length = min (fa.historyFileSuffix.length + 1) retainHours := by
    rw [hhistory, h.length_rotatedTo_eq]
  have hcurrent : fa'.currentFileSuffix = now.genCurrentFileSuffix := hcompleted.current
  obtain ⟨inode', hopen'⟩ := hcompleted.isOpen
  refine ⟨fa', fs', hrotate, ?_, hlength, hknown, hfiles⟩
  exact {
    fileName_eq := hname
    retainHours_eq := hcompleted.retainHours.trans h.retainHours_eq
    isOpen := ⟨inode', [], hopen'⟩
    current := ⟨now, Hour.genCurrentFileSuffix_le.mp le_rfl, hcurrent.symm⟩
    increasing := by
      rw [hcurrent, List.pairwise_append]
      refine ⟨?_, List.pairwise_singleton _ _, fun suffix hmem last hlast => ?_⟩
      · rw [hhistory]
        exact h.increasing.sublist (rotatedTo_sublist _)
      · rw [List.mem_singleton.mp hlast]
        exact h.lt_of_mem hclock hnow (hknown suffix hmem)
    retained := hlength ▸ Nat.min_le_right _ _
    onDisk := fun suffix hmem => hfiles ▸ Or.inr hmem }

/-- The clock may go on while a process runs. -/
theorem later (h : Running fileName retainHours s.now fa fs) (hclock : s.now ≤ now) :
    Running fileName retainHours now fa fs := by
  obtain ⟨t, htime, ht⟩ := h.current
  refine { h with current := ⟨t, ?_, ht⟩ }
  apply Hour.genCurrentFileSuffix_le.mp
  exact (Hour.genCurrentFileSuffix_le.mpr htime).trans (Hour.genCurrentFileSuffix_le.mpr hclock)

end Running

/-- A process begins with no history, whatever is on the disk. -/
theorem running_init (fileName : Bytes) (retainHours : Nat) (floor ceiling : Int) (now : Hour) (fs : FileSystem) :
    ∃ fa' fs', (Rotation.configured fileName floor ceiling retainHours).init {} now fs = .ok (fa', fs') ∧
      Running fileName retainHours now fa' fs' ∧ rotatedFiles fileName fs' = rotatedFiles fileName fs := by
  obtain ⟨fs', inode, handle, hcreate, hhandle, hdir, -⟩ :=
    FileWriter.crateFile_spec FileWriter.createPasses_noFaults
      { Rotation.configured fileName floor ceiling retainHours with
        currentFileSuffix := now.genCurrentFileSuffix } fs
  refine ⟨_, fs', hcreate, ?_, ?_⟩
  · exact {
      fileName_eq := rfl
      retainHours_eq := rfl
      isOpen := ⟨inode, [], ⟨handle, rfl, rfl, hhandle⟩, by rw [hdir]; exact Function.update_self _ _ _⟩
      current := ⟨now, Hour.genCurrentFileSuffix_le.mp le_rfl, rfl⟩
      increasing := List.pairwise_singleton _ _
      retained := Nat.zero_le _
      onDisk := fun _ hmem => absurd hmem List.not_mem_nil }
  · ext suffix
    have hname : fs'.dir (fileName ++ ascii "." ++ decimal suffix) = fs.dir (fileName ++ ascii "." ++ decimal suffix) := by
      rw [hdir]
      exact Function.update_of_ne (FileWriter.genLogFileName_ne (Rotation.configured fileName floor ceiling retainHours) suffix) _ _
    rw [rotatedFiles, rotatedFiles, Set.mem_ofPred_eq, Set.mem_ofPred_eq, hname]

/-- Only the current file and the one it is rotated to are new. -/
def OnlyNew (fa : FileWriter) (fs fs' : FileSystem) : Prop :=
  ∀ name, fs'.dir name ≠ none →
    name = fa.fileName ∨ name = fa.genLogFileName fa.currentFileSuffix ∨ fs.dir name ≠ none

theorem OnlyNew.update {dir : Bytes → Option Nat} {fs' : FileSystem} {name : Bytes} {inode : Option Nat}
    (hdir : fs'.dir = Function.update dir name inode)
    (hname : name = fa.fileName ∨ name = fa.genLogFileName fa.currentFileSuffix)
    (hold : ∀ name, dir name ≠ none →
      name = fa.fileName ∨ name = fa.genLogFileName fa.currentFileSuffix ∨ fs.dir name ≠ none) :
    OnlyNew fa fs fs' := by
  intro name' hname'
  by_cases heq : name' = name
  · rw [heq]
    exact hname.imp_right Or.inl
  · rw [hdir, Function.update_of_ne heq] at hname'
    exact hold name' hname'

theorem OnlyNew.subset {fs' : FileSystem} (h : OnlyNew fa fs fs') :
    rotatedFiles fa.fileName fs' ⊆ insert fa.currentFileSuffix (rotatedFiles fa.fileName fs) := by
  intro suffix hmem
  obtain ⟨hhour, hdir⟩ := (mem_rotatedFiles_iff rfl suffix).mp hmem
  rcases h _ hdir with hcurrent | hrotated | hold
  · exact absurd hcurrent (fa.genLogFileName_ne suffix)
  · exact Or.inl (fa.genLogFileName_injective hrotated)
  · exact Or.inr ((mem_rotatedFiles_iff rfl suffix).mpr ⟨hhour, hold⟩)

/-- A rotation that is cut short. -/
theorem rotateTo_onlyNew (h : Running fileName retainHours s.now fa fs) (point : Point) (now : Hour)
    {fa' : FileWriter} {fs' : FileSystem} (hrotate : rotateTo point now fa fs = .ok (fa', fs')) :
    OnlyNew fa fs fs' := by
  obtain ⟨inode, buf, hopen⟩ := h.isOpen
  obtain ⟨handle, hfile, hhandle, hflush, hopen₁⟩ := hopen.flush (FileWriter.flushPasses_noFaults fa)
  obtain ⟨_, _, hwriter, _⟩ := hopen.writer
  have hfile₁ : (fa.setBuffWriter { wr := handle }).file = some handle := hfile
  obtain ⟨fs₂, hrename, hdir₂, -, -, hhandles₂, -⟩ := FileWriter.renameFile_of_dir
    (show ({} : Faults).rename = false from rfl) hfile₁ hopen₁.dir now.genCurrentFileSuffix
  have hnew₂ : OnlyNew fa fs fs₂ := by
    refine OnlyNew.update hdir₂ (Or.inr rfl) fun name (hname : Function.update fs.dir fa.fileName none name ≠ none) => ?_
    by_cases heq : name = fa.fileName
    · exact Or.inl heq
    · have hold : fs.dir name ≠ none := by rwa [Function.update_of_ne heq] at hname
      exact Or.inr (Or.inr hold)
  rw [rotateTo, if_pos (Option.isSome_of_eq_some hwriter), Checked.bind_of_eq_ok hflush] at hrotate
  dsimp only at hrotate
  by_cases hflushed : point = .flushed
  · rw [if_pos hflushed] at hrotate
    cases hrotate
    exact fun name hname => Or.inr (Or.inr hname)
  rw [if_neg hflushed, Checked.bind_of_eq_ok hrename] at hrotate
  dsimp only at hrotate
  by_cases hrenamed : point = .renamed
  · rw [if_pos hrenamed] at hrotate
    cases hrotate
    exact hnew₂
  have hfile₂ : ((fa.setBuffWriter { wr := handle }).pushHistory now.genCurrentFileSuffix).file = some handle := hfile
  have hclose := FileWriter.closeFile_of_open (show ({} : Faults).close = false from rfl) hfile₂
    (hhandles₂.symm ▸ hhandle)
  obtain ⟨fs₃, _, _, hcreate, -, hdir₃, -⟩ := FileWriter.crateFile_spec FileWriter.createPasses_noFaults
    ((fa.setBuffWriter { wr := handle }).pushHistory now.genCurrentFileSuffix)
    { fs₂ with handles := Function.update fs₂.handles handle none }
  rw [if_neg hrenamed, Checked.bind_of_eq_ok hclose, hcreate] at hrotate
  cases hrotate
  exact OnlyNew.update hdir₃ (Or.inl rfl) hnew₂

theorem Consistent.step (h : Consistent fileName retainHours s) {a : Label} (hclock : Clocked s a)
    (hstep : step fileName retainHours s a = some s') : Consistent fileName retainHours s' := by
  cases a with
  | init floor ceiling now =>
      obtain ⟨fa', fs', hinit, hrunning, hfiles⟩ := running_init fileName retainHours floor ceiling now s.fs
      rw [Restart.step] at hstep
      split at hstep
      · cases hstep
      · rw [hinit] at hstep
        cases hstep
        exact ⟨hfiles ▸ h.finite, fun fa hfa => Option.some.inj hfa ▸ hrunning⟩
  | write r =>
      obtain ⟨fa, hfa, hstep⟩ := Option.bind_eq_some_iff.mp hstep
      obtain ⟨fa', fs', hwrite, hrunning, hdir⟩ := (h.running fa hfa).write r
      rw [hwrite] at hstep
      cases hstep
      exact ⟨rotatedFiles_congr hdir ▸ h.finite, fun fa hfa => Option.some.inj hfa ▸ hrunning⟩
  | flush =>
      obtain ⟨fa, hfa, hstep⟩ := Option.bind_eq_some_iff.mp hstep
      obtain ⟨fa', fs', hflush, hrunning, hdir⟩ := (h.running fa hfa).flush
      rw [hflush] at hstep
      cases hstep
      exact ⟨rotatedFiles_congr hdir ▸ h.finite, fun fa hfa => Option.some.inj hfa ▸ hrunning⟩
  | rotate now =>
      obtain ⟨fa, hfa, hstep⟩ := Option.bind_eq_some_iff.mp hstep
      have hrunning := h.running fa hfa
      by_cases hnow : now.genCurrentFileSuffix = fa.currentFileSuffix
      · have hsame : fa.rotate {} now s.fs = .ok (fa, s.fs) := if_pos hnow
        rw [hsame] at hstep
        cases hstep
        exact ⟨h.finite, fun fa' hfa' => Option.some.inj hfa' ▸ hrunning.later hclock⟩
      · obtain ⟨fa', fs', hrotate, hrunning', -, -, hfiles⟩ := hrunning.rotate hclock hnow
        rw [hrotate] at hstep
        cases hstep
        refine ⟨?_, fun fa'' hfa'' => Option.some.inj hfa'' ▸ hrunning'⟩
        show (rotatedFiles fileName fs').Finite
        rw [hfiles, leftovers, hrunning.fileName_eq]
        exact h.finite.sdiff.union (List.finite_toSet _)
  | stop =>
      obtain ⟨fa, hfa, hstep⟩ := Option.map_eq_some_iff.mp hstep
      cases hstep
      exact ⟨h.finite, fun fa hfa => by cases hfa⟩
  | stopIn point now =>
      obtain ⟨fa, hfa, hstep⟩ := Option.bind_eq_some_iff.mp hstep
      split at hstep
      · cases hstep
      · obtain ⟨⟨fa', fs'⟩, hrotate, hstep⟩ := Option.map_eq_some_iff.mp hstep
        have hrunning := h.running fa hfa
        have hsub := (rotateTo_onlyNew hrunning point now (Checked.eq_ok_of_toOption hrotate)).subset
        rw [hrunning.fileName_eq] at hsub
        cases hstep
        exact ⟨(h.finite.insert _).subset hsub, fun fa hfa => by cases hfa⟩

/-! ### Over all lifetimes -/

theorem consistent_of_reachableBy {guard : State → Label → Prop} (hclock : ∀ s a, guard s a → Clocked s a)
    (hfinite : (rotatedFiles fileName fs₀).Finite)
    (hs : (system fileName retainHours fs₀ start).ReachableBy guard s) : Consistent fileName retainHours s :=
  hs.invariant ⟨hfinite, fun _ hfa => by cases hfa⟩
    fun _ _ _ _ hconsistent hguard hstep => hconsistent.step (hclock _ _ hguard) hstep

/-- After a rotation in a new hour the files on the disk are the leftovers and those of the process. -/
theorem ncard_rotatedFiles (h : Consistent fileName retainHours s) (hclock : s.now ≤ now) (hfa : s.writer = some fa)
    (hnow : now.genCurrentFileSuffix ≠ fa.currentFileSuffix)
    (hstep : step fileName retainHours s (.rotate now) = some s') :
    (rotatedFiles fileName s'.fs).ncard =
      (leftovers fa s.fs).ncard + min (fa.historyFileSuffix.length + 1) retainHours := by
  have hrunning := h.running fa hfa
  obtain ⟨fa', fs', hrotate, hrunning', hlength, hknown, hfiles⟩ := hrunning.rotate hclock hnow
  rw [step, hfa, Option.bind_some, hrotate] at hstep
  cases hstep
  have hfinite : (leftovers fa s.fs).Finite := by
    rw [leftovers, hrunning.fileName_eq]
    exact h.finite.sdiff
  have hdisjoint : Disjoint (leftovers fa s.fs) {suffix | suffix ∈ fa'.historyFileSuffix} :=
    Set.disjoint_left.mpr fun suffix hleft hmem => hleft.2 (hknown suffix hmem)
  have hnodup : fa'.historyFileSuffix.Nodup := hrunning'.nodup.of_append_left
  have hcard : {suffix | suffix ∈ fa'.historyFileSuffix}.ncard = fa'.historyFileSuffix.length := by
    rw [← List.coe_toFinset, Set.ncard_coe_finset, List.toFinset_card_of_nodup hnodup]
  show (rotatedFiles fileName fs').ncard = _
  rw [hfiles, Set.ncard_union_eq hdisjoint hfinite (List.finite_toSet _), hcard, hlength]

/-- A rotation in a new hour leaves no more rotated files than hours to retain exactly if it found room. -/
theorem retained_iff_leavesRoom (h : Consistent fileName retainHours s) {a : Label} (hclock : Clocked s a)
    (hstep : step fileName retainHours s a = some s') :
    Retained fileName retainHours s' ↔ LeavesRoom retainHours s a := by
  have hquiet : s'.rotated = false → (Retained fileName retainHours s' ↔ True) := by
    intro hrotated
    simp [Retained, hrotated]
  cases a with
  | rotate now =>
      obtain ⟨fa, hfa, hstep'⟩ := Option.bind_eq_some_iff.mp hstep
      have hrotated : s'.rotated = decide (now.genCurrentFileSuffix ≠ fa.currentFileSuffix) := by
        obtain ⟨_, _, rfl⟩ := Option.map_eq_some_iff.mp hstep'
        rfl
      by_cases hnow : now.genCurrentFileSuffix = fa.currentFileSuffix
      · simp [Retained, hrotated, hnow, LeavesRoom, hfa]
      · have hcard := ncard_rotatedFiles h hclock hfa hnow hstep
        simp [Retained, hrotated, hnow, LeavesRoom, hfa, hcard]
  | init floor ceiling now =>
      refine hquiet ?_
      rw [step] at hstep
      split at hstep
      · cases hstep
      · obtain ⟨_, _, rfl⟩ := Option.map_eq_some_iff.mp hstep
        rfl
  | write r =>
      refine hquiet ?_
      obtain ⟨_, _, hstep⟩ := Option.bind_eq_some_iff.mp hstep
      obtain ⟨_, _, rfl⟩ := Option.map_eq_some_iff.mp hstep
      rfl
  | flush =>
      refine hquiet ?_
      obtain ⟨_, _, hstep⟩ := Option.bind_eq_some_iff.mp hstep
      obtain ⟨_, _, rfl⟩ := Option.map_eq_some_iff.mp hstep
      rfl
  | stop =>
      refine hquiet ?_
      obtain ⟨_, _, rfl⟩ := Option.map_eq_some_iff.mp hstep
      rfl
  | stopIn point now =>
      refine hquiet ?_
      obtain ⟨_, _, hstep⟩ := Option.bind_eq_some_iff.mp hstep
      split at hstep
      · cases hstep
      · obtain ⟨_, _, rfl⟩ := Option.map_eq_some_iff.mp hstep
        rfl

/-- In every run over any number of lifetimes whose rotations all find room, no rotation leaves more rotated
files than hours to retain; and in any run, a rotation that leaves no more has found room. -/
theorem retained_reachableBy (hfinite : (rotatedFiles fileName fs₀).Finite) :
    (∀ s, (system fileName retainHours fs₀ start).ReachableBy
        (fun s a => Clocked s a ∧ LeavesRoom retainHours s a) s → Retained fileName retainHours s) ∧
    ∀ s a s', (system fileName retainHours fs₀ start).ReachableBy Clocked s → Clocked s a →
      step fileName retainHours s a = some s' → Retained fileName retainHours s' → LeavesRoom retainHours s a := by
  constructor
  · intro s hs
    have hsteps : Consistent fileName retainHours s ∧ Retained fileName retainHours s := by
      induction hs with
      | start => exact ⟨⟨hfinite, fun _ hfa => by cases hfa⟩, fun hrotated => by cases hrotated⟩
      | step _ hguard hstep ih =>
          exact ⟨ih.1.step hguard.1 hstep, (retained_iff_leavesRoom ih.1 hguard.1 hstep).mpr hguard.2⟩
    exact hsteps.2
  · intro s a s' hs hclock hstep hretained
    have hconsistent := consistent_of_reachableBy (fun _ _ h => h) hfinite hs
    exact (retained_iff_leavesRoom hconsistent hclock hstep).mp hretained

open Rotation (julyFirst)

theorem rotatedFiles_empty (fileName : Bytes) : rotatedFiles fileName FileSystem.empty = ∅ := by
  ext suffix
  simp [rotatedFiles, FileSystem.empty]

theorem julyFirst_le {hour hour' : Nat} (h : hour < 24) (h' : hour' < 24) (hle : hour ≤ hour') :
    julyFirst hour h ≤ julyFirst hour' h' := by
  apply Hour.genCurrentFileSuffix_le.mp
  simp only [julyFirst, Hour.mayFirst, Hour.genCurrentFileSuffix]
  omega

/-- A new process finds the rotated files as they were. -/
theorem rotatedFiles_of_init {floor ceiling : Int}
    (h : step fileName retainHours s (.init floor ceiling now) = some s') :
    rotatedFiles fileName s'.fs = rotatedFiles fileName s.fs := by
  obtain ⟨fa, fs, hdone, -, hfiles⟩ := running_init fileName retainHours floor ceiling now s.fs
  rw [step] at h
  split at h
  · cases h
  · rw [hdone] at h
    cases h
    exact hfiles

theorem leftovers_subset (h : Consistent fileName retainHours s) {fa : FileWriter} (hfa : s.writer = some fa) :
    leftovers fa s.fs ⊆ rotatedFiles fileName s.fs := by
  rw [leftovers, (h.running fa hfa).fileName_eq]
  exact Set.sdiff_subset

/-- There is room if there is room besides all files on the disk. -/
theorem leavesRoom_of_ncard (h : Consistent fileName retainHours s) {fa : FileWriter} (hfa : s.writer = some fa)
    (hroom : (rotatedFiles fileName s.fs).ncard + min (fa.historyFileSuffix.length + 1) retainHours ≤ retainHours) :
    LeavesRoom retainHours s (.rotate now) := by
  intro fa' hfa' _
  cases hfa.symm.trans hfa'
  have hle := Set.ncard_le_ncard (leftovers_subset h hfa) h.finite
  omega

/-- Two hours to retain, and two processes that rotate once each: the second finds one file, and room for its own. -/
theorem retained_reachableBy_twoLifetimes :
    ∃ s, (system (ascii "app.log") 2 FileSystem.empty (julyFirst 0)).run
        (system (ascii "app.log") 2 FileSystem.empty (julyFirst 0)).start
        [.init 0 4 (julyFirst 0), .rotate (julyFirst 1), .stop, .init 0 4 (julyFirst 1), .rotate (julyFirst 2)] =
          some s ∧
      s.rotated = true ∧ (rotatedFiles (ascii "app.log") s.fs).ncard = 2 ∧ Retained (ascii "app.log") 2 s := by
  have hrun : ∃ s₁ s₂ s₃ s₄ s₅ fa₁ fa₄, step (ascii "app.log") 2 { fs := FileSystem.empty, now := julyFirst 0 }
        (.init 0 4 (julyFirst 0)) = some s₁ ∧ s₁.now = julyFirst 0 ∧ s₁.writer = some fa₁ ∧
      fa₁.historyFileSuffix = [] ∧ (julyFirst 1).genCurrentFileSuffix ≠ fa₁.currentFileSuffix ∧
      step (ascii "app.log") 2 s₁ (.rotate (julyFirst 1)) = some s₂ ∧
      step (ascii "app.log") 2 s₂ .stop = some s₃ ∧ s₃.now = julyFirst 1 ∧ s₃.fs.dir = s₂.fs.dir ∧
      step (ascii "app.log") 2 s₃ (.init 0 4 (julyFirst 1)) = some s₄ ∧ s₄.now = julyFirst 1 ∧ s₄.writer = some fa₄ ∧
      fa₄.historyFileSuffix = [] ∧ step (ascii "app.log") 2 s₄ (.rotate (julyFirst 2)) = some s₅ ∧ s₅.rotated = true ∧
      s₅.fs.dir (ascii "app.log" ++ ascii "." ++ decimal (julyFirst 0).genCurrentFileSuffix) ≠ none ∧
      s₅.fs.dir (ascii "app.log" ++ ascii "." ++ decimal (julyFirst 1).genCurrentFileSuffix) ≠ none :=
    ⟨_, _, _, _, _, _, _, rfl, rfl, rfl, rfl, by decide, rfl, rfl, rfl, rfl, rfl, rfl, rfl, rfl, rfl, rfl, by decide,
      by decide⟩
  obtain ⟨s₁, s₂, s₃, s₄, s₅, fa₁, fa₄, hinit, hnow₁, hfa₁, hhistory₁, hhour, hrotate, hstop, hnow₃, hdir, hinit', hnow₄,
    hfa₄, hhistory₄, hrotate', hrotated, hfirst, hsecond⟩ := hrun
  have hfinite : (rotatedFiles (ascii "app.log") FileSystem.empty).Finite := by
    rw [rotatedFiles_empty]
    exact Set.finite_empty
  have hconsistent : ∀ {s : State}, (system (ascii "app.log") 2 FileSystem.empty (julyFirst 0)).ReachableBy
      (fun s a => Clocked s a ∧ LeavesRoom 2 s a) s → Consistent (ascii "app.log") 2 s :=
    fun hs => consistent_of_reachableBy (fun _ _ h => h.1) hfinite hs
  have hnext : ∀ {s s' : State} (a : Label),
      (system (ascii "app.log") 2 FileSystem.empty (julyFirst 0)).ReachableBy
        (fun s a => Clocked s a ∧ LeavesRoom 2 s a) s → Clocked s a → LeavesRoom 2 s a →
        step (ascii "app.log") 2 s a = some s' →
          (system (ascii "app.log") 2 FileSystem.empty (julyFirst 0)).ReachableBy
            (fun s a => Clocked s a ∧ LeavesRoom 2 s a) s' :=
    fun _ hs hclock hroom hstep => .step hs ⟨hclock, hroom⟩ hstep
  have hle : ∀ {t : Hour}, t ≤ t := Hour.genCurrentFileSuffix_le.mp le_rfl
  have h₁ := hnext (.init 0 4 (julyFirst 0)) .start hle trivial hinit
  -- the first process finds no file
  have hnone : (rotatedFiles (ascii "app.log") s₁.fs).ncard = 0 := by
    rw [rotatedFiles_of_init hinit, rotatedFiles_empty, Set.ncard_empty]
  have hroom₁ : LeavesRoom 2 s₁ (.rotate (julyFirst 1)) :=
    leavesRoom_of_ncard (hconsistent h₁) hfa₁ (by rw [hnone, hhistory₁]; decide)
  have hclock₁ : s₁.now ≤ julyFirst 1 := hnow₁ ▸ julyFirst_le (by decide) (by decide) (by decide)
  have h₂ := hnext (.rotate (julyFirst 1)) h₁ hclock₁ hroom₁ hrotate
  have hone : (rotatedFiles (ascii "app.log") s₂.fs).ncard ≤ 1 := by
    rw [ncard_rotatedFiles (hconsistent h₁) hclock₁ hfa₁ hhour hrotate, hhistory₁]
    have hle := Set.ncard_le_ncard (leftovers_subset (hconsistent h₁) hfa₁) (hconsistent h₁).finite
    rw [hnone] at hle
    rw [List.length_nil]
    omega
  have h₃ := hnext .stop h₂ trivial trivial hstop
  have hclock₃ : s₃.now ≤ julyFirst 1 := by rw [hnow₃]; exact hle
  have h₄ := hnext (.init 0 4 (julyFirst 1)) h₃ hclock₃ trivial hinit'
  -- the second one finds the file of the first
  have hleft : (rotatedFiles (ascii "app.log") s₄.fs).ncard ≤ 1 := by
    rwa [rotatedFiles_of_init hinit', rotatedFiles_congr hdir]
  have hroom₄ : LeavesRoom 2 s₄ (.rotate (julyFirst 2)) := by
    refine leavesRoom_of_ncard (hconsistent h₄) hfa₄ ?_
    rw [hhistory₄, List.length_nil]
    omega
  have hclock₄ : s₄.now ≤ julyFirst 2 := hnow₄ ▸ julyFirst_le (by decide) (by decide) (by decide)
  have h₅ := hnext (.rotate (julyFirst 2)) h₄ hclock₄ hroom₄ hrotate'
  have hretained := (retained_reachableBy hfinite).1 s₅ h₅
  have htwo : 1 < (rotatedFiles (ascii "app.log") s₅.fs).ncard := by
    rw [Set.one_lt_ncard (hconsistent h₅).finite]
    exact ⟨_, ⟨⟨julyFirst 0, rfl⟩, hfirst⟩, _, ⟨⟨julyFirst 1, rfl⟩, hsecond⟩, by decide⟩
  refine ⟨s₅, ?_, hrotated, le_antisymm (hretained hrotated) htwo, hretained⟩
  simp only [TransitionSystem.run, system, hinit, hrotate, hstop, hinit', hrotate', Option.bind_some]

/-- One hour to retain, and two processes that rotate once each: two rotated files are left. -/
theorem not_retained_twoLifetimes :
    ¬∀ s, (system (ascii "app.log") 1 FileSystem.empty (julyFirst 0)).ReachableBy Clocked s →
      Retained (ascii "app.log") 1 s := by
  intro hall
  have hrun : ∃ s₁ s₂ s₃ s₄ s₅, step (ascii "app.log") 1 { fs := FileSystem.empty, now := julyFirst 0 }
        (.init 0 4 (julyFirst 0)) = some s₁ ∧ s₁.now = julyFirst 0 ∧
      step (ascii "app.log") 1 s₁ (.rotate (julyFirst 1)) = some s₂ ∧
      step (ascii "app.log") 1 s₂ .stop = some s₃ ∧ s₃.now = julyFirst 1 ∧
      step (ascii "app.log") 1 s₃ (.init 0 4 (julyFirst 1)) = some s₄ ∧ s₄.now = julyFirst 1 ∧
      step (ascii "app.log") 1 s₄ (.rotate (julyFirst 2)) = some s₅ ∧ s₅.rotated = true ∧
      s₅.fs.dir (ascii "app.log" ++ ascii "." ++ decimal (julyFirst 0).genCurrentFileSuffix) ≠ none ∧
      s₅.fs.dir (ascii "app.log" ++ ascii "." ++ decimal (julyFirst 1).genCurrentFileSuffix) ≠ none :=
    ⟨_, _, _, _, _, rfl, rfl, rfl, rfl, rfl, rfl, rfl, rfl, rfl, by decide, by decide⟩
  obtain ⟨s₁, s₂, s₃, s₄, s₅, hinit, hnow₁, hrotate, hstop, hnow₃, hinit', hnow₄, hrotate', hrotated, hfirst,
    hsecond⟩ := hrun
  have hle : ∀ {t : Hour}, t ≤ t := Hour.genCurrentFileSuffix_le.mp le_rfl
  have hlater : julyFirst 0 ≤ julyFirst 1 ∧ julyFirst 1 ≤ julyFirst 2 :=
    ⟨Hour.genCurrentFileSuffix_le.mp (by decide), Hour.genCurrentFileSuffix_le.mp (by decide)⟩
  have hnext : ∀ {s s' : State} (a : Label),
      (system (ascii "app.log") 1 FileSystem.empty (julyFirst 0)).ReachableBy Clocked s → Clocked s a →
        step (ascii "app.log") 1 s a = some s' →
          (system (ascii "app.log") 1 FileSystem.empty (julyFirst 0)).ReachableBy Clocked s' :=
    fun _ hs hclock hstep => .step hs hclock hstep
  have h₁ := hnext (.init 0 4 (julyFirst 0)) .start hle hinit
  have h₂ := hnext (.rotate (julyFirst 1)) h₁ (hnow₁ ▸ hlater.1) hrotate
  have h₃ := hnext .stop h₂ trivial hstop
  have h₄ := hnext (.init 0 4 (julyFirst 1)) h₃ (show s₃.now ≤ julyFirst 1 by rw [hnow₃]; exact hle) hinit'
  have h₅ := hnext (.rotate (julyFirst 2)) h₄ (hnow₄ ▸ hlater.2) hrotate'
  have hfinite : (rotatedFiles (ascii "app.log") FileSystem.empty).Finite := by
    rw [rotatedFiles_empty]
    exact Set.finite_empty
  have hmany : 1 < (rotatedFiles (ascii "app.log") s₅.fs).ncard := by
    rw [Set.one_lt_ncard (consistent_of_reachableBy (fun _ _ h => h) hfinite h₅).finite]
    exact ⟨_, ⟨⟨julyFirst 0, rfl⟩, hfirst⟩, _, ⟨⟨julyFirst 1, rfl⟩, hsecond⟩, by decide⟩
  exact (hall s₅ h₅ hrotated).not_gt hmany

end ToyBox.Logger.Restart
