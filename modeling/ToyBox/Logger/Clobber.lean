import ToyBox.Library.Path
import ToyBox.Library.TransitionSystem
import ToyBox.Logger.Config

/-! When a rotation replaces a file. The name it gives to the current file is made of the hour the writer
remembers; nothing asks whether there is such a file. There is one if the clock has come back to an hour
whose file is still kept, if the path of the other writer leads to the same file, if one path leads to the file of
the other with an hour behind it, or if the file was there before. -/

namespace ToyBox.Logger

namespace FileWriter

open FileSystem (Kept Wrote)

/-- The files of a writer: the current one, and the rotated ones it knows of. -/
def Names (fa : FileWriter) (name : Bytes) : Prop :=
  name = fa.fileName ∨ ∃ suffix ∈ fa.historyFileSuffix, name = fa.genLogFileName suffix

/-- What is left behind, by a call that returns nil or an error. -/
def Ends (result : Result) (P : FileWriter → FileSystem → Prop) : Prop :=
  ∀ fa fs, stateOf result = some (fa, fs) → P fa fs

variable {P Q : FileWriter → FileSystem → Prop} {fa fa' : FileWriter} {fs fs' : FileSystem} {faults : Faults}

theorem ends_ok (h : P fa fs) : Ends (.ok (fa, fs)) P := by
  intro fa' fs' heq
  cases heq
  exact h

theorem ends_error (h : P fa fs) : Ends (.error (.error fa fs)) P := by
  intro fa' fs' heq
  cases heq
  exact h

theorem ends_panic : Ends (.error .panic) P := by
  intro fa' fs' heq
  cases heq

/-- A sequence of calls stops at the first error. -/
theorem Ends.bind {x : Result} {f : FileWriter × FileSystem → Result} (hx : Ends x P)
    (himp : ∀ fa fs, P fa fs → Q fa fs)
    (hf : ∀ fa fs, x = .ok (fa, fs) → P fa fs → Ends (f (fa, fs)) Q) : Ends (x >>= f) Q := by
  cases x with
  | error failure =>
      intro fa fs hstate
      exact himp fa fs (hx fa fs hstate)
  | ok state =>
      obtain ⟨fa, fs⟩ := state
      exact hf fa fs rfl (hx fa fs rfl)

/-- The writer has the same files. -/
structure SameNames (fa fa' : FileWriter) : Prop where
  fileName : fa'.fileName = fa.fileName
  current : fa'.currentFileSuffix = fa.currentFileSuffix
  history : fa'.historyFileSuffix = fa.historyFileSuffix

theorem SameNames.refl (fa : FileWriter) : SameNames fa fa := ⟨rfl, rfl, rfl⟩

theorem ends_ofBufWriter {result : BufWriter.Result} (h : Wrote fs (BufWriter.stateOf result).2) :
    Ends (fa.ofBufWriter result) fun fa' fs' => SameNames fa fa' ∧ Wrote fs fs' := by
  cases result with
  | ok state => exact ends_ok ⟨⟨rfl, rfl, rfl⟩, h⟩
  | error state => exact ends_error ⟨⟨rfl, rfl, rfl⟩, h⟩

theorem ends_flush (faults : Faults) (fa : FileWriter) (fs : FileSystem) :
    Ends (fa.flush faults fs) fun fa' fs' => SameNames fa fa' ∧ Wrote fs fs' := by
  unfold flush
  cases fa.fileBuffWriter with
  | none => exact ends_panic
  | some b => exact ends_ofBufWriter (BufWriter.wrote_flush faults.write b fs)

theorem ends_write (faults : Faults) (r : Record) (fa : FileWriter) (fs : FileSystem) :
    Ends (fa.write faults r fs) fun fa' fs' => SameNames fa fa' ∧ Wrote fs fs' := by
  unfold write
  split
  · cases fa.fileBuffWriter with
    | none => exact ends_error ⟨.refl fa, .refl fs⟩
    | some b =>
        exact ends_ofBufWriter (BufWriter.wrote_writeString bufferSize faults.write r.string b fs)
  · exact ends_ok ⟨.refl fa, .refl fs⟩

/-! ### The files during a rotation -/

/-- Every file is one of the writer or one of the others, and nothing has been lost since `fs₀`. -/
structure Tidy (others : Bytes → Prop) (fileName : Bytes) (fs₀ : FileSystem) (fa : FileWriter)
    (fs : FileSystem) : Prop where
  fileName : fa.fileName = fileName
  known : ∀ name, fs.dir name ≠ none → others name ∨ fa.Names name
  kept : Kept fs₀ fs

variable {others : Bytes → Prop} {fileName : Bytes} {fs₀ : FileSystem}

theorem SameNames.names_iff (h : SameNames fa fa') (name : Bytes) : fa'.Names name ↔ fa.Names name := by
  simp only [Names, genLogFileName, h.fileName, h.history]

theorem Tidy.wrote (h : Tidy others fileName fs₀ fa fs) (hnames : SameNames fa fa') (hwrote : Wrote fs fs') :
    Tidy others fileName fs₀ fa' fs' where
  fileName := hnames.fileName.trans h.fileName
  known name hname := by
    rw [hnames.names_iff]
    exact h.known name (hwrote.dir ▸ hname)
  kept := h.kept.trans hwrote.kept

/-- The rename is the one call that can lose something. -/
theorem Tidy.renameFile (h : Tidy others fileName fs₀ fa fs)
    (hfree : faults.rename = false → fs.dir fa.fileName ≠ none →
      fs.dir (fa.genLogFileName fa.currentFileSuffix) = none)
    (curFileSuffix : Nat) : Ends (fa.renameFile faults curFileSuffix fs) (Tidy others fileName fs₀) := by
  unfold FileWriter.renameFile
  split
  · exact ends_ok h
  split
  · exact ends_error h
  · rename_i hrename
    cases hfs : fs.rename fa.fileName (fa.genLogFileName fa.currentFileSuffix) with
    | none => exact ends_error h
    | some fs' =>
        have hcurrent : fs.dir fa.fileName ≠ none := by
          intro hnone
          rw [FileSystem.rename_of_none hnone] at hfs
          cases hfs
        replace hfree := hfree (Bool.eq_false_iff.mpr hrename) hcurrent
        refine ends_ok ⟨h.fileName, ?_, h.kept.trans (FileSystem.kept_rename hfree hfs)⟩
        intro name hname
        by_cases hnew : name = fa.genLogFileName fa.currentFileSuffix
        · exact .inr (.inr ⟨fa.currentFileSuffix, List.mem_append_right _ (List.mem_singleton_self _), hnew⟩)
        · have hbefore := FileSystem.dir_of_rename hfs hnew hname
          rcases h.known name hbefore with hothers | hcurrent | ⟨suffix, hmem, hsuffix⟩
          · exact .inl hothers
          · exact .inr (.inl hcurrent)
          · exact .inr (.inr ⟨suffix, List.mem_append_left _ hmem, hsuffix⟩)

theorem Tidy.closeFile (h : Tidy others fileName fs₀ fa fs) :
    Ends (fa.closeFile faults fs) (Tidy others fileName fs₀) := by
  unfold FileWriter.closeFile
  cases hfs : fa.file.bind fs.close with
  | none => exact ends_error h
  | some fs' =>
      obtain ⟨handle, -, hclose⟩ := Option.bind_eq_some_iff.mp hfs
      have htidy := h.wrote (.refl fa) (FileSystem.wrote_close hclose)
      show Ends (if faults.close = true then _ else _) _
      split
      · exact ends_error htidy
      · exact ends_ok htidy

theorem Tidy.crateFile (h : Tidy others fileName fs₀ fa fs) :
    Ends (fa.crateFile faults fs) (Tidy others fileName fs₀) := by
  unfold FileWriter.crateFile
  split
  · exact ends_error h
  split
  · exact ends_error h
  · refine ends_ok ⟨h.fileName, ?_, h.kept.trans (FileSystem.kept_openFile fa.fileName)⟩
    intro name hname
    by_cases hcurrent : name = fa.fileName
    · exact .inr (.inl hcurrent)
    · exact h.known name (FileSystem.dir_of_openFile hcurrent hname)

theorem Tidy.removeOverdue (h : Tidy others fileName fs₀ fa fs) :
    Ends (fa.removeOverdue faults fs) (Tidy others fileName fs₀) := by
  unfold FileWriter.removeOverdue
  split
  swap
  · exact ends_ok h
  split
  · exact ends_panic
  rename_i overdue rest hhistory
  split
  · exact ends_error h
  cases hfs : fs.remove (fa.genLogFileName overdue) with
  | none => exact ends_error h
  | some fs' =>
      refine ends_ok ⟨h.fileName, ?_, h.kept.trans (FileSystem.kept_remove hfs)⟩
      intro name hname
      obtain ⟨hne, hbefore⟩ := FileSystem.dir_of_remove hfs hname
      rcases h.known name hbefore with hothers | hcurrent | ⟨suffix, hmem, hsuffix⟩
      · exact .inl hothers
      · exact .inr (.inl hcurrent)
      · rw [hhistory] at hmem
        rcases List.mem_cons.mp hmem with rfl | hmem
        · exact absurd hsuffix hne
        · exact .inr (.inr ⟨suffix, hmem, hsuffix⟩)

/-- What follows the flush of a rotation. -/
theorem Tidy.moveAside (h : Tidy others fileName fs₀ fa fs) (curFileSuffix : Nat)
    (hfree : faults.rename = false → fs.dir fa.fileName ≠ none →
      fs.dir (fa.genLogFileName fa.currentFileSuffix) = none) :
    Ends (do
      let (fa, fs) ← fa.renameFile faults curFileSuffix fs
      let (fa, fs) ← fa.closeFile faults fs
      let (fa, fs) ← fa.crateFile faults fs
      fa.removeOverdue faults fs) (Tidy others fileName fs₀) := by
  refine (h.renameFile hfree curFileSuffix).bind (fun _ _ => id) ?_
  intro fa₁ fs₁ _ h₁
  refine h₁.closeFile.bind (fun _ _ => id) ?_
  intro fa₂ fs₂ _ h₂
  exact h₂.crateFile.bind (fun _ _ => id) fun _ _ _ h₃ => h₃.removeOverdue

/-- A rotation in a new hour gets to its rename, and that does not fail. -/
structure Renames (faults : Faults) (now : Hour) (fa : FileWriter) (fs : FileSystem) : Prop where
  now : now.genCurrentFileSuffix ≠ fa.currentFileSuffix
  flush : ∀ b, fa.fileBuffWriter = some b → BufWriter.Flushes faults.write b fs
  rename : faults.rename = false
  current : fs.dir fa.fileName ≠ none

theorem flushes_of_flush {fa' : FileWriter} (h : fa.flush faults fs = .ok (fa', fs')) {b : BufWriter}
    (hwriter : fa.fileBuffWriter = some b) : BufWriter.Flushes faults.write b fs := by
  unfold flush at h
  rw [hwriter] at h
  cases hresult : b.flush faults.write fs with
  | error state =>
      simp only [hresult] at h
      cases h
  | ok state => exact BufWriter.flushes_of_flush hresult

/-- A rotation loses nothing if there is no file of the name that it gives to the current one. -/
theorem Tidy.rotate (h : Tidy others fileName fs₀ fa fs) {now : Hour}
    (hfree : Renames faults now fa fs → fs.dir (fa.genLogFileName fa.currentFileSuffix) = none) :
    Ends (fa.rotate faults now fs) (Tidy others fileName fs₀) := by
  unfold FileWriter.rotate
  by_cases hnow : now.genCurrentFileSuffix = fa.currentFileSuffix
  · rw [if_pos hnow]
    exact ends_ok h
  rw [if_neg hnow]
  cases hwriter : fa.fileBuffWriter with
  | none =>
      rw [Option.isSome_none, if_neg Bool.false_ne_true, Checked.ok_bind]
      apply h.moveAside
      intro hrename hcurrent
      have hnone : ∀ b, fa.fileBuffWriter = some b → BufWriter.Flushes faults.write b fs := by
        intro b hb
        rw [hwriter] at hb
        cases hb
      exact hfree ⟨hnow, hnone, hrename, hcurrent⟩
  | some b =>
      rw [Option.isSome_some, if_pos rfl]
      refine (ends_flush faults fa fs).bind (fun fa₁ fs₁ h₁ => h.wrote h₁.1 h₁.2) ?_
      intro fa₁ fs₁ hflush h₁
      apply (h.wrote h₁.1 h₁.2).moveAside
      intro hrename hcurrent
      rw [h₁.1.fileName, h₁.2.dir] at hcurrent
      rw [h₁.2.dir, genLogFileName, h₁.1.fileName, h₁.1.current]
      exact hfree ⟨hnow, fun b' => flushes_of_flush hflush, hrename, hcurrent⟩

end FileWriter

/-! ### Where the paths of a configuration lead -/

namespace LoggerConfig

/-- The paths of the files that a configuration asks for. -/
def paths (conf : LoggerConfig) : List Bytes :=
  if conf.fileWriterConfig.isSome then [conf.getInfoLogPath, conf.getWfLogPath] else []

/-- The configuration with what its paths lead to. -/
def resolved (conf : LoggerConfig) (r : PathResolution) : LoggerConfig :=
  { conf with
    fileWriterConfig := conf.fileWriterConfig.map fun file =>
      { file with
        infoLogPath := some (r.resolve conf.getInfoLogPath)
        wfLogPath := some (r.resolve conf.getWfLogPath) } }

/-- The files of a writer are those that a configured path, and the path with an hour behind it, lead to. -/
def LedTo (conf : LoggerConfig) (r : PathResolution) (fa : FileWriter) : Prop :=
  ∃ path ∈ conf.paths, fa.fileName = r.resolve path ∧
    (NamesFile path → ∀ suffix, fa.genLogFileName suffix = r.resolve (path ++ (ascii "." ++ decimal suffix)))

variable {conf : LoggerConfig} {r : PathResolution}

theorem getInfoLogPath_mem_paths (h : conf.fileWriterConfig.isSome) : conf.getInfoLogPath ∈ conf.paths := by
  rw [paths, if_pos h]
  exact List.mem_cons_self

theorem getWfLogPath_mem_paths (h : conf.fileWriterConfig.isSome) : conf.getWfLogPath ∈ conf.paths := by
  rw [paths, if_pos h]
  exact List.mem_cons_of_mem _ List.mem_cons_self

theorem paths_resolved (conf : LoggerConfig) (r : PathResolution) :
    (conf.resolved r).paths = conf.paths.map r.resolve := by
  cases hfile : conf.fileWriterConfig with
  | none => simp [paths, resolved, hfile]
  | some file => simp [paths, resolved, getInfoLogPath, getWfLogPath, hfile]

theorem slash_notMem_suffix (suffix : Nat) : slash ∉ ascii "." ++ decimal suffix := by
  rw [List.mem_append, not_or]
  refine ⟨by decide, fun hmem => ?_⟩
  exact absurd (isDigit_of_mem_decimal hmem).1 (by decide)

theorem ledTo_of_fileName {fa : FileWriter} (h : fa.fileName ∈ (conf.resolved r).paths) : conf.LedTo r fa := by
  rw [paths_resolved] at h
  obtain ⟨path, hpath, hname⟩ := List.mem_map.mp h
  refine ⟨path, hpath, hname.symm, fun hnames suffix => ?_⟩
  rw [r.resolve_append path _ hnames (slash_notMem_suffix suffix), FileWriter.genLogFileName, hname, List.append_assoc]

end LoggerConfig

namespace Clobber

open FileWriter (Tidy Ends Renames)
open FileSystem (Kept)

/-- The file writers that were registered, and the file system they share. -/
structure State where
  writers : List FileWriter
  fs : FileSystem

/-- A method of one of the writers, with the calls that fail in it. -/
inductive Label
  | write (i : Nat) (faults : Faults) (r : Record)
  | flush (i : Nat) (faults : Faults)
  | rotate (i : Nat) (faults : Faults) (now : Hour)

variable (s : State)

/-- A method of the i-th writer. -/
def call (i : Nat) (method : FileWriter → FileSystem → FileWriter.Result) : Option State :=
  s.writers[i]?.bind fun fa =>
    (FileWriter.stateOf (method fa s.fs)).map fun (fa, fs) => { writers := s.writers.set i fa, fs }

def step : Label → Option State
  | .write i faults r => call s i fun fa fs => fa.write faults r fs
  | .flush i faults => call s i fun fa fs => fa.flush faults fs
  | .rotate i faults now => call s i fun fa fs => fa.rotate faults now fs

/-- The runs from a state. -/
def system : TransitionSystem State Label where
  start := s
  step := step

/-- The state after the configuration has been accepted. -/
def started (l : DefaultLogger) (fs : FileSystem) : State := { writers := l.fileWriters, fs }

/-- The rotations that lose nothing. The file is not renamed, or an hour is left for which no writer of the
same file keeps one, the new name is not that of a writer's file, and there was no such file in the beginning. -/
def LeavesNewHour (fs₀ : FileSystem) : Label → Prop
  | .rotate i faults now => ∀ fa, s.writers[i]? = some fa → Renames faults now fa s.fs →
      fs₀.dir (fa.genLogFileName fa.currentFileSuffix) = none ∧
        ∀ v ∈ s.writers, v.fileName ≠ fa.genLogFileName fa.currentFileSuffix ∧
          (v.fileName = fa.fileName → fa.currentFileSuffix ∉ v.historyFileSuffix)
  | _ => True

/-- Every file was there in the beginning or is one of a writer. -/
def Known (fs₀ : FileSystem) : Prop :=
  ∀ name, s.fs.dir name ≠ none → fs₀.dir name ≠ none ∨ ∃ v ∈ s.writers, v.Names name

/-- What the other writers know of, or was there in the beginning. -/
def Others (fs₀ : FileSystem) (i : Nat) (name : Bytes) : Prop :=
  fs₀.dir name ≠ none ∨ ∃ j ≠ i, ∃ v, s.writers[j]? = some v ∧ v.Names name

variable {s} {s' : State} {fs₀ : FileSystem} {i : Nat} {fa : FileWriter}

theorem Known.tidy (h : Known s fs₀) (hfa : s.writers[i]? = some fa) :
    Tidy (Others s fs₀ i) fa.fileName s.fs fa s.fs := by
  refine ⟨rfl, ?_, .refl s.fs⟩
  intro name hname
  rcases h name hname with hbefore | ⟨v, hv, hnames⟩
  · exact .inl (.inl hbefore)
  · obtain ⟨j, hj⟩ := List.mem_iff_getElem?.mp hv
    by_cases hji : j = i
    · rw [hji, hfa] at hj
      cases hj
      exact .inr hnames
    · exact .inl (.inr ⟨j, hji, v, hj, hnames⟩)

theorem known_of_tidy {fa' : FileWriter} {fs' : FileSystem} (hfa : s.writers[i]? = some fa)
    (h : Tidy (Others s fs₀ i) fa.fileName s.fs fa' fs') :
    Known { writers := s.writers.set i fa', fs := fs' } fs₀ := by
  have hi : i < s.writers.length := (List.getElem?_eq_some_iff.mp hfa).1
  intro name hname
  rcases h.known name hname with (hbefore | ⟨j, hji, v, hj, hnames⟩) | hnames
  · exact .inl hbefore
  · refine .inr ⟨v, List.mem_iff_getElem?.mpr ⟨j, ?_⟩, hnames⟩
    rw [List.getElem?_set_ne (Ne.symm hji), hj]
  · exact .inr ⟨fa', List.mem_iff_getElem?.mpr ⟨i, List.getElem?_set_self hi⟩, hnames⟩

/-- What a step leaves behind: every file is known, nothing has been lost, and the writers keep their names. -/
structure Keeps (s : State) (fs₀ : FileSystem) (s' : State) : Prop where
  known : Known s' fs₀
  kept : Kept s.fs s'.fs
  fileNames : s'.writers.map FileWriter.fileName = s.writers.map FileWriter.fileName

/-- A method that leaves things tidy keeps what is known. -/
theorem keeps_of_call {method : FileWriter → FileSystem → FileWriter.Result}
    (hmethod : ∀ fa, s.writers[i]? = some fa →
      Ends (method fa s.fs) (Tidy (Others s fs₀ i) fa.fileName s.fs))
    (hcall : Clobber.call s i method = some s') : Keeps s fs₀ s' := by
  obtain ⟨fa, hfa, hstate⟩ := Option.bind_eq_some_iff.mp hcall
  obtain ⟨⟨fa', fs'⟩, hends, rfl⟩ := Option.map_eq_some_iff.mp hstate
  have htidy := hmethod fa hfa fa' fs' hends
  have hi : (s.writers.map FileWriter.fileName)[i]? = some fa.fileName := by
    rw [List.getElem?_map, hfa]
    rfl
  obtain ⟨hlt, hname⟩ := List.getElem?_eq_some_iff.mp hi
  refine ⟨known_of_tidy hfa htidy, htidy.kept, ?_⟩
  show (s.writers.set i fa').map FileWriter.fileName = _
  rw [List.map_set, htidy.fileName, ← hname, List.set_getElem_self hlt]

/-- The name that a rotation gives to the current file is new. -/
theorem LeavesNewHour.free {faults : Faults} {now : Hour} (h : Known s fs₀)
    (hnew : LeavesNewHour s fs₀ (.rotate i faults now)) (hfa : s.writers[i]? = some fa)
    (hrenames : Renames faults now fa s.fs) :
    s.fs.dir (fa.genLogFileName fa.currentFileSuffix) = none := by
  obtain ⟨hbefore, hwriters⟩ := hnew fa hfa hrenames
  by_contra hname
  rcases h _ hname with hthere | ⟨v, hv, hcurrent | ⟨suffix, hmem, hsuffix⟩⟩
  · exact hthere hbefore
  · exact (hwriters v hv).1 hcurrent.symm
  · obtain ⟨hpath, rfl⟩ := FileWriter.genLogFileName_eq_iff.mp hsuffix
    exact (hwriters v hv).2 hpath.symm hmem

theorem Known.step (h : Known s fs₀) {label : Label} (hnew : LeavesNewHour s fs₀ label)
    (hstep : Clobber.step s label = some s') : Keeps s fs₀ s' := by
  cases label with
  | write i faults r =>
      refine keeps_of_call ?_ hstep
      intro fa hfa fa' fs' hends
      obtain ⟨hnames, hwrote⟩ := FileWriter.ends_write faults r fa s.fs fa' fs' hends
      exact (h.tidy hfa).wrote hnames hwrote
  | flush i faults =>
      refine keeps_of_call ?_ hstep
      intro fa hfa fa' fs' hends
      obtain ⟨hnames, hwrote⟩ := FileWriter.ends_flush faults fa s.fs fa' fs' hends
      exact (h.tidy hfa).wrote hnames hwrote
  | rotate i faults now =>
      refine keeps_of_call ?_ hstep
      intro fa hfa
      exact (h.tidy hfa).rotate fun hrenames => hnew.free h hfa hrenames

/-- In a run from a state in which every file is known, nothing is lost. -/
theorem Known.reachableBy (h : Known s fs₀)
    (hs' : (system s).ReachableBy (fun s label => LeavesNewHour s fs₀ label) s') : Keeps s fs₀ s' := by
  induction hs' with
  | start => exact ⟨h, .refl s.fs, rfl⟩
  | step _ hnew hstep ih =>
      have hkeeps := ih.known.step hnew hstep
      exact ⟨hkeeps.known, ih.kept.trans hkeeps.kept, hkeeps.fileNames.trans ih.fileNames⟩

/-! ### From the configuration on -/

/-- Every file is known after the registration of some writers, nothing has been lost, and the writers have paths of
the configuration. -/
structure Registered (conf : LoggerConfig) (fs₀ : FileSystem) (l : DefaultLogger) (fs : FileSystem) : Prop where
  known : Known (started l fs) fs₀
  kept : Kept fs₀ fs
  fileNames : l.fileWriters.map FileWriter.fileName ⊆ conf.paths

variable {conf : LoggerConfig} {l l' : DefaultLogger} {fs fs' : FileSystem}

theorem registered_start (conf : LoggerConfig) (fs₀ : FileSystem) : Registered conf fs₀ {} fs₀ :=
  ⟨fun _ hname => .inl hname, .refl fs₀, List.nil_subset _⟩

theorem Registered.addFile (h : Registered conf fs₀ l fs) (fa : FileWriter) (calls : InitCalls)
    (hpath : fa.fileName ∈ conf.paths) (hregister : registerFile fa calls l fs = .ok (l', fs')) :
    Registered conf fs₀ l' fs' := by
  have hfile : Tidy (fun name => fs₀.dir name ≠ none ∨ ∃ v ∈ l.fileWriters, v.Names name) fa.fileName fs₀
      { fa with currentFileSuffix := calls.now.genCurrentFileSuffix } fs :=
    ⟨rfl, fun name hname => .inl (h.known name hname), h.kept⟩
  unfold registerFile FileWriter.init at hregister
  cases hcreate : FileWriter.crateFile calls.faults
      { fa with currentFileSuffix := calls.now.genCurrentFileSuffix } fs with
  | error failure =>
      rw [hcreate] at hregister
      cases hregister
  | ok state =>
      obtain ⟨fa', fs₁⟩ := state
      have htidy := hfile.crateFile fa' fs₁ (congrArg FileWriter.stateOf hcreate)
      rw [hcreate] at hregister
      cases hregister
      have hwriters : (l.addWriter (.file fa')).fileWriters = l.fileWriters ++ [fa'] := by
        simp [DefaultLogger.addWriter, DefaultLogger.fileWriters]
      refine ⟨?_, htidy.kept, ?_⟩
      · intro name hname
        show _ ∨ ∃ v ∈ (l.addWriter (.file fa')).fileWriters, v.Names name
        rw [hwriters]
        rcases htidy.known name hname with (hbefore | ⟨v, hv, hnames⟩) | hnames
        · exact .inl hbefore
        · exact .inr ⟨v, List.mem_append_left _ hv, hnames⟩
        · exact .inr ⟨fa', List.mem_append_right _ (List.mem_singleton_self _), hnames⟩
      · rw [hwriters, List.map_append, List.append_subset]
        refine ⟨h.fileNames, ?_⟩
        rw [List.map_singleton, htidy.fileName]
        exact fun _ hmem => List.mem_singleton.mp hmem ▸ hpath

/-- A console writer has no file. -/
theorem Registered.addConsole (h : Registered conf fs₀ l fs) (cw : ConsoleWriter) :
    Registered conf fs₀ (l.addWriter (.console cw)) fs := by
  have hwriters : (l.addWriter (.console cw)).fileWriters = l.fileWriters := by
    simp [DefaultLogger.addWriter, DefaultLogger.fileWriters]
  refine ⟨?_, h.kept, hwriters ▸ h.fileNames⟩
  intro name hname
  show _ ∨ ∃ v ∈ (l.addWriter (.console cw)).fileWriters, v.Names name
  rw [hwriters]
  exact h.known name hname

theorem registered_of_initLoggerWithConf {info wf : InitCalls}
    (haccept : conf.initLoggerWithConf info wf {} fs₀ = .ok (l, fs)) : Registered conf fs₀ l fs := by
  obtain ⟨⟨l₁, fs₁⟩, hinfo, haccept⟩ := Checked.bind_eq_ok_iff.mp haccept
  obtain ⟨⟨l₂, fs₂⟩, hwf, haccept⟩ := Checked.bind_eq_ok_iff.mp haccept
  obtain ⟨⟨l₃, fs₃⟩, hconsole, hlevel⟩ := Checked.bind_eq_ok_iff.mp haccept
  have h₁ : Registered conf fs₀ l₁ fs₁ := by
    unfold LoggerConfig.registerInfo at hinfo
    split at hinfo
    · rename_i hregistered
      exact (registered_start conf fs₀).addFile _ info (LoggerConfig.getInfoLogPath_mem_paths hregistered.1) hinfo
    · cases hinfo
      exact registered_start conf fs₀
  have h₂ : Registered conf fs₀ l₂ fs₂ := by
    unfold LoggerConfig.registerWf at hwf
    split at hwf
    · rename_i hregistered
      exact h₁.addFile _ wf (LoggerConfig.getWfLogPath_mem_paths hregistered.1) hwf
    · cases hwf
      exact h₁
  have h₃ : Registered conf fs₀ l₃ fs₃ := by
    unfold LoggerConfig.registerConsole at hconsole
    split at hconsole
    · split at hconsole
      · cases hconsole
      · cases hconsole
        exact h₂.addConsole _
    · cases hconsole
      exact h₂
  replace hlevel : conf.setFileLogLevel l₃ fs₃ = .ok (l, fs) := hlevel
  unfold LoggerConfig.setFileLogLevel at hlevel
  split at hlevel
  · cases hlevel
  · cases hlevel
    exact ⟨h₃.known, h₃.kept, h₃.fileNames⟩

/-- In a run after the configuration in which every rotation leaves an hour that is new, no file is replaced,
and what any file has held since before the configuration is in a file or was removed as overdue. The file system
acts on the files that the configured paths lead to. -/
theorem kept_reachableBy (r : PathResolution) {conf : LoggerConfig} {info wf : InitCalls}
    (haccept : (conf.resolved r).initLoggerWithConf info wf {} fs₀ = .ok (l, fs)) {s s' : State}
    (hs : (system (started l fs)).ReachableBy (fun s label => LeavesNewHour s fs₀ label) s)
    (hs' : (system s).ReachableBy (fun s label => LeavesNewHour s fs₀ label) s') :
    Kept fs₀ s.fs ∧ Kept s.fs s'.fs ∧ ∀ fa ∈ s.writers, conf.LedTo r fa := by
  have hstart := registered_of_initLoggerWithConf haccept
  have hkeeps := hstart.known.reachableBy hs
  refine ⟨hstart.kept.trans hkeeps.kept, (hkeeps.known.reachableBy hs').kept, fun fa hfa => ?_⟩
  apply LoggerConfig.ledTo_of_fileName
  apply hstart.fileNames
  show fa.fileName ∈ (started l fs).writers.map FileWriter.fileName
  rw [← hkeeps.fileNames]
  exact List.mem_map_of_mem hfa

def ten : Hour := .mayFirst 10

def eleven : Hour := .mayFirst 11

def atTen : InitCalls := { now := ten }

/-- The program runs in a directory without symbolic links. -/
def inSrv : PathResolution := .lexical [ascii "srv"]

/-- Two logs in one directory, which has two paths. -/
def twoLogs : LoggerConfig :=
  { fileWriterConfig := some { infoLogPath := some (ascii "logs/app.log"), wfLogPath := some (ascii "./logs/app.wf") } }

/-- `kept_reachableBy` for a rotation that leaves its first hour. -/
theorem kept_reachableBy_firstRotation :
    ∃ l fs s, (twoLogs.resolved inSrv).initLoggerWithConf atTen atTen {} FileSystem.empty = .ok (l, fs) ∧
      step (started l fs) (.rotate 1 {} eleven) = some s ∧ Kept FileSystem.empty s.fs ∧
      s.fs.dir (ascii "/srv/logs/app.wf.2024050110") ≠ none ∧ ∀ fa ∈ s.writers, twoLogs.LedTo inSrv fa := by
  have hrun : ∃ l fs s, (twoLogs.resolved inSrv).initLoggerWithConf atTen atTen {} FileSystem.empty = .ok (l, fs) ∧
      step (started l fs) (.rotate 1 {} eleven) = some s ∧
      s.fs.dir (ascii "/srv/logs/app.wf.2024050110") ≠ none ∧
      l.fileWriters.map (fun fa => (fa.fileName, fa.historyFileSuffix)) =
        [(ascii "/srv/logs/app.log", []), (ascii "/srv/logs/app.wf", [])] ∧
      (l.fileWriters[1]?.map fun fa => fa.genLogFileName fa.currentFileSuffix) =
        some (ascii "/srv/logs/app.wf.2024050110") :=
    ⟨_, _, _, rfl, rfl, by decide +kernel, by decide +kernel, by decide +kernel⟩
  obtain ⟨l, fs, s, haccept, hstep, hrotated, hwriters, hname⟩ := hrun
  have hnew : LeavesNewHour (started l fs) FileSystem.empty (.rotate 1 {} eleven) := by
    intro fa hfa _
    replace hfa : l.fileWriters[1]? = some fa := hfa
    rw [hfa] at hname
    refine ⟨rfl, fun v hv => ?_⟩
    have hmem := List.mem_map_of_mem (f := fun fa => (fa.fileName, fa.historyFileSuffix)) hv
    replace hmem := hwriters ▸ hmem
    have hpaths : ∀ file ∈ [(ascii "/srv/logs/app.log", ([] : List Nat)), (ascii "/srv/logs/app.wf", [])],
        file.1 ≠ ascii "/srv/logs/app.wf.2024050110" ∧ file.2 = [] := by decide
    obtain ⟨hne, hhistory⟩ := hpaths _ hmem
    replace hname : fa.genLogFileName fa.currentFileSuffix = _ := Option.some.inj hname
    replace hhistory : v.historyFileSuffix = [] := hhistory
    rw [hname, hhistory]
    exact ⟨hne, fun _ => List.not_mem_nil⟩
  obtain ⟨hkept, -, hled⟩ := kept_reachableBy inSrv haccept (.step (a := .rotate 1 {} eleven) .start hnew hstep) .start
  exact ⟨l, fs, s, haccept, hstep, hkept, hrotated, hled⟩

/-- A run that replaces a file. -/
theorem not_kept_of_run (conf : LoggerConfig) (labels : List Label)
    (hrun : ∃ l fs s, conf.initLoggerWithConf atTen atTen {} FileSystem.empty = .ok (l, fs) ∧
      (system (started l fs)).run (started l fs) labels = some s ∧ s.fs.replaced.length = 1) :
    ¬∀ l fs s, conf.initLoggerWithConf atTen atTen {} FileSystem.empty = .ok (l, fs) →
      (system (started l fs)).Reachable s → Kept FileSystem.empty s.fs := by
  intro hall
  obtain ⟨l, fs, s, haccept, hs, hreplaced⟩ := hrun
  have hkept := hall l fs s haccept (TransitionSystem.reachable_of_run hs)
  rw [hkept.replaced] at hreplaced
  cases hreplaced

/-- One log for all levels. -/
def oneLog : LoggerConfig :=
  { fileWriterConfig := some { infoLogPath := some (ascii "app.log"), wfLogPath := some [] } }

/-- Two logs, which are one. -/
def twoSpellings : LoggerConfig :=
  { fileWriterConfig := some { infoLogPath := some (ascii "app.log"), wfLogPath := some (ascii "./app.log") } }

def hi : Record := { timestamp := [], codeLine := [], message := ascii "hi", logLevel := .info }

/-- The clock shows ten, eleven, ten and eleven. -/
def clockBack : List Label := [.write 0 {} hi, .rotate 0 {} eleven, .rotate 0 {} ten, .rotate 0 {} eleven]

/-- Both writers rotate when eleven comes. -/
def bothRotate : List Label := [.write 0 {} hi, .rotate 0 {} eleven, .rotate 1 {} eleven]

/-- A rotated file is replaced, with one log and a clock that goes back by an hour, and with two paths that lead to
one file. -/
theorem not_kept_clockBack :
    (¬∀ l fs s, (oneLog.resolved inSrv).initLoggerWithConf atTen atTen {} FileSystem.empty = .ok (l, fs) →
      (system (started l fs)).Reachable s → Kept FileSystem.empty s.fs) ∧
    ¬∀ l fs s, (twoSpellings.resolved inSrv).initLoggerWithConf atTen atTen {} FileSystem.empty = .ok (l, fs) →
      (system (started l fs)).Reachable s → Kept FileSystem.empty s.fs :=
  ⟨not_kept_of_run _ clockBack ⟨_, _, _, rfl, rfl, rfl⟩, not_kept_of_run _ bothRotate ⟨_, _, _, rfl, rfl, rfl⟩⟩

end Clobber

end ToyBox.Logger
