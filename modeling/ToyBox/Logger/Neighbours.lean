import ToyBox.Library.FileFrame
import ToyBox.Logger.Rotation

/-! File writers that share a file system. A writer keeps to its file name and to the names it makes of it with an
hour, so writers whose names are apart leave each other's log alone. -/

namespace ToyBox.Logger

open FileSystem (Frame Plain)

namespace FileWriter

/-- The names a writer gives to its files, in any hour. -/
def Owns (fa : FileWriter) (name : Bytes) : Prop := name = fa.fileName ∨ ∃ suffix, name = fa.genLogFileName suffix

/-- The file name of neither is one that the other makes. -/
structure Apart (fa fa' : FileWriter) : Prop where
  current : fa.fileName ≠ fa'.fileName
  left : ∀ suffix, fa.fileName ≠ fa'.genLogFileName suffix
  right : ∀ suffix, fa'.fileName ≠ fa.genLogFileName suffix

theorem Apart.symm {fa fa' : FileWriter} (h : fa.Apart fa') : fa'.Apart fa := ⟨h.current.symm, h.right, h.left⟩

theorem Apart.not_owns {fa fa' : FileWriter} (h : fa.Apart fa') {name : Bytes} (howns : fa.Owns name) :
    ¬fa'.Owns name := by
  rintro (hcurrent | ⟨suffix', hsuffix'⟩)
  · rcases howns with hname | ⟨suffix, hsuffix⟩
    · exact h.current (hname.symm.trans hcurrent)
    · exact h.right suffix (hcurrent.symm.trans hsuffix)
  · rcases howns with hname | ⟨suffix, hsuffix⟩
    · exact h.left suffix' (hname.symm.trans hsuffix')
    · exact h.current (genLogFileName_eq_iff.mp (hsuffix.symm.trans hsuffix')).1

theorem owns_congr {fa fa' : FileWriter} (h : fa'.fileName = fa.fileName) : fa'.Owns = fa.Owns := by
  funext name
  rw [Owns, Owns, h]
  simp only [genLogFileName, h]

variable {fa fa' : FileWriter} {fs fs' : FileSystem} {inode : Nat} {buf : Bytes} {faults : Faults}

theorem owns_fileName (fa : FileWriter) : fa.Owns fa.fileName := .inl rfl

theorem owns_genLogFileName (fa : FileWriter) (suffix : Nat) : fa.Owns (fa.genLogFileName suffix) :=
  .inr ⟨suffix, rfl⟩

/-! ### What the methods leave alone -/

theorem Open.frame_write (h : fa.Open fs inode buf) (hplain : fs.Plain) {r : Record}
    (hwrite : fa.write {} r fs = .ok (fa', fs')) : Frame fa.Owns fa.file fs fs' := by
  by_cases haccepts : fa.Accepts r
  · obtain ⟨out, buf', b, hdone, -⟩ := h.write haccepts
    cases hwrite.symm.trans hdone
    exact FileSystem.frame_append hplain fa.owns_fileName h.dir out
  · unfold FileWriter.write at hwrite
    rw [if_neg haccepts] at hwrite
    cases hwrite
    exact .refl hplain

theorem Open.frame_flush (h : fa.Open fs inode buf) (hplain : fs.Plain)
    (hflush : fa.flush {} fs = .ok (fa', fs')) : Frame fa.Owns fa.file fs fs' := by
  obtain ⟨handle, -, -, hdone, -⟩ := h.flush (flushPasses_noFaults fa)
  cases hflush.symm.trans hdone
  exact FileSystem.frame_append hplain fa.owns_fileName h.dir buf

theorem frame_crateFile (owned : Option Nat) (hplain : fs.Plain) (hcreate : fa.crateFile faults fs = .ok (fa', fs')) :
    Frame fa.Owns owned fs fs' ∧ fa'.fileName = fa.fileName := by
  unfold crateFile at hcreate
  split_ifs at hcreate
  cases hcreate
  exact ⟨FileSystem.frame_openFile hplain fa.owns_fileName, rfl⟩

theorem frame_init (owned : Option Nat) (hplain : fs.Plain) {now : Hour} (hinit : fa.init faults now fs = .ok (fa', fs')) :
    Frame fa.Owns owned fs fs' := by
  have hcreate := frame_crateFile owned hplain hinit
  have hname : ({ fa with currentFileSuffix := now.genCurrentFileSuffix } : FileWriter).fileName = fa.fileName := rfl
  rw [owns_congr hname] at hcreate
  exact hcreate.1

theorem frame_renameFile (owned : Option Nat) (hplain : fs.Plain) {curFileSuffix : Nat}
    (hrename : fa.renameFile faults curFileSuffix fs = .ok (fa', fs')) :
    Frame fa.Owns owned fs fs' ∧ fa'.fileName = fa.fileName ∧ fa'.file = fa.file := by
  unfold renameFile at hrename
  split at hrename
  · cases hrename
    exact ⟨.refl hplain, rfl, rfl⟩
  split at hrename
  · cases hrename
  split at hrename
  · cases hrename
  · rename_i hfs
    cases hrename
    exact ⟨FileSystem.frame_rename hplain fa.owns_fileName (fa.owns_genLogFileName _) hfs, rfl, rfl⟩

theorem frame_closeFile (mine : Bytes → Prop) (hplain : fs.Plain)
    (hclose : fa.closeFile faults fs = .ok (fa', fs')) : Frame mine fa.file fs fs' ∧ fa' = fa := by
  unfold closeFile at hclose
  split at hclose
  · cases hclose
  rename_i hfs
  split at hclose
  · cases hclose
  cases hclose
  obtain ⟨handle, hfile, hclosed⟩ := Option.bind_eq_some_iff.mp hfs
  rw [hfile]
  exact ⟨FileSystem.frame_close hplain hclosed, rfl⟩

theorem frame_removeOverdue (owned : Option Nat) (hplain : fs.Plain) (hremove : fa.removeOverdue faults fs = .ok (fa', fs')) :
    Frame fa.Owns owned fs fs' := by
  unfold removeOverdue at hremove
  split at hremove
  swap
  · cases hremove
    exact .refl hplain
  split at hremove
  · cases hremove
  split at hremove
  · cases hremove
  split at hremove
  · cases hremove
  · rename_i hfs
    cases hremove
    exact FileSystem.frame_remove hplain (fa.owns_genLogFileName _) hfs

theorem Open.frame_rotate (h : fa.Open fs inode buf) (hplain : fs.Plain) {now : Hour}
    (hrotate : fa.rotate {} now fs = .ok (fa', fs')) : Frame fa.Owns fa.file fs fs' := by
  by_cases hnow : now.genCurrentFileSuffix = fa.currentFileSuffix
  · unfold FileWriter.rotate at hrotate
    rw [if_pos hnow] at hrotate
    cases hrotate
    exact .refl hplain
  obtain ⟨handle, -, hwriter, -⟩ := h.writer
  obtain ⟨handle', -, -, hflush, -⟩ := h.flush (flushPasses_noFaults fa)
  have hframe := h.frame_flush hplain hflush
  rw [rotate_of_flush_ok hnow hwriter hflush] at hrotate
  obtain ⟨⟨fa₂, fs₂⟩, hrename, hrotate⟩ := Checked.bind_eq_ok_iff.mp hrotate
  obtain ⟨⟨fa₃, fs₃⟩, hclose, hrotate⟩ := Checked.bind_eq_ok_iff.mp hrotate
  obtain ⟨⟨fa₄, fs₄⟩, hcreate, hremove⟩ := Checked.bind_eq_ok_iff.mp hrotate
  obtain ⟨hframe₂, hname₂, hfile₂⟩ := frame_renameFile fa.file hframe.plain hrename
  obtain ⟨hframe₃, rfl⟩ := frame_closeFile fa.Owns hframe₂.plain hclose
  obtain ⟨hframe₄, hname₄⟩ := frame_crateFile fa.file hframe₃.plain hcreate
  have hframe₅ := frame_removeOverdue fa.file hframe₄.plain hremove
  replace hname₂ : fa₃.fileName = fa.fileName := hname₂
  replace hfile₂ : fa₃.file = fa.file := hfile₂
  replace hframe₂ : Frame fa.Owns fa.file _ fs₂ := hframe₂
  rw [hfile₂] at hframe₃
  rw [owns_congr hname₂] at hframe₄
  rw [owns_congr (hname₄.trans hname₂)] at hframe₅
  exact hframe.trans (hframe₂.trans (hframe₃.trans (hframe₄.trans hframe₅)))

/-- Two writers do not have one file open under one handle. -/
theorem Open.file_ne {inode' : Nat} {buf' : Bytes} (h : fa.Open fs inode buf) (h' : fa'.Open fs inode' buf')
    (hplain : fs.Plain) (hne : fa.fileName ≠ fa'.fileName) : fa.file ≠ fa'.file := by
  intro hfile
  obtain ⟨handle, hhandle, -, hopen⟩ := h.writer
  obtain ⟨handle', hhandle', -, hopen'⟩ := h'.writer
  rw [hhandle, hhandle'] at hfile
  cases hfile
  cases hopen.symm.trans hopen'
  exact hne (hplain.unique _ _ _ h.dir h'.dir)

end FileWriter

namespace Rotation

variable {fa₀ : FileWriter} {fs₀ : FileSystem} {start : Hour} {s : State}
  {gone kept : List (Nat × Bytes)} {inode : Nat} {buf : Bytes}

/-- The log of a writer is not disturbed by what happens to files of other names. -/
theorem Represents.frame (h : Represents fa₀ fs₀ start s gone kept inode buf) {mine : Bytes → Prop}
    {owned : Option Nat} {fs' : FileSystem} (hplain : s.fs.Plain) (hframe : Frame mine owned s.fs fs')
    (hmine : ∀ name, fa₀.Owns name → ¬mine name) (howned : s.fa.file ≠ owned) :
    Represents fa₀ fs₀ start { s with fs := { fs' with removed := s.fs.removed } } gone kept inode buf := by
  have hname : ¬mine s.fa.fileName := hmine _ (.inl h.config.fileName)
  have hsuffix : ∀ suffix, ¬mine (fa₀.genLogFileName suffix) := fun suffix => hmine _ (.inr ⟨suffix, rfl⟩)
  obtain ⟨handle, hfile, hwriter, hopen⟩ := h.isOpen.writer
  have hlt : handle < s.fs.nextHandle := by
    apply hplain.handles
    rw [hopen]
    exact Option.some_ne_none inode
  have hhandles : fs'.handles handle = some inode := by
    rw [hframe.handles handle hlt (fun heq => howned (hfile.trans heq.symm)), hopen]
  exact { h with
    config := ⟨h.config.fileName, h.config.floor, h.config.ceiling, h.config.retainHours⟩
    isOpen := ⟨⟨handle, hfile, hwriter, hhandles⟩, (hframe.dir _ hname).trans h.isOpen.dir⟩
    current := by
      rw [← h.current]
      exact congrArg (· ++ buf) (hframe.data _ inode hname h.isOpen.dir)
    files := by
      intro segment hmem
      obtain ⟨i, hne, hdir, hdata⟩ := h.files segment hmem
      exact ⟨i, hne, (hframe.dir _ (hsuffix _)).trans hdir, (hframe.data _ i (hsuffix _) hdir).trans hdata⟩
    free := by
      intro t hstart hmem
      exact (hframe.dir _ (hsuffix _)).trans (h.free t hstart hmem) }

/-- Time passes. -/
theorem Represents.advance (h : Represents fa₀ fs₀ start s gone kept inode buf) {now : Hour} (hnow : s.now ≤ now) :
    Represents fa₀ fs₀ start { s with now } gone kept inode buf := by
  obtain ⟨t, hstart, hle, ht⟩ := h.key
  have hle' : t ≤ now := by
    apply Hour.genCurrentFileSuffix_le.mp
    calc
      t.genCurrentFileSuffix ≤ s.now.genCurrentFileSuffix := Hour.genCurrentFileSuffix_le.mpr hle
      _ ≤ now.genCurrentFileSuffix := Hour.genCurrentFileSuffix_le.mpr hnow
  exact { h with
    config := ⟨h.config.fileName, h.config.floor, h.config.ceiling, h.config.retainHours⟩
    key := ⟨t, hstart, hle', ht⟩ }

end Rotation

end ToyBox.Logger
