import Mathlib.Data.Option.Basic
import Mathlib.Logic.Function.Basic
import ToyBox.Library.Bytes
import ToyBox.Library.Checked

/-! A file system with open files, and a buffered writer on top of it. A directory entry names an inode;
renaming moves the entry and keeps the inode, so a file that is open stays open under its new name. The names
are what paths lead to (`PathResolution`): different names are different entries, and none is a symbolic link. A
call can be made to fail; a failed call gives an error together with the state it leaves behind. -/

namespace ToyBox

structure FileSystem where
  dir : Bytes → Option Nat
  data : Nat → Bytes
  /-- The next inode to be handed out. -/
  nextInode : Nat
  /-- The open files. -/
  handles : Nat → Option Nat := fun _ => none
  nextHandle : Nat := 0
  /-- The contents of the files that were removed, and of those a rename has replaced. -/
  removed : List Bytes := []
  replaced : List Bytes := []
  dir_lt : ∀ name inode, dir name = some inode → inode < nextInode

namespace FileSystem

def empty : FileSystem where
  dir _ := none
  data _ := []
  nextInode := 0
  dir_lt _ _ h := nomatch h

variable (fs : FileSystem)

/-- The content of a file, empty if there is none of the name. -/
def content (name : Bytes) : Bytes := ((fs.dir name).map fs.data).getD []

/-- Bytes appended to a file. -/
def append (inode : Nat) (bytes : Bytes) : FileSystem :=
  { fs with data := Function.update fs.data inode (fs.data inode ++ bytes) }

/-- `write` to an open file in append mode. A fault lets it fail after some bytes; the result is the number
of bytes written when it fails. -/
def write (fault : Option Nat) (handle : Nat) (bytes : Bytes) : FileSystem × Option Nat :=
  match fs.handles handle, fault with
  | none, _ => (fs, some 0)
  | some inode, some n => (fs.append inode (bytes.take n), some (min n bytes.length))
  | some inode, none => (fs.append inode bytes, none)

/-- `open` with `O_CREATE`: the file system and the new handle. -/
def openFile (name : Bytes) : FileSystem × Nat :=
  match fs.dir name with
  | some inode =>
      ({ fs with
        handles := Function.update fs.handles fs.nextHandle (some inode)
        nextHandle := fs.nextHandle + 1 }, fs.nextHandle)
  | none =>
      ({ fs with
        dir := Function.update fs.dir name (some fs.nextInode)
        data := Function.update fs.data fs.nextInode []
        nextInode := fs.nextInode + 1
        handles := Function.update fs.handles fs.nextHandle (some fs.nextInode)
        nextHandle := fs.nextHandle + 1
        dir_lt := fun name' inode h => by
          by_cases hname : name' = name
          · rw [hname, Function.update_self] at h
            exact Option.some.inj h ▸ Nat.lt_succ_self _
          · rw [Function.update_of_ne hname] at h
            exact Nat.lt_succ_of_lt (fs.dir_lt name' inode h) }, fs.nextHandle)

/-- `rename`, which replaces a file of the new name. -/
def rename (oldName newName : Bytes) : Option FileSystem :=
  match h : fs.dir oldName with
  | none => none
  | some inode =>
      some { fs with
        dir := Function.update (Function.update fs.dir oldName none) newName (some inode)
        replaced :=
          if oldName = newName then fs.replaced
          else fs.replaced ++ ((fs.dir newName).map fs.data).toList
        dir_lt := fun name inode' hname => by
          by_cases hnew : name = newName
          · rw [hnew, Function.update_self] at hname
            exact Option.some.inj hname ▸ fs.dir_lt oldName inode h
          · rw [Function.update_of_ne hnew] at hname
            by_cases hold : name = oldName
            · rw [hold, Function.update_self] at hname
              cases hname
            · rw [Function.update_of_ne hold] at hname
              exact fs.dir_lt name inode' hname }

/-- `close`, which fails on a file that is not open. -/
def close (handle : Nat) : Option FileSystem :=
  match fs.handles handle with
  | none => none
  | some _ => some { fs with handles := Function.update fs.handles handle none }

/-- `remove`. -/
def remove (name : Bytes) : Option FileSystem :=
  match fs.dir name with
  | none => none
  | some inode =>
      some { fs with
        dir := Function.update fs.dir name none
        removed := fs.removed ++ [fs.data inode]
        dir_lt := fun name' inode' h => by
          by_cases hname : name' = name
          · rw [hname, Function.update_self] at h
            cases h
          · rw [Function.update_of_ne hname] at h
            exact fs.dir_lt name' inode' h }

@[simp] theorem append_nil (inode : Nat) : fs.append inode [] = fs := by
  rw [append, List.append_nil, Function.update_eq_self]

theorem append_append (inode : Nat) (a b : Bytes) :
    (fs.append inode a).append inode b = fs.append inode (a ++ b) := by
  rw [append, append, append]
  simp

variable {fs}

theorem write_of_open {handle inode : Nat} (h : fs.handles handle = some inode) (bytes : Bytes) :
    fs.write none handle bytes = (fs.append inode bytes, none) := by
  unfold write
  rw [h]

theorem content_of_dir {name : Bytes} {inode : Nat} (h : fs.dir name = some inode) :
    fs.content name = fs.data inode := by
  rw [content, h]
  rfl

theorem rename_of_dir {oldName newName : Bytes} {inode : Nat} (h : fs.dir oldName = some inode)
    (hne : oldName ≠ newName) : ∃ fs', fs.rename oldName newName = some fs' ∧
      fs'.dir = Function.update (Function.update fs.dir oldName none) newName (some inode) ∧
      fs'.data = fs.data ∧ fs'.nextInode = fs.nextInode ∧ fs'.handles = fs.handles ∧
      fs'.removed = fs.removed ∧
      fs'.replaced = fs.replaced ++ ((fs.dir newName).map fs.data).toList := by
  rw [rename]
  split
  · rename_i hnone
    rw [h] at hnone
    cases hnone
  · rename_i inode' hsome
    obtain rfl := Option.some.inj (h.symm.trans hsome)
    exact ⟨_, rfl, rfl, rfl, rfl, rfl, rfl, if_neg hne⟩

theorem close_of_open {handle inode : Nat} (h : fs.handles handle = some inode) :
    fs.close handle = some { fs with handles := Function.update fs.handles handle none } := by
  unfold close
  rw [h]

theorem remove_of_dir {name : Bytes} {inode : Nat} (h : fs.dir name = some inode) :
    ∃ fs', fs.remove name = some fs' ∧ fs'.dir = Function.update fs.dir name none ∧
      fs'.data = fs.data ∧ fs'.handles = fs.handles ∧ fs'.removed = fs.removed ++ [fs.data inode] ∧
      fs'.replaced = fs.replaced := by
  rw [remove]
  split
  · rename_i hnone
    rw [h] at hnone
    cases hnone
  · rename_i inode' hsome
    obtain rfl := Option.some.inj (h.symm.trans hsome)
    exact ⟨_, rfl, rfl, rfl, rfl, rfl, rfl⟩

theorem remove_of_none {name : Bytes} (h : fs.dir name = none) : fs.remove name = none := by
  unfold remove
  split
  · rfl
  · rename_i hsome
    rw [h] at hsome
    cases hsome

/-- After an attempt to remove a file there is none of the name. -/
theorem remove_getD (fs : FileSystem) (name : Bytes) :
    ((fs.remove name).getD fs).dir = Function.update fs.dir name none ∧
      ((fs.remove name).getD fs).handles = fs.handles := by
  cases hname : fs.dir name with
  | none =>
      rw [remove_of_none hname, Option.getD_none, ← hname, Function.update_eq_self]
      exact ⟨rfl, rfl⟩
  | some inode =>
      obtain ⟨fs', hremove, hdir, -, hhandles, -⟩ := remove_of_dir hname
      rw [hremove, Option.getD_some]
      exact ⟨hdir, hhandles⟩

theorem rename_of_none {oldName newName : Bytes} (h : fs.dir oldName = none) :
    fs.rename oldName newName = none := by
  unfold rename
  split
  · rfl
  · rename_i hsome
    rw [h] at hsome
    cases hsome

/-- A file that is opened keeps its content; if there was none, its inode is new. -/
theorem openFile_spec (name : Bytes) :
    ∃ fs' handle inode, fs.openFile name = (fs', handle) ∧
      fs'.dir = Function.update fs.dir name (some inode) ∧ fs'.handles handle = some inode ∧
      fs'.data inode = fs.content name ∧ (∀ i < fs.nextInode, fs'.data i = fs.data i) ∧
      fs'.removed = fs.removed ∧ fs'.replaced = fs.replaced ∧
      (fs.dir name = none → inode = fs.nextInode) := by
  unfold openFile
  split
  · rename_i inode hsome
    refine ⟨_, _, inode, rfl, ?_, Function.update_self _ _ _, (content_of_dir hsome).symm,
      fun _ _ => rfl, rfl, rfl, ?_⟩
    · rw [← hsome, Function.update_eq_self]
    · intro hnone
      rw [hsome] at hnone
      cases hnone
  · rename_i hnone
    refine ⟨_, _, fs.nextInode, rfl, rfl, Function.update_self _ _ _, ?_, ?_, rfl, rfl, fun _ => rfl⟩
    · rw [content, hnone]
      exact Function.update_self _ _ _
    · intro i hi
      exact Function.update_of_ne (Nat.ne_of_lt hi) _ _

/-! ### Where the names come from -/

theorem dir_of_rename {fs' : FileSystem} {oldName newName name : Bytes} (h : fs.rename oldName newName = some fs')
    (hnew : name ≠ newName) (hname : fs'.dir name ≠ none) : fs.dir name ≠ none := by
  unfold rename at h
  split at h
  · cases h
  · cases h
    replace hname : Function.update (Function.update fs.dir oldName none) newName _ name ≠ none := hname
    rw [Function.update_of_ne hnew] at hname
    by_cases hold : name = oldName
    · rw [hold, Function.update_self] at hname
      exact absurd rfl hname
    · rwa [Function.update_of_ne hold] at hname

theorem dir_of_openFile {name name' : Bytes} (hne : name' ≠ name)
    (hname : (fs.openFile name).1.dir name' ≠ none) : fs.dir name' ≠ none := by
  obtain ⟨fs', handle, inode, hopen, hdir, -⟩ := fs.openFile_spec name
  rw [hopen] at hname
  replace hname : fs'.dir name' ≠ none := hname
  rwa [hdir, Function.update_of_ne hne] at hname

theorem dir_of_remove {fs' : FileSystem} {name name' : Bytes} (h : fs.remove name = some fs')
    (hname : fs'.dir name' ≠ none) : name' ≠ name ∧ fs.dir name' ≠ none := by
  unfold remove at h
  split at h
  · cases h
  · cases h
    replace hname : Function.update fs.dir name none name' ≠ none := hname
    by_cases heq : name' = name
    · rw [heq, Function.update_self] at hname
      exact absurd rfl hname
    · rw [Function.update_of_ne heq] at hname
      exact ⟨heq, hname⟩

/-! ### What is kept -/

/-- Nothing is lost but by removal: what a file holds is still in a file, which may have a new name and more
in it, or it is in what was removed. -/
structure Kept (fs fs' : FileSystem) : Prop where
  files : ∀ name inode, fs.dir name = some inode →
    (∃ name', fs'.dir name' = some inode ∧ fs.data inode <+: fs'.data inode) ∨
      ∃ bytes ∈ fs'.removed, fs.data inode <+: bytes
  removed : fs.removed <+: fs'.removed
  replaced : fs'.replaced = fs.replaced

variable {fs' fs'' : FileSystem}

/-- A file system with the same files and the same handled inodes. -/
theorem kept_of_data (hdir : fs'.dir = fs.dir) (hdata : ∀ inode, fs.data inode <+: fs'.data inode)
    (hremoved : fs'.removed = fs.removed) (hreplaced : fs'.replaced = fs.replaced) : Kept fs fs' where
  files name inode h := .inl ⟨name, hdir ▸ h, hdata inode⟩
  removed := hremoved ▸ List.prefix_rfl
  replaced := hreplaced

theorem Kept.refl (fs : FileSystem) : Kept fs fs :=
  kept_of_data rfl (fun _ => List.prefix_rfl) rfl rfl

theorem Kept.trans (h : Kept fs fs') (h' : Kept fs' fs'') : Kept fs fs'' where
  files name inode hname := by
    rcases h.files name inode hname with ⟨name', hname', hdata⟩ | ⟨bytes, hmem, hdata⟩
    · rcases h'.files name' inode hname' with ⟨name'', hname'', hdata'⟩ | ⟨bytes, hmem, hdata'⟩
      · exact .inl ⟨name'', hname'', hdata.trans hdata'⟩
      · exact .inr ⟨bytes, hmem, hdata.trans hdata'⟩
    · exact .inr ⟨bytes, h'.removed.subset hmem, hdata⟩
  removed := h.removed.trans h'.removed
  replaced := h'.replaced.trans h.replaced

theorem kept_append (inode : Nat) (bytes : Bytes) : Kept fs (fs.append inode bytes) := by
  refine kept_of_data rfl ?_ rfl rfl
  intro i
  show _ <+: Function.update fs.data inode (fs.data inode ++ bytes) i
  by_cases hi : i = inode
  · rw [hi, Function.update_self]
    exact List.prefix_append _ _
  · have hsame := Function.update_of_ne hi (fs.data inode ++ bytes) fs.data
    exact hsame.symm ▸ List.prefix_rfl

/-- What writing to open files does: their names stay as they are. -/
structure Wrote (fs fs' : FileSystem) : Prop where
  kept : Kept fs fs'
  dir : fs'.dir = fs.dir

theorem Wrote.refl (fs : FileSystem) : Wrote fs fs := ⟨.refl fs, rfl⟩

theorem Wrote.trans (h : Wrote fs fs') (h' : Wrote fs' fs'') : Wrote fs fs'' :=
  ⟨h.kept.trans h'.kept, h'.dir.trans h.dir⟩

theorem wrote_write (fs : FileSystem) (fault : Option Nat) (handle : Nat) (bytes : Bytes) :
    Wrote fs (fs.write fault handle bytes).1 := by
  unfold write
  cases fs.handles handle with
  | none => exact .refl fs
  | some inode =>
      cases fault with
      | none => exact ⟨kept_append inode bytes, rfl⟩
      | some n => exact ⟨kept_append inode (bytes.take n), rfl⟩

/-- A rename loses nothing if there is no file of the new name. -/
theorem kept_rename {oldName newName : Bytes} (hfree : fs.dir newName = none)
    (h : fs.rename oldName newName = some fs') : Kept fs fs' := by
  have hne : oldName ≠ newName := by
    rintro rfl
    rw [rename_of_none hfree] at h
    cases h
  cases hold : fs.dir oldName with
  | none =>
      rw [rename_of_none hold] at h
      cases h
  | some i =>
      obtain ⟨fs₁, hrename, hdir, hdata, -, -, hremoved, hreplaced⟩ := rename_of_dir hold hne
      cases h.symm.trans hrename
      refine ⟨?_, hremoved ▸ List.prefix_rfl, ?_⟩
      · intro name inode hname
        left
        rw [hdir, hdata]
        by_cases hname' : name = oldName
        · rw [hname', hold] at hname
          cases hname
          exact ⟨newName, Function.update_self _ _ _, List.prefix_rfl⟩
        · have hnew : name ≠ newName := by
            rintro rfl
            rw [hfree] at hname
            cases hname
          refine ⟨name, ?_, List.prefix_rfl⟩
          rw [Function.update_of_ne hnew, Function.update_of_ne hname', hname]
      · rw [hreplaced, hfree]
        exact List.append_nil _

theorem wrote_close {handle : Nat} (h : fs.close handle = some fs') : Wrote fs fs' := by
  unfold close at h
  split at h
  · cases h
  · cases h
    exact ⟨kept_of_data rfl (fun _ => List.prefix_rfl) rfl rfl, rfl⟩

theorem kept_openFile (name : Bytes) : Kept fs (fs.openFile name).1 := by
  unfold openFile
  split
  · exact kept_of_data rfl (fun _ => List.prefix_rfl) rfl rfl
  · rename_i hnone
    refine ⟨?_, List.prefix_rfl, rfl⟩
    intro name' inode hname'
    have hne : name' ≠ name := by
      rintro rfl
      rw [hnone] at hname'
      cases hname'
    have hlt : inode < fs.nextInode := fs.dir_lt name' inode hname'
    refine .inl ⟨name', ?_, ?_⟩
    · show Function.update fs.dir name (some fs.nextInode) name' = _
      rw [Function.update_of_ne hne, hname']
    · have hsame := Function.update_of_ne (Nat.ne_of_lt hlt) [] fs.data
      exact hsame.symm ▸ List.prefix_rfl

theorem kept_remove {name : Bytes} (h : fs.remove name = some fs') : Kept fs fs' := by
  cases hname : fs.dir name with
  | none =>
      rw [remove_of_none hname] at h
      cases h
  | some i =>
      obtain ⟨fs₁, hremove, hdir, hdata, -, hremoved, hreplaced⟩ := remove_of_dir hname
      cases h.symm.trans hremove
      refine ⟨?_, hremoved ▸ List.prefix_append _ _, hreplaced⟩
      intro name' inode hname'
      by_cases heq : name' = name
      · rw [heq, hname] at hname'
        cases hname'
        exact .inr ⟨fs.data i, hremoved ▸ List.mem_append_right _ (List.mem_singleton_self _), List.prefix_rfl⟩
      · left
        refine ⟨name', ?_, hdata ▸ List.prefix_rfl⟩
        rw [hdir, Function.update_of_ne heq, hname']

end FileSystem

/-! ### Buffered writes -/

/-- A buffered writer to an open file. After a failed write every further call fails. -/
structure BufWriter where
  wr : Nat
  buf : Bytes := []
  err : Bool := false

namespace BufWriter

/-- The writer and the file system after a call, and whether it failed. -/
abbrev Result := Except (BufWriter × FileSystem) (BufWriter × FileSystem)

def flush (fault : Option Nat) (b : BufWriter) (fs : FileSystem) : Result :=
  if b.err then .error (b, fs)
  else if b.buf = [] then .ok (b, fs)
  else
    match fs.write fault b.wr b.buf with
    | (fs, none) => .ok ({ b with buf := [] }, fs)
    | (fs, some n) => .error ({ b with buf := b.buf.drop n, err := true }, fs)

/-- A write that bypasses the empty buffer. -/
def writeThrough (fault : Option Nat) (s : Bytes) (b : BufWriter) (fs : FileSystem) : Result :=
  match fs.write fault b.wr s with
  | (fs, none) => .ok (b, fs)
  | (fs, some _) => .error ({ b with err := true }, fs)

/-- `WriteString` with a buffer of some size. The loop that fills and flushes the buffer makes at most one
round before the buffer is empty; what then does not fit into it is written at once. -/
def writeString (size : Nat) (fault : Option Nat) (s : Bytes) (b : BufWriter) (fs : FileSystem) :
    Result :=
  if b.err then .error (b, fs)
  else if b.buf.length + s.length ≤ size then .ok ({ b with buf := b.buf ++ s }, fs)
  else if b.buf = [] then b.writeThrough fault s fs
  else do
    let room := size - b.buf.length
    let (b, fs) ← flush fault { b with buf := b.buf ++ s.take room } fs
    let s := s.drop room
    if s.length ≤ size then .ok ({ b with buf := s }, fs) else b.writeThrough fault s fs

variable {fs : FileSystem} {wr inode : Nat} (hopen : fs.handles wr = some inode)

include hopen

/-- On an open file a flush writes the buffer out; if that is empty, nothing is called that could fail. -/
theorem flush_of_open {fault : Option Nat} {buf : Bytes} (h : fault = none ∨ buf = []) :
    flush fault { wr, buf } fs = .ok ({ wr }, fs.append inode buf) := by
  unfold flush
  rw [if_neg Bool.false_ne_true]
  by_cases hbuf : buf = []
  · rw [if_pos hbuf, hbuf, FileSystem.append_nil]
  · rw [if_neg hbuf, h.resolve_right hbuf, FileSystem.write_of_open hopen]

omit hopen in
/-- A flush that fails leaves an error in the writer. -/
theorem flush_fails {n : Nat} {buf : Bytes} (hbuf : buf ≠ []) :
    ∃ b fs', flush (some n) { wr, buf } fs = .error (b, fs') ∧ b.err = true := by
  unfold flush
  rw [if_neg Bool.false_ne_true, if_neg hbuf]
  unfold FileSystem.write
  cases fs.handles wr with
  | none => exact ⟨_, _, rfl, rfl⟩
  | some inode => exact ⟨_, _, rfl, rfl⟩

theorem writeThrough_of_open (s buf : Bytes) :
    writeThrough none s { wr, buf } fs = .ok ({ wr, buf }, fs.append inode s) := by
  unfold writeThrough
  rw [FileSystem.write_of_open hopen]

/-- On an open file nothing of a written string is lost: a part is written out and the rest is in the
buffer, behind what was there. -/
theorem writeString_of_open (size : Nat) (s buf : Bytes) :
    ∃ out buf', writeString size none s { wr, buf } fs = .ok ({ wr, buf := buf' }, fs.append inode out) ∧
      out ++ buf' = buf ++ s := by
  unfold writeString
  rw [if_neg Bool.false_ne_true]
  by_cases hfits : buf.length + s.length ≤ size
  · exact ⟨[], buf ++ s, by rw [if_pos hfits, FileSystem.append_nil], rfl⟩
  rw [if_neg hfits]
  by_cases hbuf : buf = []
  · refine ⟨s, [], ?_, by rw [hbuf, List.append_nil, List.nil_append]⟩
    rw [if_pos hbuf, writeThrough_of_open hopen, ← hbuf]
  rw [if_neg hbuf]
  let room := size - buf.length
  let fs' := fs.append inode (buf ++ s.take room)
  have hflush : flush none { wr, buf := buf ++ s.take room } fs = .ok ({ wr }, fs') :=
    flush_of_open hopen (.inl rfl)
  have hparts : s.take room ++ s.drop room = s := List.take_append_drop room s
  by_cases hrest : (s.drop room).length ≤ size
  · refine ⟨buf ++ s.take room, s.drop room, ?_, by rw [List.append_assoc, hparts]⟩
    show (flush none { wr, buf := buf ++ s.take room } fs >>= _) = _
    rw [hflush]
    exact if_pos hrest
  · refine ⟨buf ++ s, [], ?_, List.append_nil _⟩
    show (flush none { wr, buf := buf ++ s.take room } fs >>= _) = _
    rw [hflush]
    apply (if_neg hrest).trans
    have hopen' : fs'.handles wr = some inode := hopen
    rw [writeThrough_of_open hopen', FileSystem.append_append, List.append_assoc, hparts]

omit hopen

theorem buf_of_flush {fault : Option Nat} {b b' : BufWriter} {fs fs' : FileSystem}
    (h : flush fault b fs = .ok (b', fs')) : b'.buf = [] := by
  unfold flush at h
  split at h
  · cases h
  split at h
  · rename_i hbuf
    cases h
    exact hbuf
  split at h
  · cases h
    rfl
  · cases h

theorem buf_of_writeThrough {fault : Option Nat} {s : Bytes} {b b' : BufWriter} {fs fs' : FileSystem}
    (h : writeThrough fault s b fs = .ok (b', fs')) : b'.buf = b.buf := by
  unfold writeThrough at h
  split at h
  · cases h
    rfl
  · cases h

/-- The buffer does not outgrow its size. -/
theorem length_buf_of_writeString {size : Nat} {fault : Option Nat} {s : Bytes} {b b' : BufWriter}
    {fs fs' : FileSystem} (h : writeString size fault s b fs = .ok (b', fs')) : b'.buf.length ≤ size := by
  unfold writeString at h
  split at h
  · cases h
  split at h
  · rename_i hfits
    cases h
    rw [List.length_append]
    exact hfits
  split at h
  · rename_i hempty
    rw [buf_of_writeThrough h, hempty]
    exact Nat.zero_le size
  · obtain ⟨⟨b₁, fs₁⟩, hflush, h⟩ := Checked.bind_eq_ok_iff.mp h
    replace h : (if _ then _ else _) = Except.ok (b', fs') := h
    split at h
    · rename_i hrest
      cases h
      exact hrest
    · rw [buf_of_writeThrough h, buf_of_flush hflush]
      exact Nat.zero_le size

/-- A flush can succeed: no earlier write has failed, and there is nothing to write, or writing works. -/
def Flushes (fault : Option Nat) (b : BufWriter) (fs : FileSystem) : Prop :=
  b.err = false ∧ (b.buf = [] ∨ fault = none ∧ fs.handles b.wr ≠ none)

theorem flushes_of_flush {fault : Option Nat} {b b' : BufWriter} {fs fs' : FileSystem}
    (h : flush fault b fs = .ok (b', fs')) : Flushes fault b fs := by
  unfold flush at h
  split at h
  · cases h
  rename_i herr
  refine ⟨Bool.eq_false_iff.mpr herr, ?_⟩
  split at h
  · rename_i hbuf
    exact .inl hbuf
  right
  unfold FileSystem.write at h
  cases hopen : fs.handles b.wr with
  | none =>
      rw [hopen] at h
      cases h
  | some inode =>
      refine ⟨?_, Option.some_ne_none inode⟩
      cases fault with
      | none => rfl
      | some n =>
          rw [hopen] at h
          cases h

/-- What a call leaves behind, whether it fails or not. -/
def stateOf : Result → BufWriter × FileSystem
  | .ok state => state
  | .error state => state

theorem wrote_flush (fault : Option Nat) (b : BufWriter) (fs : FileSystem) :
    FileSystem.Wrote fs (stateOf (flush fault b fs)).2 := by
  unfold flush
  split
  · exact .refl fs
  · split
    · exact .refl fs
    · have hwrite := FileSystem.wrote_write fs fault b.wr b.buf
      rcases hresult : fs.write fault b.wr b.buf with ⟨fs', n | n⟩ <;> rw [hresult] at hwrite <;> exact hwrite

theorem wrote_writeThrough (fault : Option Nat) (s : Bytes) (b : BufWriter) (fs : FileSystem) :
    FileSystem.Wrote fs (stateOf (writeThrough fault s b fs)).2 := by
  unfold writeThrough
  have hwrite := FileSystem.wrote_write fs fault b.wr s
  rcases hresult : fs.write fault b.wr s with ⟨fs', n | n⟩ <;> rw [hresult] at hwrite <;> exact hwrite

theorem wrote_writeString (size : Nat) (fault : Option Nat) (s : Bytes) (b : BufWriter) (fs : FileSystem) :
    FileSystem.Wrote fs (stateOf (writeString size fault s b fs)).2 := by
  unfold writeString
  split
  · exact .refl fs
  split
  · exact .refl fs
  split
  · exact wrote_writeThrough fault s b fs
  have hflush := wrote_flush fault { b with buf := b.buf ++ s.take (size - b.buf.length) } fs
  show FileSystem.Wrote fs (stateOf (flush fault _ fs >>= _)).2
  cases hresult : flush fault { b with buf := b.buf ++ s.take (size - b.buf.length) } fs with
  | error state =>
      rw [hresult] at hflush
      exact hflush
  | ok state =>
      rw [hresult] at hflush
      obtain ⟨b', fs'⟩ := state
      show FileSystem.Wrote fs (stateOf (if _ then _ else _)).2
      split
      · exact hflush
      · exact hflush.trans (wrote_writeThrough fault _ b' fs')

end BufWriter

end ToyBox
