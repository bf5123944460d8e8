import ToyBox.Library.FileSystem

/-! Programs that share a file system. A program keeps to its own names and open files; the frame relation says what
that leaves alone, call by call, and the calls of several programs with different names do not disturb each other. -/

namespace ToyBox.FileSystem

/-- No file has two names, and no handle is in use that is still to be handed out. -/
structure Plain (fs : FileSystem) : Prop where
  unique : ∀ name name' inode, fs.dir name = some inode → fs.dir name' = some inode → name = name'
  handles : ∀ handle, fs.handles handle ≠ none → handle < fs.nextHandle

/-- The files of other names and the files open under other handles are as they were. -/
structure Frame (mine : Bytes → Prop) (owned : Option Nat) (fs fs' : FileSystem) : Prop where
  dir : ∀ name, ¬mine name → fs'.dir name = fs.dir name
  data : ∀ name inode, ¬mine name → fs.dir name = some inode → fs'.data inode = fs.data inode
  handles : ∀ handle < fs.nextHandle, owned ≠ some handle → fs'.handles handle = fs.handles handle
  nextHandle : fs.nextHandle ≤ fs'.nextHandle
  plain : fs'.Plain

variable {mine : Bytes → Prop} {owned : Option Nat} {fs fs' fs'' : FileSystem}

namespace Frame

theorem refl (hplain : fs.Plain) : Frame mine owned fs fs :=
  ⟨fun _ _ => rfl, fun _ _ _ _ => rfl, fun _ _ _ => rfl, Nat.le_refl _, hplain⟩

theorem trans (h : Frame mine owned fs fs') (h' : Frame mine owned fs' fs'') : Frame mine owned fs fs'' where
  dir name hname := (h'.dir name hname).trans (h.dir name hname)
  data name inode hname hdir :=
    (h'.data name inode hname ((h.dir name hname).trans hdir)).trans (h.data name inode hname hdir)
  handles handle hlt howned :=
    (h'.handles handle (Nat.lt_of_lt_of_le hlt h.nextHandle) howned).trans (h.handles handle hlt howned)
  nextHandle := Nat.le_trans h.nextHandle h'.nextHandle
  plain := h'.plain

theorem content (h : Frame mine owned fs fs') {name : Bytes} (hname : ¬mine name) :
    fs'.content name = fs.content name := by
  cases hdir : fs.dir name with
  | none =>
      have hdir' : fs'.dir name = none := (h.dir name hname).trans hdir
      rw [FileSystem.content, FileSystem.content, hdir, hdir']
      rfl
  | some inode =>
      rw [content_of_dir hdir, content_of_dir ((h.dir name hname).trans hdir), h.data name inode hname hdir]

end Frame

/-! ### The calls -/

/-- Bytes go to a file of one's own. -/
theorem frame_append (hplain : fs.Plain) {name : Bytes} {inode : Nat} (hmine : mine name)
    (hdir : fs.dir name = some inode) (bytes : Bytes) : Frame mine owned fs (fs.append inode bytes) where
  dir _ _ := rfl
  data name' inode' hname' hdir' := by
    apply Function.update_of_ne
    rintro rfl
    exact hname' (hplain.unique _ _ _ hdir hdir' ▸ hmine)
  handles _ _ _ := rfl
  nextHandle := Nat.le_refl _
  plain := ⟨hplain.unique, hplain.handles⟩

theorem frame_openFile (hplain : fs.Plain) {name : Bytes} (hmine : mine name) :
    Frame mine owned fs (fs.openFile name).1 := by
  have hhandles : ∀ (inode handle : Nat), Function.update fs.handles fs.nextHandle (some inode) handle ≠ none →
      handle < fs.nextHandle + 1 := by
    intro inode handle hopen
    by_cases hhandle : handle = fs.nextHandle
    · omega
    · rw [Function.update_of_ne hhandle] at hopen
      exact Nat.lt_succ_of_lt (hplain.handles handle hopen)
  unfold openFile
  split
  · rename_i inode _
    refine ⟨fun _ _ => rfl, fun _ _ _ _ => rfl, ?_, Nat.le_succ _, hplain.unique, hhandles inode⟩
    intro handle hlt _
    exact Function.update_of_ne (Nat.ne_of_lt hlt) _ _
  · refine ⟨?_, ?_, ?_, Nat.le_succ _, ?_, hhandles fs.nextInode⟩
    · intro name' hname'
      exact Function.update_of_ne (fun heq => hname' (by rw [heq]; exact hmine)) _ _
    · intro name' inode _ hdir
      exact Function.update_of_ne (Nat.ne_of_lt (fs.dir_lt name' inode hdir)) _ _
    · intro handle hlt _
      exact Function.update_of_ne (Nat.ne_of_lt hlt) _ _
    · -- the inode is a new one
      have hold : ∀ name' inode, name' ≠ name →
          Function.update fs.dir name (some fs.nextInode) name' = some inode →
            fs.dir name' = some inode ∧ inode ≠ fs.nextInode := by
        intro name' inode hne hdir
        rw [Function.update_of_ne hne] at hdir
        exact ⟨hdir, Nat.ne_of_lt (fs.dir_lt name' inode hdir)⟩
      intro name₁ name₂ inode h₁ h₂
      replace h₁ : Function.update fs.dir name (some fs.nextInode) name₁ = some inode := h₁
      replace h₂ : Function.update fs.dir name (some fs.nextInode) name₂ = some inode := h₂
      by_cases hname₁ : name₁ = name
      · by_cases hname₂ : name₂ = name
        · rw [hname₁, hname₂]
        · rw [hname₁, Function.update_self] at h₁
          exact absurd (Option.some.inj h₁).symm (hold name₂ inode hname₂ h₂).2
      · obtain ⟨hdir₁, hne₁⟩ := hold name₁ inode hname₁ h₁
        by_cases hname₂ : name₂ = name
        · rw [hname₂, Function.update_self] at h₂
          exact absurd (Option.some.inj h₂).symm hne₁
        · exact hplain.unique _ _ _ hdir₁ (hold name₂ inode hname₂ h₂).1

theorem frame_rename (hplain : fs.Plain) {oldName newName : Bytes} (hold : mine oldName) (hnew : mine newName)
    (h : fs.rename oldName newName = some fs') : Frame mine owned fs fs' := by
  unfold rename at h
  split at h
  · cases h
  rename_i inode hdir
  cases h
  refine ⟨?_, fun _ _ _ _ => rfl, fun _ _ _ => rfl, Nat.le_refl _, ?_, hplain.handles⟩
  · intro name hname
    have hneNew : name ≠ newName := fun heq => hname (by rw [heq]; exact hnew)
    have hneOld : name ≠ oldName := fun heq => hname (by rw [heq]; exact hold)
    exact (Function.update_of_ne hneNew _ _).trans (Function.update_of_ne hneOld _ _)
  · -- each file with the name it had, the one that is moved with the old name
    have hbefore : ∀ name inode', Function.update (Function.update fs.dir oldName none) newName (some inode) name =
        some inode' → (name = newName ∧ inode' = inode) ∨
          (name ≠ newName ∧ name ≠ oldName ∧ fs.dir name = some inode') := by
      intro name inode' hname
      by_cases heq : name = newName
      · rw [heq, Function.update_self] at hname
        exact .inl ⟨heq, (Option.some.inj hname).symm⟩
      · rw [Function.update_of_ne heq] at hname
        by_cases heq' : name = oldName
        · rw [heq', Function.update_self] at hname
          cases hname
        · rw [Function.update_of_ne heq'] at hname
          exact .inr ⟨heq, heq', hname⟩
    intro name₁ name₂ inode' h₁ h₂
    rcases hbefore name₁ inode' h₁ with ⟨rfl, rfl⟩ | ⟨_, hne₁, hdir₁⟩
    · rcases hbefore name₂ _ h₂ with ⟨rfl, _⟩ | ⟨_, hne₂, hdir₂⟩
      · rfl
      · exact absurd (hplain.unique _ _ _ hdir₂ hdir) hne₂
    · rcases hbefore name₂ inode' h₂ with ⟨_, rfl⟩ | ⟨_, _, hdir₂⟩
      · exact absurd (hplain.unique _ _ _ hdir₁ hdir) hne₁
      · exact hplain.unique _ _ _ hdir₁ hdir₂

/-- The file is one's own. -/
theorem frame_close (hplain : fs.Plain) {handle : Nat} (h : fs.close handle = some fs') :
    Frame mine (some handle) fs fs' := by
  unfold close at h
  split at h
  · cases h
  cases h
  refine ⟨fun _ _ => rfl, fun _ _ _ _ => rfl, ?_, Nat.le_refl _, hplain.unique, ?_⟩
  · intro handle' _ hne
    exact Function.update_of_ne (fun heq => hne (congrArg some heq.symm)) _ _
  · intro handle' hopen
    replace hopen : Function.update fs.handles handle none handle' ≠ none := hopen
    by_cases heq : handle' = handle
    · rw [heq, Function.update_self] at hopen
      exact absurd rfl hopen
    · rw [Function.update_of_ne heq] at hopen
      exact hplain.handles handle' hopen

theorem frame_remove (hplain : fs.Plain) {name : Bytes} (hmine : mine name) (h : fs.remove name = some fs') :
    Frame mine owned fs fs' := by
  unfold remove at h
  split at h
  · cases h
  cases h
  have hbefore : ∀ name' inode, Function.update fs.dir name none name' = some inode → fs.dir name' = some inode := by
    intro name' inode hname'
    by_cases heq : name' = name
    · rw [heq, Function.update_self] at hname'
      cases hname'
    · rwa [Function.update_of_ne heq] at hname'
  refine ⟨?_, fun _ _ _ _ => rfl, fun _ _ _ => rfl, Nat.le_refl _, ?_, hplain.handles⟩
  · intro name' hname'
    exact Function.update_of_ne (fun heq => hname' (by rw [heq]; exact hmine)) _ _
  · intro name₁ name₂ inode h₁ h₂
    exact hplain.unique _ _ _ (hbefore name₁ inode h₁) (hbefore name₂ inode h₂)

/-- What is recorded of the removals is not part of the files. -/
theorem Plain.withRemoved (h : fs.Plain) (removed : List Bytes) : { fs with removed }.Plain :=
  ⟨h.unique, h.handles⟩

end ToyBox.FileSystem
