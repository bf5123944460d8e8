import ToyBox.Library.Segments
import ToyBox.Library.TransitionSystem
import ToyBox.Logger.FileWriter

/-! Runs of one file writer whose calls to the operating system all succeed and whose clock never goes
back. The writer keeps an hourly log: the files hold the segments of the log, the oldest of them removed. -/

namespace ToyBox.Logger.Rotation

/-- The writer, the file system, and what happened: the records written and the hourly log. -/
structure State where
  fa : FileWriter
  fs : FileSystem
  /-- The last hour the clock showed. -/
  now : Hour
  written : List Record := []
  log : Segments Nat UInt8

inductive Label
  | write (r : Record)
  | flush
  | rotate (now : Hour)

/-- The records of the log. -/
def InRange (fa : FileWriter) (r : Record) : Bool :=
  fa.logLevelFloor ≤ r.logLevel.toInt ∧ r.logLevel.toInt ≤ fa.logLevelCeiling

/-- What a record adds to the log. -/
def bytesOf (fa : FileWriter) (r : Record) : Bytes := if InRange fa r then r.string else []

/-- The log goes on in the same hour and is cut when the hour changes. -/
def rollTo (now : Hour) (log : Segments Nat UInt8) : Segments Nat UInt8 :=
  if now.genCurrentFileSuffix = log.key then log else log.roll now.genCurrentFileSuffix

/-- The clock has not gone back. -/
def Clocked (s : State) : Label → Prop
  | .rotate now => s.now ≤ now
  | _ => True

/-- A call that returns nil; there is no step for one that fails. -/
def step (s : State) : Label → Option State
  | .write r =>
      (s.fa.write {} r s.fs).toOption.map fun (fa, fs) =>
        { s with fa, fs, written := s.written ++ [r], log := s.log.append (bytesOf s.fa r) }
  | .flush => (s.fa.flush {} s.fs).toOption.map fun (fa, fs) => { s with fa, fs }
  | .rotate now =>
      (s.fa.rotate {} now s.fs).toOption.map fun (fa, fs) =>
        { s with fa, fs, now, log := rollTo now s.log }

section

variable {s : State} {fa : FileWriter} {fs : FileSystem}

theorem step_write {r : Record} (h : s.fa.write {} r s.fs = .ok (fa, fs)) :
    step s (.write r) =
      some { s with fa, fs, written := s.written ++ [r], log := s.log.append (bytesOf s.fa r) } := by
  rw [step, h]
  rfl

theorem step_flush (h : s.fa.flush {} s.fs = .ok (fa, fs)) :
    step s .flush = some { s with fa, fs } := by
  rw [step, h]
  rfl

theorem step_rotate {now : Hour} (h : s.fa.rotate {} now s.fs = .ok (fa, fs)) :
    step s (.rotate now) = some { s with fa, fs, now, log := rollTo now s.log } := by
  rw [step, h]
  rfl

end

/-- The runs after `Init`, which has opened a file in some hour. -/
def system (fa : FileWriter) (fs : FileSystem) (start : Hour) : TransitionSystem State Label where
  start := {
    fa, fs
    now := start
    log := { key := start.genCurrentFileSuffix, current := fs.content fa.fileName } }
  step

/-! ### The files hold the segments -/

/-- The rotated files that are kept hold the segments, none of them in the file that is open. -/
def Files (fa : FileWriter) (fs : FileSystem) (inode : Nat) (kept : List (Nat × Bytes)) : Prop :=
  ∀ segment ∈ kept, ∃ i, i ≠ inode ∧ fs.dir (fa.genLogFileName segment.1) = some i ∧
    fs.data i = segment.2

/-- The configuration of the writer, which no method changes. -/
structure SameConfig (fa₀ fa : FileWriter) : Prop where
  fileName : fa.fileName = fa₀.fileName
  floor : fa.logLevelFloor = fa₀.logLevelFloor
  ceiling : fa.logLevelCeiling = fa₀.logLevelCeiling
  retainHours : fa.retainHours = fa₀.retainHours

/-- The state of the writer and of its files against the log: which segments are gone and which are kept,
the inode of the open file and what is buffered. -/
structure Represents (fa₀ : FileWriter) (fs₀ : FileSystem) (start : Hour) (s : State)
    (gone kept : List (Nat × Bytes)) (inode : Nat) (buf : Bytes) : Prop where
  config : SameConfig fa₀ s.fa
  isOpen : s.fa.Open s.fs inode buf
  current : s.fs.data inode ++ buf = s.log.current
  suffix : s.fa.currentFileSuffix = s.log.key
  key : ∃ t : Hour, start ≤ t ∧ t ≤ s.now ∧ t.genCurrentFileSuffix = s.log.key
  increasing : s.log.Increasing
  retained : s.log.Retained fa₀.retainHours.toNat gone kept
  history : s.fa.historyFileSuffix = kept.map Prod.fst
  files : Files fa₀ s.fs inode kept
  removed : s.fs.removed = fs₀.removed ++ gone.map Prod.snd
  free : ∀ t : Hour, start ≤ t → t.genCurrentFileSuffix ∉ kept.map Prod.fst →
    s.fs.dir (fa₀.genLogFileName t.genCurrentFileSuffix) = none
  all : s.log.all = fs₀.content fa₀.fileName ++ s.written.flatMap (bytesOf fa₀)

variable {fa₀ : FileWriter} {fs₀ : FileSystem} {start : Hour} {s : State}
  {gone kept : List (Nat × Bytes)} {inode : Nat} {buf : Bytes}

namespace SameConfig

variable {fa : FileWriter} (h : SameConfig fa₀ fa)

include h

theorem genLogFileName (suffix : Nat) : fa.genLogFileName suffix = fa₀.genLogFileName suffix := by
  rw [FileWriter.genLogFileName, h.fileName, FileWriter.genLogFileName]

theorem bytesOf (r : Record) : Rotation.bytesOf fa r = Rotation.bytesOf fa₀ r := by
  rw [Rotation.bytesOf, InRange, h.floor, h.ceiling, Rotation.bytesOf, InRange]

theorem accepts_iff (r : Record) : fa.Accepts r ↔ InRange fa₀ r = true := by
  unfold FileWriter.Accepts InRange
  rw [h.floor, h.ceiling, decide_eq_true_iff]
  omega

end SameConfig

/-- Bytes that go to the open file leave the rotated files alone. -/
theorem Files.append {fs : FileSystem} (h : Files fa₀ fs inode kept) (bytes : Bytes) :
    Files fa₀ (fs.append inode bytes) inode kept := by
  intro segment hmem
  obtain ⟨i, hne, hdir, hdata⟩ := h segment hmem
  exact ⟨i, hne, hdir, (Function.update_of_ne hne _ _).trans hdata⟩

/-- After a rotation the segment that was being written is in a rotated file as well. -/
theorem Files.rotate {fs fs' : FileSystem} {key : Nat} (h : Files fa₀ fs inode kept)
    (hinode : fs.dir fa₀.fileName = some inode) (hkey : key ∉ kept.map Prod.fst)
    (hdir : fs'.dir = Function.update
      (Function.update fs.dir (fa₀.genLogFileName key) (some inode)) fa₀.fileName (some fs.nextInode))
    (hdata : fs'.data inode = fs.data inode ++ buf)
    (hkeep : ∀ i < fs.nextInode, i ≠ inode → fs'.data i = fs.data i) :
    Files fa₀ fs' fs.nextInode (kept ++ [(key, fs.data inode ++ buf)]) := by
  intro segment hmem
  rcases List.mem_append.mp hmem with hold | hnew
  · obtain ⟨i, hne, hdir₀, hdata₀⟩ := h segment hold
    have hlt : i < fs.nextInode := fs.dir_lt _ _ hdir₀
    refine ⟨i, Nat.ne_of_lt hlt, ?_, (hkeep i hlt hne).trans hdata₀⟩
    have hsegment : segment.1 ≠ key := fun heq => hkey (heq ▸ List.mem_map_of_mem hold)
    rw [hdir, Function.update_of_ne (fa₀.genLogFileName_ne _),
      Function.update_of_ne (fa₀.genLogFileName_injective.ne hsegment), hdir₀]
  · obtain rfl := List.mem_singleton.mp hnew
    refine ⟨inode, Nat.ne_of_lt (fs.dir_lt _ _ hinode), ?_, hdata⟩
    rw [hdir, Function.update_of_ne (fa₀.genLogFileName_ne _)]
    exact Function.update_self _ _ _

/-- The removal of the oldest file leaves the others. -/
theorem Files.remove {fs fs' : FileSystem} {overdue : Nat × Bytes}
    (h : Files fa₀ fs inode (overdue :: kept)) (hkey : overdue.1 ∉ kept.map Prod.fst)
    (hdir : fs'.dir = Function.update fs.dir (fa₀.genLogFileName overdue.1) none)
    (hdata : fs'.data = fs.data) : Files fa₀ fs' inode kept := by
  intro segment hmem
  obtain ⟨i, hne, hdir₀, hdata₀⟩ := h segment (List.mem_cons_of_mem _ hmem)
  have hsegment : segment.1 ≠ overdue.1 := fun heq => hkey (heq ▸ List.mem_map_of_mem hmem)
  refine ⟨i, hne, ?_, hdata ▸ hdata₀⟩
  rw [hdir, Function.update_of_ne (fa₀.genLogFileName_injective.ne hsegment), hdir₀]

namespace Represents

theorem write (h : Represents fa₀ fs₀ start s gone kept inode buf) (r : Record) :
    ∃ s' buf', step s (.write r) = some s' ∧ Represents fa₀ fs₀ start s' gone kept inode buf' := by
  have hall : (s.log.append (bytesOf s.fa r)).all =
      fs₀.content fa₀.fileName ++ (s.written ++ [r]).flatMap (bytesOf fa₀) := by
    rw [Segments.all_append, h.all, List.flatMap_append, List.append_assoc, h.config.bytesOf,
      List.flatMap_singleton]
  by_cases haccepts : s.fa.Accepts r
  · have hbytes : bytesOf s.fa r = r.string := by
      rw [h.config.bytesOf, bytesOf, if_pos ((h.config.accepts_iff r).mp haccepts)]
    obtain ⟨out, buf', b, hwrite, hopen, hout⟩ := h.isOpen.write haccepts
    refine ⟨_, buf', step_write hwrite, ?_⟩
    exact { h with
      config := ⟨h.config.fileName, h.config.floor, h.config.ceiling, h.config.retainHours⟩
      isOpen := hopen
      current := by
        show Function.update s.fs.data inode (s.fs.data inode ++ out) inode ++ buf' = _
        calc
          _ = s.fs.data inode ++ (out ++ buf') := by rw [Function.update_self, List.append_assoc]
          _ = s.log.current ++ r.string := by rw [hout, ← List.append_assoc, h.current]
          _ = s.log.current ++ bytesOf s.fa r := by rw [hbytes]
      retained := h.retained.append _
      files := h.files.append out
      all := hall }
  · have hbytes : bytesOf s.fa r = [] := by
      rw [h.config.bytesOf, bytesOf, if_neg (mt (h.config.accepts_iff r).mpr haccepts)]
    have hwrite : s.fa.write {} r s.fs = .ok (s.fa, s.fs) := if_neg haccepts
    refine ⟨_, buf, step_write hwrite, ?_⟩
    exact { h with
      current := by
        rw [h.current, hbytes]
        exact (List.append_nil _).symm
      retained := h.retained.append _
      all := hall }

theorem flush (h : Represents fa₀ fs₀ start s gone kept inode buf) :
    ∃ s', step s .flush = some s' ∧ Represents fa₀ fs₀ start s' gone kept inode [] := by
  obtain ⟨_, _, _, hflush, hopen⟩ := h.isOpen.flush (FileWriter.flushPasses_noFaults s.fa)
  refine ⟨_, step_flush hflush, ?_⟩
  exact { h with
    config := ⟨h.config.fileName, h.config.floor, h.config.ceiling, h.config.retainHours⟩
    isOpen := hopen
    current := by
      rw [← h.current, List.append_nil]
      exact Function.update_self _ _ _
    files := h.files.append buf }

/-- Up to the removal of an overdue file, a rotation in a new hour cuts the log. -/
theorem rotate_new (h : Represents fa₀ fs₀ start s gone kept inode buf) {now : Hour}
    (hlt : s.log.key < now.genCurrentFileSuffix) :
    ∃ fa fs, s.fa.rotate {} now s.fs = fa.removeOverdue {} fs ∧ SameConfig fa₀ fa ∧
      fa.Open fs s.fs.nextInode [] ∧ fs.data s.fs.nextInode = [] ∧
      fa.currentFileSuffix = now.genCurrentFileSuffix ∧
      fa.historyFileSuffix = (kept ++ [(s.log.key, s.log.current)]).map Prod.fst ∧
      Files fa₀ fs s.fs.nextInode (kept ++ [(s.log.key, s.log.current)]) ∧
      fs.removed = s.fs.removed ∧
      ∀ t : Hour, start ≤ t →
        t.genCurrentFileSuffix ∉ (kept ++ [(s.log.key, s.log.current)]).map Prod.fst →
          fs.dir (fa₀.genLogFileName t.genCurrentFileSuffix) = none := by
  have hkey : s.log.key ∉ kept.map Prod.fst := by
    intro hmem
    have hclosed : s.log.key ∈ s.log.keys := h.retained.keys ▸ List.mem_append_right _ hmem
    exact Nat.lt_irrefl _ (h.increasing.lt_key hclosed)
  have hname : s.fa.genLogFileName s.fa.currentFileSuffix = fa₀.genLogFileName s.log.key := by
    rw [h.config.genLogFileName, h.suffix]
  obtain ⟨b, handle, fs', hrotate, hopen, hdir, hempty, hdata, hkeep, hremoved⟩ :=
    h.isOpen.rotate (FileWriter.rotatePasses_noFaults s.fa) (h.suffix ▸ Nat.ne_of_gt hlt)
  rw [hname, h.config.fileName] at hdir
  refine ⟨_, fs', hrotate, ?_, hopen, hempty, rfl, ?_, ?_, hremoved, ?_⟩
  · exact ⟨h.config.fileName, h.config.floor, h.config.ceiling, h.config.retainHours⟩
  · show s.fa.historyFileSuffix ++ [s.fa.currentFileSuffix] = _
    rw [h.history, h.suffix, List.map_append]
    rfl
  · rw [← h.current]
    exact h.files.rotate (h.config.fileName ▸ h.isOpen.dir) hkey hdir hdata hkeep
  · intro t hstart hmem
    rw [List.map_append, List.mem_append, not_or] at hmem
    have hne : t.genCurrentFileSuffix ≠ s.log.key := fun heq => hmem.2 (by simp [heq])
    rw [hdir, Function.update_of_ne (fa₀.genLogFileName_ne _),
      Function.update_of_ne (fa₀.genLogFileName_injective.ne hne)]
    exact h.free t hstart hmem.1

theorem rotate (hretain : 0 ≤ fa₀.retainHours) (h : Represents fa₀ fs₀ start s gone kept inode buf)
    {now : Hour} (hnow : s.now ≤ now) :
    ∃ s' gone' kept' inode' buf', step s (.rotate now) = some s' ∧
      Represents fa₀ fs₀ start s' gone' kept' inode' buf' := by
  obtain ⟨t, hstart, htnow, ht⟩ := h.key
  have hle : s.log.key ≤ now.genCurrentFileSuffix :=
    calc
      s.log.key = t.genCurrentFileSuffix := ht.symm
      _ ≤ s.now.genCurrentFileSuffix := Hour.genCurrentFileSuffix_le.mpr htnow
      _ ≤ now.genCurrentFileSuffix := Hour.genCurrentFileSuffix_le.mpr hnow
  rcases Nat.eq_or_lt_of_le hle with hsame | hlt
  · have hrotate : s.fa.rotate {} now s.fs = .ok (s.fa, s.fs) :=
      if_pos (hsame.symm.trans h.suffix.symm)
    have hroll : rollTo now s.log = s.log := if_pos hsame.symm
    refine ⟨_, gone, kept, inode, buf, step_rotate hrotate, ?_⟩
    rw [hroll]
    exact { h with
      key := ⟨t, hstart, Hour.genCurrentFileSuffix_le.mp (ht ▸ hle), ht⟩ }
  obtain ⟨fa, fs, hrotate, hconfig, hopen, hempty, hsuffix, hhistory, hfiles, hremoved, hfree⟩ :=
    h.rotate_new hlt
  have hroll : rollTo now s.log = s.log.roll now.genCurrentFileSuffix := if_neg (Nat.ne_of_gt hlt)
  have hlength : fa.historyFileSuffix.length = kept.length + 1 := by
    rw [hhistory, List.length_map, List.length_append, List.length_singleton]
  have hnewKey : ∃ t : Hour, start ≤ t ∧ t ≤ now ∧ t.genCurrentFileSuffix = now.genCurrentFileSuffix := by
    refine ⟨now, ?_, Hour.genCurrentFileSuffix_le.mp le_rfl, rfl⟩
    apply Hour.genCurrentFileSuffix_le.mp
    calc
      start.genCurrentFileSuffix ≤ t.genCurrentFileSuffix := Hour.genCurrentFileSuffix_le.mpr hstart
      _ = s.log.key := ht
      _ ≤ now.genCurrentFileSuffix := hle
  by_cases hroom : kept.length < fa₀.retainHours.toNat
  · have hdone : fa.removeOverdue {} fs = .ok (fa, fs) := by
      apply FileWriter.removeOverdue_of_room
      rw [hlength, hconfig.retainHours]
      omega
    refine ⟨_, gone, kept ++ [(s.log.key, s.log.current)], s.fs.nextInode, [],
      step_rotate (hrotate.trans hdone), ?_⟩
    rw [hroll]
    exact {
      config := hconfig
      isOpen := hopen
      current := by rw [hempty]; rfl
      suffix := hsuffix
      key := hnewKey
      increasing := h.increasing.roll hlt
      retained := h.retained.roll _ hroom
      history := hhistory
      files := hfiles
      removed := hremoved.trans h.removed
      free := hfree
      all := (Segments.all_roll _ _).trans h.all }
  cases hkept : kept ++ [(s.log.key, s.log.current)] with
  | nil => exact absurd hkept (List.concat_ne_nil _ _)
  | cons overdue rest =>
      rw [hkept] at hfiles hhistory hfree
      obtain ⟨i, hne, hdir, hdata⟩ := hfiles overdue List.mem_cons_self
      have hfull : fa.historyFileSuffix.length > fa.retainHours := by
        rw [hlength, hconfig.retainHours]
        omega
      obtain ⟨fs', hremove, hdir', hdata', hhandles', hremoved', _⟩ :=
        FileWriter.removeOverdue_of_full (show ({} : Faults).remove = false from rfl) hfull hhistory
          ((hconfig.genLogFileName _).symm ▸ hdir)
      have hopen' := hopen.remove hdir' hhandles'
      rw [hconfig.genLogFileName] at hdir'
      have hincreasing := h.increasing.roll hlt
      have hretained := h.retained.roll_full now.genCurrentFileSuffix hroom hkept
      have hoverdue : overdue.1 ∉ rest.map Prod.fst := hretained.key_not_mem hincreasing
      refine ⟨_, gone ++ [overdue], rest, s.fs.nextInode, [], step_rotate (hrotate.trans hremove), ?_⟩
      rw [hroll]
      exact {
        config := ⟨hconfig.fileName, hconfig.floor, hconfig.ceiling, hconfig.retainHours⟩
        isOpen := ⟨hopen'.writer, hopen'.dir⟩
        current := by
          show fs'.data s.fs.nextInode ++ [] = []
          rw [hdata', hempty, List.append_nil]
        suffix := hsuffix
        key := hnewKey
        increasing := hincreasing
        retained := hretained
        history := rfl
        files := hfiles.remove hoverdue hdir' hdata'
        removed := by
          show fs'.removed = _
          calc
            fs'.removed = fs₀.removed ++ gone.map Prod.snd ++ [overdue.2] := by
              rw [hremoved', hremoved, h.removed, hdata]
            _ = fs₀.removed ++ (gone ++ [overdue]).map Prod.snd := by
              rw [List.map_append, List.append_assoc, List.map_singleton]
        free := by
          intro t' hstart' hmem
          show fs'.dir _ = none
          rw [hdir']
          by_cases heq : t'.genCurrentFileSuffix = overdue.1
          · rw [heq, Function.update_self]
          · rw [Function.update_of_ne (fa₀.genLogFileName_injective.ne heq)]
            apply hfree t' hstart'
            rw [List.map_cons, List.mem_cons, not_or]
            exact ⟨heq, hmem⟩
        all := (Segments.all_roll _ _).trans h.all }

/-- Every call returns nil, and after it the files hold the segments again. -/
theorem step (hretain : 0 ≤ fa₀.retainHours) (h : Represents fa₀ fs₀ start s gone kept inode buf)
    {label : Label} (hclock : Clocked s label) :
    ∃ s' gone' kept' inode' buf', Rotation.step s label = some s' ∧
      Represents fa₀ fs₀ start s' gone' kept' inode' buf' := by
  cases label with
  | write r =>
      obtain ⟨s', buf', hstep, hs'⟩ := h.write r
      exact ⟨s', gone, kept, inode, buf', hstep, hs'⟩
  | flush =>
      obtain ⟨s', hstep, hs'⟩ := h.flush
      exact ⟨s', gone, kept, inode, [], hstep, hs'⟩
  | rotate now => exact h.rotate hretain hclock

end Represents

/-- `Init` opens the file of the log. -/
theorem represents_start (hempty : fa₀.historyFileSuffix = [])
    (hfresh : ∀ t : Hour, start ≤ t →
      fs₀.dir (fa₀.genLogFileName t.genCurrentFileSuffix) = none)
    {fa : FileWriter} {fs : FileSystem} (hinit : fa₀.init {} start fs₀ = .ok (fa, fs)) :
    ∃ inode, Represents fa₀ fs₀ start (system fa fs start).start [] [] inode [] := by
  obtain ⟨fs', inode, handle, hcreate, hhandle, hdir, hdata, _, hremoved, _, _⟩ :=
    FileWriter.crateFile_spec FileWriter.createPasses_noFaults
      { fa₀ with currentFileSuffix := start.genCurrentFileSuffix } fs₀
  cases Except.ok.inj (hinit.symm.trans hcreate)
  replace hdir : fs.dir = Function.update fs₀.dir fa₀.fileName (some inode) := hdir
  have hname : fs.dir fa₀.fileName = some inode := by
    rw [hdir, Function.update_self]
  have hcontent : fs.content fa₀.fileName = fs₀.content fa₀.fileName := by
    rw [FileSystem.content_of_dir hname, hdata]
  refine ⟨inode, ?_⟩
  exact {
    config := ⟨rfl, rfl, rfl, rfl⟩
    isOpen := ⟨⟨handle, rfl, rfl, hhandle⟩, hname⟩
    current := (List.append_nil _).trans (FileSystem.content_of_dir hname).symm
    suffix := rfl
    key := ⟨start, Hour.genCurrentFileSuffix_le.mp le_rfl, Hour.genCurrentFileSuffix_le.mp le_rfl, rfl⟩
    increasing := List.pairwise_singleton _ _
    retained := ⟨rfl, Nat.zero_le _, .inl rfl⟩
    history := hempty
    files := fun segment hmem => absurd hmem List.not_mem_nil
    removed := hremoved.trans (List.append_nil _).symm
    free := by
      intro t hstart _
      show fs.dir _ = none
      rw [hdir, Function.update_of_ne (fa₀.genLogFileName_ne _), hfresh t hstart]
    all := by
      rw [← hcontent]
      exact (List.append_nil _).symm }

/-! ### Runs -/

/-- Nothing is lost or reordered: the removed files, the rotated ones, the current one and the buffer hold
what the file held at first and then the records of the log, in the order in which they were written. -/
structure NothingLost (fa₀ : FileWriter) (fs₀ : FileSystem) (start : Hour) (s : State) : Prop where
  fileName : s.fa.fileName = fa₀.fileName
  bytes : s.fs.removed.flatten ++
      s.fa.historyFileSuffix.flatMap (fun suffix => s.fs.content (fa₀.genLogFileName suffix)) ++
      s.fs.content fa₀.fileName ++ s.fa.buffered =
    fs₀.removed.flatten ++ fs₀.content fa₀.fileName ++
      (s.written.filter (InRange fa₀)).flatMap Record.string
  increasing : (s.fa.historyFileSuffix ++ [s.fa.currentFileSuffix]).Pairwise (· < ·)
  kept : s.fa.historyFileSuffix =
    s.log.keys.rtake (min s.log.keys.length fa₀.retainHours.toNat)
  files : ∀ t : Hour, start ≤ t →
    (s.fs.dir (fa₀.genLogFileName t.genCurrentFileSuffix) ≠ none ↔
      t.genCurrentFileSuffix ∈ s.fa.historyFileSuffix)

theorem flatMap_bytesOf (fa : FileWriter) (written : List Record) :
    written.flatMap (bytesOf fa) = (written.filter (InRange fa)).flatMap Record.string := by
  induction written with
  | nil => rfl
  | cons r written ih =>
      rw [List.flatMap_cons, ih, bytesOf, List.filter_cons]
      split
      · rw [List.flatMap_cons]
      · rw [List.nil_append]

theorem Files.flatMap_content {fs : FileSystem} (h : Files fa₀ fs inode kept) :
    (kept.map Prod.fst).flatMap (fun suffix => fs.content (fa₀.genLogFileName suffix)) =
      kept.flatMap Prod.snd := by
  rw [List.flatMap_map]
  apply List.flatMap_congr
  intro segment hmem
  obtain ⟨i, _, hdir, hdata⟩ := h segment hmem
  rw [FileSystem.content_of_dir hdir, hdata]

theorem Represents.nothingLost (h : Represents fa₀ fs₀ start s gone kept inode buf) :
    NothingLost fa₀ fs₀ start s where
  fileName := h.config.fileName
  bytes := by
    have hcurrent : s.fs.content fa₀.fileName = s.fs.data inode :=
      FileSystem.content_of_dir (h.config.fileName ▸ h.isOpen.dir)
    have hbuffered : s.fa.buffered = buf := by
      obtain ⟨handle, _, hwriter, _⟩ := h.isOpen.writer
      rw [FileWriter.buffered, hwriter]
      rfl
    calc
      _ = fs₀.removed.flatten ++ (gone.map Prod.snd).flatten ++ kept.flatMap Prod.snd ++
          (s.fs.data inode ++ buf) := by
        rw [h.removed, List.flatten_append, h.history, h.files.flatMap_content, hcurrent, hbuffered,
          List.append_assoc _ _ buf]
      _ = fs₀.removed.flatten ++ s.log.all := by
        rw [h.current, Segments.all, h.retained.closed, List.flatMap_append, ← List.flatMap_def]
        simp only [List.append_assoc]
      _ = _ := by
        rw [h.all, flatMap_bytesOf, List.append_assoc]
  increasing := by
    have hkeys := h.increasing
    rw [Segments.Increasing, h.retained.keys, List.append_assoc] at hkeys
    rw [h.history, h.suffix]
    exact (List.pairwise_append.mp hkeys).2.1
  kept := by
    rw [h.history, h.retained.keys_kept]
  files := by
    intro t hstart
    rw [h.history]
    constructor
    · intro hdir
      by_contra hmem
      exact hdir (h.free t hstart hmem)
    · intro hmem
      obtain ⟨segment, hsegment, heq⟩ := List.mem_map.mp hmem
      obtain ⟨i, _, hdir, _⟩ := h.files segment hsegment
      rw [← heq, hdir]
      exact Option.some_ne_none i

/-- The file writer that a configuration sets up. -/
def configured (fileName : Bytes) (logLevelFloor logLevelCeiling retainHours : Int) : FileWriter :=
  FileWriter.newFileWriter.setFileName fileName |>.setLogLevelFloor logLevelFloor
    |>.setLogLevelCeiling logLevelCeiling |>.setRetainHours retainHours

/-- Whatever the configuration and the files there are at first, log rotation loses and reorders nothing,
and no call fails. -/
theorem nothingLost_of_reachable (fileName : Bytes) (logLevelFloor logLevelCeiling retainHours : Int)
    (hretain : 0 ≤ retainHours) (fs₀ : FileSystem) (start : Hour)
    (hfresh : ∀ t : Hour, start ≤ t →
      fs₀.dir ((configured fileName logLevelFloor logLevelCeiling retainHours).genLogFileName
        t.genCurrentFileSuffix) = none)
    {fa : FileWriter} {fs : FileSystem}
    (hinit : (configured fileName logLevelFloor logLevelCeiling retainHours).init {} start fs₀ =
      .ok (fa, fs))
    {s : State} (hs : (system fa fs start).ReachableBy Clocked s) :
    NothingLost (configured fileName logLevelFloor logLevelCeiling retainHours) fs₀ start s ∧
      ∀ label, Clocked s label → ((system fa fs start).step s label).isSome := by
  have hrepresents : ∃ gone kept inode buf,
      Represents (configured fileName logLevelFloor logLevelCeiling retainHours) fs₀ start s
        gone kept inode buf := by
    induction hs with
    | start =>
        obtain ⟨inode, hstart⟩ := represents_start rfl hfresh hinit
        exact ⟨[], [], inode, [], hstart⟩
    | step _ hclock hstep ih =>
        obtain ⟨gone, kept, inode, buf, h⟩ := ih
        obtain ⟨s', gone', kept', inode', buf', hstep', hs'⟩ := h.step hretain hclock
        cases Option.some.inj (hstep.symm.trans hstep')
        exact ⟨gone', kept', inode', buf', hs'⟩
  obtain ⟨gone, kept, inode, buf, h⟩ := hrepresents
  refine ⟨h.nothingLost, fun label hclock => ?_⟩
  obtain ⟨s', _, _, _, _, hstep, _⟩ := h.step hretain hclock
  exact Option.isSome_iff_exists.mpr ⟨s', hstep⟩

/-- An hour of the first day of July 2022. -/
def julyFirst (hour : Nat) (hour_lt : hour < 24 := by decide) : Hour :=
  { Hour.mayFirst hour with year := 2022, month := 7, hour, month_le := by decide, hour_lt }

/-- A record and a change of the hour: the record is in the rotated file. -/
theorem nothingLost_of_reachable_twoHours :
    let r : Record := ⟨ascii "t", ascii "main.go:1", ascii "start", .info⟩
    ∃ s, NothingLost (configured (ascii "ums.log") 0 4 1) FileSystem.empty (julyFirst 0) s ∧
      s.fs.content (ascii "ums.log.2022070100") = r.string := by
  have hhour : julyFirst 0 ≤ julyFirst 1 := Hour.genCurrentFileSuffix_le.mp (by decide)
  have h₀ : (system
      (FileWriter.setFile { configured (ascii "ums.log") 0 4 1 with
        currentFileSuffix := (julyFirst 0).genCurrentFileSuffix } 0)
      (FileSystem.empty.openFile (ascii "ums.log")).1 (julyFirst 0)).ReachableBy Clocked _ := .start
  have h₁ := h₀.step
    (a := Label.write ⟨ascii "t", ascii "main.go:1", ascii "start", .info⟩) trivial rfl
  have h₂ := h₁.step (a := Label.rotate (julyFirst 1)) hhour
    (Option.some_get (by decide +kernel)).symm
  exact ⟨_, (nothingLost_of_reachable (ascii "ums.log") 0 4 1 (by decide) FileSystem.empty
    (julyFirst 0) (fun _ _ => rfl) rfl h₂).1, by decide +kernel⟩

end ToyBox.Logger.Rotation
