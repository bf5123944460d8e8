import ToyBox.Logger.Close
import ToyBox.Logger.Neighbours
import ToyBox.Logger.Routing

/-! The writers behind the logger: file writers that share a file system, and consoles that share the standard output.
What the goroutine and `Close` call on them is carried out call by call; the log of every file writer is that of the
records it was called with, whatever is called on the others in between. -/

namespace ToyBox.Logger

open FileSystem (Frame Plain)

variable {ω : Type}

namespace Event

/-- The writer that is called. -/
def writer : Event ω → ω
  | write w _ => w
  | flush w => w
  | rotate w => w

/-- The method of a file writer that is called. -/
def method (now : Hour) : Event ω → FileWriter → FileSystem → FileWriter.Result
  | write _ r => FileWriter.write {} r
  | flush _ => FileWriter.flush {}
  | rotate _ => FileWriter.rotate {} now

/-- The record that is written. -/
def records : Event ω → List Record
  | write _ r => [r]
  | _ => []

/-- What a console prints. -/
def printed (cw : ConsoleWriter) : Event ω → Bytes
  | write _ r => (cw.write r).getD []
  | _ => []

end Event

/-- The writers that can be flushed and rotated. -/
def isFile (setup : ω → Writer) (w : ω) : Bool :=
  match setup w with
  | .file _ => true
  | .console _ => false

/-- The state of the writers. -/
structure Sinks (ω : Type) where
  files : ω → FileWriter
  fs : FileSystem
  /-- The contents of the files that each writer has removed. -/
  removed : ω → List Bytes := fun _ => []
  stdout : Bytes := []

namespace Sinks

variable [DecidableEq ω] (setup : ω → Writer) (s : Sinks ω)

/-- A method of a file writer that returns nil; there is no step for one that fails. -/
def call (w : ω) (method : FileWriter → FileSystem → FileWriter.Result) : Option (Sinks ω) :=
  (method (s.files w) { s.fs with removed := s.removed w }).toOption.map fun (fa, fs) =>
    { s with
      files := Function.update s.files w fa
      fs
      removed := Function.update s.removed w fs.removed }

def handle (now : Hour) (e : Event ω) : Option (Sinks ω) :=
  match setup e.writer with
  | .file _ => s.call e.writer (e.method now)
  | .console cw => some { s with stdout := s.stdout ++ e.printed cw }

/-- `Init` of a writer. -/
def init (now : Hour) (w : ω) : Option (Sinks ω) :=
  match setup w with
  | .file _ => s.call w (FileWriter.init {} now)
  | .console _ => some s

/-- The writers before any of them is initialised. -/
def start (setup : ω → Writer) (fs : FileSystem) : Sinks ω where
  files w :=
    match setup w with
    | .file fa => fa
    | .console _ => FileWriter.newFileWriter
  fs

end Sinks

/-- The records a writer was called with. -/
def writtenTo [DecidableEq ω] (events : List (Event ω)) (w : ω) : List Record :=
  (events.filter fun e => e.writer = w).flatMap Event.records

/-- What the consoles printed. -/
def printedBy (setup : ω → Writer) (events : List (Event ω)) : Bytes :=
  events.flatMap fun e =>
    match setup e.writer with
    | .file _ => []
    | .console cw => e.printed cw

/-! ### One writer -/

namespace FileWriter

variable {fa fa' : FileWriter} {fs fs' : FileSystem} {inode : Nat} {buf : Bytes}

theorem buffered_ofBufWriter {result : BufWriter.Result} (h : fa.ofBufWriter result = .ok (fa', fs')) :
    ∃ b, result = .ok (b, fs') ∧ fa'.buffered = b.buf := by
  cases result with
  | error state => cases h
  | ok state =>
      cases h
      exact ⟨_, rfl, rfl⟩

theorem length_buffered_write {r : Record} (h : fa.write {} r fs = .ok (fa', fs'))
    (hlength : fa.buffered.length ≤ bufferSize) : fa'.buffered.length ≤ bufferSize := by
  unfold FileWriter.write at h
  split at h
  · split at h
    · cases h
    · obtain ⟨b, hwrite, hbuffered⟩ := buffered_ofBufWriter h
      rw [hbuffered]
      exact BufWriter.length_buf_of_writeString hwrite
  · cases h
    exact hlength

theorem buffered_flush (h : fa.flush {} fs = .ok (fa', fs')) : fa'.buffered = [] := by
  unfold FileWriter.flush at h
  split at h
  · cases h
  · obtain ⟨b, hflush, hbuffered⟩ := buffered_ofBufWriter h
    rw [hbuffered]
    exact BufWriter.buf_of_flush hflush

theorem buffered_removeOverdue {faults : Faults} (h : fa.removeOverdue faults fs = .ok (fa', fs')) :
    fa'.buffered = fa.buffered := by
  unfold removeOverdue at h
  split at h
  swap
  · cases h
    rfl
  split at h
  · cases h
  split at h
  · cases h
  split at h
  · cases h
  · cases h
    rfl

/-- A rotation leaves the buffer as it is or empty. -/
theorem Open.buffered_rotate (h : fa.Open fs inode buf) {now : Hour} (hrotate : fa.rotate {} now fs = .ok (fa', fs')) :
    fa'.buffered = fa.buffered ∨ fa'.buffered = [] := by
  by_cases hnow : now.genCurrentFileSuffix = fa.currentFileSuffix
  · unfold FileWriter.rotate at hrotate
    rw [if_pos hnow] at hrotate
    cases hrotate
    exact .inl rfl
  · obtain ⟨b, handle, fs₁, hdone, -⟩ := h.rotate (rotatePasses_noFaults fa) hnow
    exact .inr (buffered_removeOverdue (hdone.symm.trans hrotate))

/-- The buffer after a call. -/
theorem Open.length_buffered (h : fa.Open fs inode buf) {now : Hour} {e : Event ω}
    (hcall : e.method now fa fs = .ok (fa', fs')) (hlength : fa.buffered.length ≤ bufferSize) :
    fa'.buffered.length ≤ bufferSize := by
  cases e with
  | write w r => exact length_buffered_write hcall hlength
  | flush w =>
      rw [buffered_flush hcall]
      exact Nat.zero_le _
  | rotate w =>
      rcases h.buffered_rotate hcall with hsame | hempty
      · rw [hsame]
        exact hlength
      · rw [hempty]
        exact Nat.zero_le _

/-- A call that does not write keeps the buffer empty. -/
theorem Open.buffered_eq_nil (h : fa.Open fs inode buf) {now : Hour} {e : Event ω} (he : e.isWrite = false)
    (hcall : e.method now fa fs = .ok (fa', fs')) (hempty : fa.buffered = []) : fa'.buffered = [] := by
  cases e with
  | write w r => cases he
  | flush w => exact buffered_flush hcall
  | rotate w =>
      rcases h.buffered_rotate hcall with hsame | hnil
      · exact hsame.trans hempty
      · exact hnil

theorem Open.frame_method (h : fa.Open fs inode buf) (hplain : fs.Plain) {now : Hour} {e : Event ω}
    (hcall : e.method now fa fs = .ok (fa', fs')) : Frame fa.Owns fa.file fs fs' := by
  cases e with
  | write w r => exact h.frame_write hplain hcall
  | flush w => exact h.frame_flush hplain hcall
  | rotate w => exact h.frame_rotate hplain hcall

end FileWriter

namespace Rotation

variable {fa₀ : FileWriter} {fs₀ : FileSystem} {start : Hour} {s : State}
  {gone kept : List (Nat × Bytes)} {inode : Nat} {buf : Bytes}

/-- The method that is called returns nil, and the files hold the log with what is written. -/
theorem Represents.method (hretain : 0 ≤ fa₀.retainHours) (h : Represents fa₀ fs₀ start s gone kept inode buf)
    (e : Event ω) : ∃ fa fs log gone' kept' inode' buf', e.method s.now s.fa s.fs = .ok (fa, fs) ∧
      Represents fa₀ fs₀ start { s with fa, fs, written := s.written ++ e.records, log } gone' kept' inode' buf' := by
  cases e with
  | write w r =>
      obtain ⟨s', buf', hstep, hs'⟩ := h.write r
      obtain ⟨⟨fa, fs⟩, hwrite, rfl⟩ := Option.map_eq_some_iff.mp hstep
      exact ⟨fa, fs, _, gone, kept, inode, buf', Checked.eq_ok_of_toOption hwrite, hs'⟩
  | flush w =>
      obtain ⟨s', hstep, hs'⟩ := h.flush
      obtain ⟨⟨fa, fs⟩, hflush, rfl⟩ := Option.map_eq_some_iff.mp hstep
      refine ⟨fa, fs, s.log, gone, kept, inode, [], Checked.eq_ok_of_toOption hflush, ?_⟩
      have hrecords : s.written ++ (Event.flush w).records = s.written := List.append_nil _
      rw [hrecords]
      exact hs'
  | rotate w =>
      have hnow : s.now ≤ s.now := Hour.genCurrentFileSuffix_le.mp le_rfl
      obtain ⟨s', gone', kept', inode', buf', hstep, hs'⟩ := h.rotate hretain hnow
      obtain ⟨⟨fa, fs⟩, hrotate, rfl⟩ := Option.map_eq_some_iff.mp hstep
      refine ⟨fa, fs, rollTo s.now s.log, gone', kept', inode', buf', Checked.eq_ok_of_toOption hrotate, ?_⟩
      have hrecords : s.written ++ (Event.rotate w).records = s.written := List.append_nil _
      rw [hrecords]
      exact hs'

end Rotation

/-! ### What was flushed -/

theorem writtenTo_append [DecidableEq ω] (events : List (Event ω)) (e : Event ω) (w : ω) :
    writtenTo (events ++ [e]) w = writtenTo events w ++ if e.writer = w then e.records else [] := by
  rw [writtenTo, List.filter_append, List.flatMap_append]
  by_cases hw : e.writer = w
  · simp [writtenTo, hw]
  · simp [writtenTo, hw]

theorem writtenTo_eq_nil [DecidableEq ω] {events : List (Event ω)} {w : ω} (h : ∀ e ∈ events, e.writer ≠ w) :
    writtenTo events w = [] := by
  have hnone : events.filter (fun e => e.writer = w) = [] := by
    rw [List.filter_eq_nil_iff]
    intro e he
    simpa using h e he
  rw [writtenTo, hnone]
  rfl

theorem printedBy_append (setup : ω → Writer) (events : List (Event ω)) (e : Event ω) :
    printedBy setup (events ++ [e]) = printedBy setup events ++
      match setup e.writer with
      | .file _ => []
      | .console cw => e.printed cw := by
  rw [printedBy, List.flatMap_append, List.flatMap_singleton]
  rfl

/-- After one more call a writer is flushed if the call flushes it, or if it was and the call does not write. -/
theorem Flushed.of_append {isFlusher : ω → Bool} {events : List (Event ω)} {e : Event ω} {w : ω}
    (h : Flushed isFlusher (events ++ [e]) w) (hw : isFlusher w = true) :
    e = .flush w ∨ Flushed isFlusher events w ∧ e.isWrite = false := by
  obtain ⟨before, after, hevents, hafter⟩ := h hw
  rcases List.eq_nil_or_concat after with rfl | ⟨after, last, rfl⟩
  · exact .inl (List.append_inj_right' hevents rfl |> List.singleton_inj.mp)
  · rw [List.concat_eq_append, ← List.cons_append, ← List.append_assoc] at hevents
    obtain ⟨rfl, hlast⟩ := List.append_inj' hevents rfl
    obtain rfl := List.singleton_inj.mp hlast
    right
    refine ⟨fun _ => ⟨before, after, rfl, fun e' he' => hafter e' ?_⟩, hafter e ?_⟩
    · rw [List.concat_eq_append]
      exact List.mem_append_left _ he'
    · rw [List.concat_eq_append]
      exact List.mem_append_right _ (List.mem_singleton_self e)

/-! ### All writers -/

namespace Sinks

variable [DecidableEq ω]

/-- What a writer sees of the state, with what it was called with. -/
def view (s : Sinks ω) (events : List (Event ω)) (now : Hour) (log : Segments Nat UInt8) (w : ω) : Rotation.State where
  fa := s.files w
  fs := { s.fs with removed := s.removed w }
  now
  written := writtenTo events w
  log

/-- A file writer that is registered: its files hold the log of what it was called with. -/
structure Stored (fa₀ : FileWriter) (fs₀ : FileSystem) (isFlusher : ω → Bool) (events : List (Event ω)) (now : Hour)
    (s : Sinks ω) (w : ω) : Prop where
  represents : ∃ fs start log gone kept inode buf, fs.content fa₀.fileName = fs₀.content fa₀.fileName ∧
    fs.removed = [] ∧ Rotation.Represents fa₀ fs start (s.view events now log w) gone kept inode buf
  buffered : (s.files w).buffered.length ≤ FileWriter.bufferSize
  flushed : Flushed isFlusher events w → (s.files w).buffered = []

/-- A file writer that is not registered: its files are as they were. -/
structure Untouched (fa₀ : FileWriter) (fs₀ : FileSystem) (s : Sinks ω) (w : ω) : Prop where
  files : s.files w = fa₀
  removed : s.removed w = []
  dir : ∀ name, fa₀.Owns name → s.fs.dir name = fs₀.dir name
  content : s.fs.content fa₀.fileName = fs₀.content fa₀.fileName

/-- The state of the writers after some calls. -/
structure Holds (setup : ω → Writer) (fs₀ : FileSystem) (writers : List ω) (events : List (Event ω)) (now : Hour)
    (s : Sinks ω) : Prop where
  plain : s.fs.Plain
  stored : ∀ w ∈ writers, ∀ fa₀, setup w = .file fa₀ → s.Stored fa₀ fs₀ (isFile setup) events now w
  untouched : ∀ w ∉ writers, ∀ fa₀, setup w = .file fa₀ → s.Untouched fa₀ fs₀ w
  stdout : s.stdout = printedBy setup events

/-- What is asked of the configuration and of the files that are there at first. No file has two names, the file
writers have different names, no files are kept of hours that are to come, and files are retained for some hours. -/
structure Ready (setup : ω → Writer) (fs₀ : FileSystem) (start : Hour) : Prop where
  plain : fs₀.Plain
  unrotated : ∀ w fa, setup w = .file fa → fa.historyFileSuffix = []
  retain : ∀ w fa, setup w = .file fa → 0 ≤ fa.retainHours
  apart : ∀ w w' fa fa', w ≠ w' → setup w = .file fa → setup w' = .file fa' → fa.Apart fa'
  fresh : ∀ w fa, setup w = .file fa → ∀ t : Hour, start ≤ t →
    fs₀.dir (fa.genLogFileName t.genCurrentFileSuffix) = none

variable {setup : ω → Writer} {fs₀ : FileSystem} {begin : Hour} {writers : List ω} {events : List (Event ω)}
  {now : Hour} {s : Sinks ω}

/-- What another writer does to the files. -/
theorem Stored.frame {fa₀ : FileWriter} {w : ω} {isFlusher : ω → Bool}
    (h : s.Stored fa₀ fs₀ isFlusher events now w) (hplain : s.fs.Plain) {s' : Sinks ω} {mine : Bytes → Prop}
    {owned : Option Nat} (hframe : Frame mine owned s.fs s'.fs) (hmine : ∀ name, fa₀.Owns name → ¬mine name)
    (howned : (s.files w).file ≠ owned) (hfiles : s'.files w = s.files w) (hremoved : s'.removed w = s.removed w) :
    s'.Stored fa₀ fs₀ isFlusher events now w where
  represents := by
    obtain ⟨fs, start, log, gone, kept, inode, buf, hcontent, hnil, h⟩ := h.represents
    refine ⟨fs, start, log, gone, kept, inode, buf, hcontent, hnil, ?_⟩
    have hview : Frame mine owned (s.view events now log w).fs s'.fs :=
      ⟨hframe.dir, hframe.data, hframe.handles, hframe.nextHandle, hframe.plain⟩
    have hmoved := h.frame (hplain.withRemoved _) hview hmine howned
    rw [view, hfiles, hremoved]
    exact hmoved
  buffered := hfiles ▸ h.buffered
  flushed := hfiles ▸ h.flushed

omit [DecidableEq ω] in
theorem Untouched.frame {fa₀ : FileWriter} {w : ω} (h : s.Untouched fa₀ fs₀ w) {s' : Sinks ω}
    {mine : Bytes → Prop} {owned : Option Nat} (hframe : Frame mine owned s.fs s'.fs)
    (hmine : ∀ name, fa₀.Owns name → ¬mine name) (hfiles : s'.files w = s.files w)
    (hremoved : s'.removed w = s.removed w) : s'.Untouched fa₀ fs₀ w where
  files := hfiles.trans h.files
  removed := hremoved.trans h.removed
  dir name howns := (hframe.dir name (hmine name howns)).trans (h.dir name howns)
  content := (hframe.content (hmine _ fa₀.owns_fileName)).trans h.content

/-- A call on another writer. -/
theorem Stored.other {fa₀ : FileWriter} {w : ω} (h : s.Stored fa₀ fs₀ (isFile setup) events now w) {e : Event ω}
    (hsetup : setup w = .file fa₀) (hne : e.writer ≠ w) :
    s.Stored fa₀ fs₀ (isFile setup) (events ++ [e]) now w where
  represents := by
    have hwritten : writtenTo (events ++ [e]) w = writtenTo events w := by
      rw [writtenTo_append, if_neg hne, List.append_nil]
    unfold view
    rw [hwritten]
    exact h.represents
  buffered := h.buffered
  flushed hflushed := by
    have hfile : isFile setup w = true := by rw [isFile, hsetup]
    rcases hflushed.of_append hfile with rfl | ⟨hbefore, -⟩
    · exact absurd rfl hne
    · exact h.flushed hbefore

/-- The writer that is called. -/
theorem Stored.method {fa₀ : FileWriter} {w : ω} (h : s.Stored fa₀ fs₀ (isFile setup) events now w)
    (hretain : 0 ≤ fa₀.retainHours) (hplain : s.fs.Plain) {e : Event ω} (hsetup : setup w = .file fa₀)
    (he : e.writer = w) :
    ∃ s', s.call w (e.method now) = some s' ∧ s'.Stored fa₀ fs₀ (isFile setup) (events ++ [e]) now w ∧
      Frame fa₀.Owns (s.files w).file s.fs s'.fs ∧ s'.stdout = s.stdout ∧
      ∀ w' ≠ w, s'.files w' = s.files w' ∧ s'.removed w' = s.removed w' := by
  obtain ⟨fs, start, log, gone, kept, inode, buf, hcontent, hnil, hrepresents⟩ := h.represents
  obtain ⟨fa', fs', log', gone', kept', inode', buf', hmethod, hafter⟩ := hrepresents.method hretain e
  have hopen : (s.files w).Open { s.fs with removed := s.removed w } inode buf := hrepresents.isOpen
  replace hmethod : e.method now (s.files w) { s.fs with removed := s.removed w } = .ok (fa', fs') := hmethod
  have hframe := hopen.frame_method (hplain.withRemoved _) hmethod
  have hname : (s.files w).fileName = fa₀.fileName := hrepresents.config.fileName
  rw [FileWriter.owns_congr hname] at hframe
  have hcall : s.call w (e.method now) = some { s with
      files := Function.update s.files w fa'
      fs := fs'
      removed := Function.update s.removed w fs'.removed } := by
    rw [call, hmethod]
    rfl
  refine ⟨_, hcall, ⟨?_, ?_, ?_⟩, ⟨hframe.dir, hframe.data, hframe.handles, hframe.nextHandle, hframe.plain⟩, rfl, ?_⟩
  · refine ⟨fs, start, log', gone', kept', inode', buf', hcontent, hnil, ?_⟩
    have hwritten : writtenTo (events ++ [e]) w = writtenTo events w ++ e.records := by
      rw [writtenTo_append, if_pos he]
    unfold view
    rw [hwritten]
    simp only [Function.update_self]
    exact hafter
  · show (Function.update s.files w fa' w).buffered.length ≤ _
    rw [Function.update_self]
    exact hopen.length_buffered hmethod h.buffered
  · intro hflushed
    show (Function.update s.files w fa' w).buffered = []
    rw [Function.update_self]
    have hfile : isFile setup w = true := by rw [isFile, hsetup]
    rcases hflushed.of_append hfile with rfl | ⟨hbefore, hread⟩
    · exact FileWriter.buffered_flush hmethod
    · exact hopen.buffered_eq_nil hread hmethod (h.flushed hbefore)
  · intro w' hne
    exact ⟨Function.update_of_ne hne _ _, Function.update_of_ne hne _ _⟩

theorem Stored.file_ne {fa₀ fa₁ : FileWriter} {w w' : ω} {isFlusher : ω → Bool}
    (h : s.Stored fa₀ fs₀ isFlusher events now w) (h' : s.Stored fa₁ fs₀ isFlusher events now w')
    (hplain : s.fs.Plain) (hapart : fa₀.Apart fa₁) : (s.files w).file ≠ (s.files w').file := by
  obtain ⟨_, _, _, _, _, inode, buf, _, _, h⟩ := h.represents
  obtain ⟨_, _, _, _, _, inode', buf', _, _, h'⟩ := h'.represents
  have hopen : (s.files w).Open s.fs inode buf := ⟨h.isOpen.writer, h.isOpen.dir⟩
  have hopen' : (s.files w').Open s.fs inode' buf' := ⟨h'.isOpen.writer, h'.isOpen.dir⟩
  have hname : (s.files w).fileName = fa₀.fileName := h.config.fileName
  have hname' : (s.files w').fileName = fa₁.fileName := h'.config.fileName
  apply hopen.file_ne hopen' hplain
  rw [hname, hname']
  exact hapart.current

/-- No call on a registered writer fails. -/
theorem Holds.handle (hready : Ready setup fs₀ begin) (h : Holds setup fs₀ writers events now s) {e : Event ω}
    (he : e.writer ∈ writers) :
    ∃ s', s.handle setup now e = some s' ∧ Holds setup fs₀ writers (events ++ [e]) now s' := by
  unfold Sinks.handle
  cases hsetup : setup e.writer with
  | console cw =>
      refine ⟨_, rfl, h.plain, ?_, ?_, ?_⟩
      · intro w hw fa₀ hfile
        have hne : e.writer ≠ w := by
          rintro rfl
          rw [hsetup] at hfile
          cases hfile
        have hother := (h.stored w hw fa₀ hfile).other hfile hne
        exact ⟨hother.represents, hother.buffered, hother.flushed⟩
      · intro w hw fa₀ hfile
        have huntouched := h.untouched w hw fa₀ hfile
        exact ⟨huntouched.files, huntouched.removed, huntouched.dir, huntouched.content⟩
      · rw [printedBy_append, hsetup, h.stdout]
  | file fa =>
      have hretain := hready.retain _ fa hsetup
      obtain ⟨s', hcall, hstored, hframe, hstdout, hothers⟩ :=
        (h.stored e.writer he fa hsetup).method hretain h.plain hsetup rfl
      refine ⟨s', hcall, hframe.plain, ?_, ?_, ?_⟩
      · intro w hw fa₀ hfile
        by_cases hne : e.writer = w
        · subst hne
          rw [hsetup] at hfile
          cases hfile
          exact hstored
        · have hapart := hready.apart w e.writer fa₀ fa (Ne.symm hne) hfile hsetup
          have hother := (h.stored w hw fa₀ hfile).other hfile hne
          have howned := (h.stored w hw fa₀ hfile).file_ne (h.stored e.writer he fa hsetup) h.plain hapart
          obtain ⟨hfiles, hremoved⟩ := hothers w (Ne.symm hne)
          exact hother.frame h.plain hframe (fun _ howns => hapart.not_owns howns) howned hfiles hremoved
      · intro w hw fa₀ hfile
        have hne : w ≠ e.writer := fun heq => hw (heq ▸ he)
        have hapart := hready.apart w e.writer fa₀ fa hne hfile hsetup
        obtain ⟨hfiles, hremoved⟩ := hothers w hne
        exact (h.untouched w hw fa₀ hfile).frame hframe (fun _ howns => hapart.not_owns howns) hfiles hremoved
      · rw [printedBy_append, hsetup, hstdout, h.stdout]
        exact (List.append_nil _).symm

/-- Nor does one of several calls. -/
theorem Holds.handleAll (hready : Ready setup fs₀ begin) {calls : List (Event ω)}
    (h : Holds setup fs₀ writers events now s) (hcalls : ∀ e ∈ calls, e.writer ∈ writers) :
    ∃ s', calls.foldlM (Sinks.handle setup · now) s = some s' ∧ Holds setup fs₀ writers (events ++ calls) now s' := by
  induction calls generalizing s events with
  | nil => exact ⟨s, rfl, (List.append_nil events).symm ▸ h⟩
  | cons e calls ih =>
      obtain ⟨s₁, hfirst, h₁⟩ := h.handle hready (hcalls e List.mem_cons_self)
      obtain ⟨s', hrest, hs'⟩ := ih h₁ fun e' he' => hcalls e' (List.mem_cons_of_mem e he')
      refine ⟨s', ?_, ?_⟩
      · rw [List.foldlM_cons, hfirst]
        exact hrest
      · rwa [List.append_assoc, List.singleton_append] at hs'

/-- Time passes. -/
theorem Holds.advance (h : Holds setup fs₀ writers events now s) {now' : Hour} (hnow : now ≤ now') :
    Holds setup fs₀ writers events now' s where
  plain := h.plain
  stored w hw fa₀ hfile := by
    have hstored := h.stored w hw fa₀ hfile
    obtain ⟨fs, start, log, gone, kept, inode, buf, hcontent, hnil, hrepresents⟩ := hstored.represents
    exact ⟨⟨fs, start, log, gone, kept, inode, buf, hcontent, hnil, hrepresents.advance hnow⟩, hstored.buffered,
      hstored.flushed⟩
  untouched := h.untouched
  stdout := h.stdout

/-- A file writer is initialised: it opens the file that was there at first, or a new one. -/
theorem Untouched.init {fa₀ : FileWriter} {w : ω} (h : s.Untouched fa₀ fs₀ w) (hready : Ready setup fs₀ begin)
    (hplain : s.fs.Plain) (hsetup : setup w = .file fa₀) (hbegin : begin ≤ now)
    (hnone : ∀ e ∈ events, e.writer ≠ w) :
    ∃ s', s.call w (FileWriter.init {} now) = some s' ∧ s'.Stored fa₀ fs₀ (isFile setup) events now w ∧
      (∀ owned, Frame fa₀.Owns owned s.fs s'.fs) ∧ s'.stdout = s.stdout ∧
      ∀ w' ≠ w, s'.files w' = s.files w' ∧ s'.removed w' = s.removed w' := by
  let fs : FileSystem := { s.fs with removed := s.removed w }
  have hplain' : fs.Plain := hplain.withRemoved _
  obtain ⟨fs', inode, handle, hcreate, -⟩ := FileWriter.crateFile_spec FileWriter.createPasses_noFaults
    { fa₀ with currentFileSuffix := now.genCurrentFileSuffix } fs
  let fa' := FileWriter.setFile { fa₀ with currentFileSuffix := now.genCurrentFileSuffix } handle
  have hinit : fa₀.init {} now fs = .ok (fa', fs') := hcreate
  have hfresh : ∀ t : Hour, now ≤ t → fs.dir (fa₀.genLogFileName t.genCurrentFileSuffix) = none := by
    intro t hle
    have hbegin' : begin ≤ t := by
      apply Hour.genCurrentFileSuffix_le.mp
      calc
        begin.genCurrentFileSuffix ≤ now.genCurrentFileSuffix := Hour.genCurrentFileSuffix_le.mpr hbegin
        _ ≤ t.genCurrentFileSuffix := Hour.genCurrentFileSuffix_le.mpr hle
    exact (h.dir _ (fa₀.owns_genLogFileName _)).trans (hready.fresh w fa₀ hsetup t hbegin')
  obtain ⟨inode', hrepresents⟩ := Rotation.represents_start (hready.unrotated w fa₀ hsetup) hfresh hinit
  have hcall : s.call w (FileWriter.init {} now) = some { s with
      files := Function.update s.files w fa'
      fs := fs'
      removed := Function.update s.removed w fs'.removed } := by
    rw [call, h.files]
    show (fa₀.init {} now fs).toOption.map _ = _
    rw [hinit]
    rfl
  have hframe : ∀ owned, Frame fa₀.Owns owned fs fs' := fun owned => FileWriter.frame_init owned hplain' hinit
  refine ⟨_, hcall, ⟨?_, ?_, ?_⟩, ?_, rfl, ?_⟩
  · refine ⟨fs, now, (Rotation.system fa' fs' now).start.log, [], [], inode', [], h.content, h.removed, ?_⟩
    unfold view
    rw [writtenTo_eq_nil hnone]
    simp only [Function.update_self]
    exact hrepresents
  · show (Function.update s.files w fa' w).buffered.length ≤ _
    rw [Function.update_self]
    exact Nat.zero_le _
  · intro _
    show (Function.update s.files w fa' w).buffered = []
    rw [Function.update_self]
    rfl
  · intro owned
    exact ⟨(hframe owned).dir, (hframe owned).data, (hframe owned).handles, (hframe owned).nextHandle,
      (hframe owned).plain⟩
  · intro w' hne
    exact ⟨Function.update_of_ne hne _ _, Function.update_of_ne hne _ _⟩

/-- A writer that was not registered can be initialised. -/
theorem Holds.init (hready : Ready setup fs₀ begin) (h : Holds setup fs₀ writers events now s) (hbegin : begin ≤ now)
    {w : ω} (hw : w ∉ writers) (hevents : ∀ e ∈ events, e.writer ∈ writers) :
    ∃ s', s.init setup now w = some s' ∧ Holds setup fs₀ (writers ++ [w]) events now s' := by
  have hnone : ∀ e ∈ events, e.writer ≠ w := by
    rintro e he rfl
    exact hw (hevents e he)
  unfold Sinks.init
  cases hsetup : setup w with
  | console cw =>
      refine ⟨s, rfl, h.plain, ?_, ?_, h.stdout⟩
      · intro w' hw' fa₀ hfile
        rcases List.mem_append.mp hw' with hmem | hmem
        · exact h.stored w' hmem fa₀ hfile
        · obtain rfl := List.mem_singleton.mp hmem
          rw [hsetup] at hfile
          cases hfile
      · exact fun w' hw' fa₀ hfile => h.untouched w' (fun hmem => hw' (List.mem_append_left _ hmem)) fa₀ hfile
  | file fa =>
      obtain ⟨s', hcall, hstored, hframe, hstdout, hothers⟩ :=
        (h.untouched w hw fa hsetup).init hready h.plain hsetup hbegin hnone
      refine ⟨s', hcall, (hframe none).plain, ?_, ?_, hstdout.trans h.stdout⟩
      · intro w' hw' fa₀ hfile
        rcases List.mem_append.mp hw' with hmem | hmem
        · have hne : w' ≠ w := fun heq => hw (heq ▸ hmem)
          have hapart := hready.apart w' w fa₀ fa hne hfile hsetup
          have hold := h.stored w' hmem fa₀ hfile
          obtain ⟨hfiles, hremoved⟩ := hothers w' hne
          -- the writer that is initialised has no file open yet
          have howned : (s.files w').file ≠ none := by
            obtain ⟨_, _, _, _, _, _, _, _, _, hrepresents⟩ := hold.represents
            obtain ⟨handle, hopen, -⟩ := hrepresents.isOpen.writer
            replace hopen : (s.files w').file = some handle := hopen
            rw [hopen]
            exact Option.some_ne_none handle
          exact hold.frame h.plain (hframe none) (fun _ howns => hapart.not_owns howns) howned hfiles hremoved
        · obtain rfl := List.mem_singleton.mp hmem
          rw [hsetup] at hfile
          cases hfile
          exact hstored
      · intro w' hw' fa₀ hfile
        have hmem : w' ∉ writers := fun hmem => hw' (List.mem_append_left _ hmem)
        have hne : w' ≠ w := fun heq => hw' (List.mem_append_right _ (List.mem_singleton.mpr heq))
        have hapart := hready.apart w' w fa₀ fa hne hfile hsetup
        obtain ⟨hfiles, hremoved⟩ := hothers w' hne
        exact (h.untouched w' hmem fa₀ hfile).frame (hframe none) (fun _ howns => hapart.not_owns howns) hfiles hremoved

/-- The log of a file writer that is registered, on the disk and in the buffer. -/
theorem Stored.bytes {fa₀ : FileWriter} {w : ω} {isFlusher : ω → Bool}
    (h : s.Stored fa₀ fs₀ isFlusher events now w) :
    (s.removed w).flatten ++
        (s.files w).historyFileSuffix.flatMap (fun suffix => s.fs.content (fa₀.genLogFileName suffix)) ++
        s.fs.content fa₀.fileName ++ (s.files w).buffered =
      fs₀.content fa₀.fileName ++ ((writtenTo events w).filter (Rotation.InRange fa₀)).flatMap Record.string := by
  obtain ⟨fs, start, log, gone, kept, inode, buf, hcontent, hnil, hrepresents⟩ := h.represents
  have hbytes := hrepresents.nothingLost.bytes
  rw [hcontent, hnil] at hbytes
  exact hbytes

/-- The rotated files that are kept, in the order of their hours. -/
theorem Stored.history {fa₀ : FileWriter} {w : ω} {isFlusher : ω → Bool}
    (h : s.Stored fa₀ fs₀ isFlusher events now w) :
    (s.files w).historyFileSuffix.Pairwise (· < ·) ∧
      (s.files w).historyFileSuffix.length ≤ fa₀.retainHours.toNat := by
  obtain ⟨fs, start, log, gone, kept, inode, buf, -, -, hrepresents⟩ := h.represents
  have hhistory : (s.files w).historyFileSuffix = kept.map Prod.fst := hrepresents.history
  refine ⟨(List.pairwise_append.mp hrepresents.nothingLost.increasing).1, ?_⟩
  rw [hhistory, List.length_map]
  exact hrepresents.retained.length_le

end Sinks

end ToyBox.Logger
