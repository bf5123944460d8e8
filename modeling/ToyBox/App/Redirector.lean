import Mathlib.Logic.Function.Basic
import ToyBox.Library.TransitionSystem

/-! The redirection of the standard output and the standard error of a daemon to a file, and the goroutine that monitors
the file. Every system call is a step of its own and may fail; in between others remove, replace and rename files. All files
are on one device. A file has an inode number as long as it has a name or somebody has it open; then the number may be
given to another. The errors of `Dup2` are dropped, so that one that fails leaves its descriptor where it was. -/

namespace ToyBox

namespace Redirector

/-- A file, which is not its inode number. -/
abbrev File := Nat

/-- Where the redirection is, by its next call. The flag says whether it is the first one, in `RedirectStdioAndStderr`,
or one of `monitorStdioLogFile`. -/
inductive Pc
  /-- The monitor waits for the ticker. -/
  | wait
  | stat
  | openFile (first : Bool)
  | fileStat (first : Bool) (f : File)
  | dupStdout (first : Bool) (f : File) (iNode : Nat)
  | dupStderr (first : Bool) (f : File) (iNode : Nat)
  /-- The deferred `Close`; there may be no file to close. -/
  | close (first : Bool) (f : Option File) (iNode : Nat) (err : Bool)
  /-- The first redirection has failed, and nothing is monitored. -/
  | returned

/-- The file that the redirection has open. -/
def Pc.file : Pc → Option File
  | fileStat _ f => some f
  | dupStdout _ f _ => some f
  | dupStderr _ f _ => some f
  | close _ f _ _ => f
  | _ => none

inductive Label
  | tick
  /-- The next call of the redirection, which may fail; a file that it creates gets an inode number. -/
  | call (fails : Bool) (iNode : Nat)
  /-- The path gets a new file, in the place of the one that was there. -/
  | create (iNode : Nat)
  | unlink
  /-- A file with another name gets the path. -/
  | rename (f : File)
  /-- A file gets another name, or is opened by another process, and loses all such. -/
  | keep (f : File)
  | release (f : File)

end Redirector

open Redirector

/-- The redirection and what it shares with the rest of the system. -/
structure Redirector where
  pc : Pc := .openFile true
  stdioLogFileINode : Nat := 0
  /-- The file of the path. -/
  entry : Option File := none
  /-- A file has another name, or another process has it open. -/
  kept : File → Bool := fun _ => false
  iNode : File → Nat := fun _ => 0
  nextFile : File := 0
  /-- The file that the standard output goes to, if it has been redirected. -/
  stdout : Option File := none
  stderr : Option File := none
  /-- A `Dup2` has failed in the last redirection that came to these calls. -/
  dupFailed : Bool := false

namespace Redirector

variable (s : Redirector)

/-- A file that has a name or is open. -/
def Alive (f : File) : Prop :=
  s.entry = some f ∨ s.kept f = true ∨ s.stdout = some f ∨ s.stderr = some f ∨ s.pc.file = some f

instance (f : File) : Decidable (s.Alive f) := by
  unfold Alive
  infer_instance

/-- An inode number that a new file can get. -/
def Free (iNode : Nat) : Prop := 0 < iNode ∧ ∀ f < s.nextFile, s.Alive f → s.iNode f ≠ iNode

instance (iNode : Nat) : Decidable (s.Free iNode) := by
  unfold Free
  infer_instance

/-- A new file at the path. -/
def createFile (iNode : Nat) : Redirector :=
  { s with
    entry := some s.nextFile
    iNode := Function.update s.iNode s.nextFile iNode
    nextFile := s.nextFile + 1 }

/-- What the monitor makes of its `Stat`: whether it redirects again. -/
def redirects (fails : Bool) : Bool :=
  s.stdioLogFileINode == 0 ||
    match fails, s.entry with
    | true, _ => false
    | false, none => true
    | false, some f => s.iNode f != s.stdioLogFileINode

/-- The `Stat` of `monitorStdioLogFile` and what it decides. -/
def monitorStdioLogFile (fails : Bool) : Redirector :=
  { s with pc := if s.redirects fails then .openFile false else .wait }

/-- The next call of `redirect2file`. When it returns the inode number is remembered; there is no monitor if the first
redirection has failed. -/
def redirect2file (fails : Bool) (iNode : Nat) : Option Redirector :=
  match s.pc with
  | .openFile first =>
      if fails then some { s with pc := .close first none 0 true }
      else
        match s.entry with
        | some f => some { s with pc := .fileStat first f }
        | none => if s.Free iNode then some { s.createFile iNode with pc := .fileStat first s.nextFile } else none
  | .fileStat first f =>
      if fails then some { s with pc := .close first (some f) 0 true }
      else some { s with pc := .dupStdout first f (s.iNode f) }
  | .dupStdout first f iNode =>
      some { s with
        stdout := if fails then s.stdout else some f
        dupFailed := fails
        pc := .dupStderr first f iNode }
  | .dupStderr first f iNode =>
      some { s with
        stderr := if fails then s.stderr else some f
        dupFailed := s.dupFailed || fails
        pc := .close first (some f) iNode false }
  | .close first _ iNode err =>
      some { s with stdioLogFileINode := iNode, pc := if first && err then .returned else .wait }
  | _ => none

/-- The next call of the redirection. -/
def nextCall (fails : Bool) (iNode : Nat) : Option Redirector :=
  match s.pc with
  | .stat => some (s.monitorStdioLogFile fails)
  | _ => s.redirect2file fails iNode

def next : Label → Option Redirector
  | .tick =>
      match s.pc with
      | .wait => some { s with pc := .stat }
      | _ => none
  | .call fails iNode => s.nextCall fails iNode
  | .create iNode => if s.Free iNode then some (s.createFile iNode) else none
  | .unlink => some { s with entry := none }
  | .rename f => if s.kept f then some { s with entry := some f } else none
  | .keep f => if s.Alive f then some { s with kept := Function.update s.kept f true } else none
  | .release f => some { s with kept := Function.update s.kept f false }

/-- A disk without files; others may put some there before the redirection begins. -/
def system : TransitionSystem Redirector Label where
  start := {}
  step := next

/-! ### Inode numbers -/

/-- Files that have a name or are open have different inode numbers. -/
structure Numbered : Prop where
  lt : ∀ f, s.Alive f → f < s.nextFile
  pos : ∀ f, s.Alive f → 0 < s.iNode f
  injective : ∀ f g, s.Alive f → s.Alive g → s.iNode f = s.iNode g → f = g

variable {s} {s' : Redirector}

/-- No file gets a name or is opened that had no name and was not open. -/
theorem Numbered.of_alive (h : Numbered s) (halive : ∀ f, s'.Alive f → s.Alive f)
    (hiNode : s'.iNode = s.iNode := by rfl) (hnext : s'.nextFile = s.nextFile := by rfl) : Numbered s' where
  lt f hf := hnext ▸ h.lt f (halive f hf)
  pos f hf := hiNode ▸ h.pos f (halive f hf)
  injective f g hf hg := hiNode ▸ h.injective f g (halive f hf) (halive g hg)

/-- A new file gets a number of its own, whatever becomes of the file it replaces. -/
theorem Numbered.create (h : Numbered s) {iNode : Nat} (hfree : s.Free iNode)
    (halive : ∀ f, s'.Alive f → f = s.nextFile ∨ s.Alive f)
    (hiNode : s'.iNode = Function.update s.iNode s.nextFile iNode := by rfl)
    (hnext : s'.nextFile = s.nextFile + 1 := by rfl) : Numbered s' := by
  have hold : ∀ f, s.Alive f → s'.iNode f = s.iNode f := by
    intro f hf
    rw [hiNode]
    exact Function.update_of_ne (Nat.ne_of_lt (h.lt f hf)) _ _
  have hnew : s'.iNode s.nextFile = iNode := by
    rw [hiNode]
    exact Function.update_self _ _ _
  refine ⟨?_, ?_, ?_⟩
  · intro f hf
    rw [hnext]
    rcases halive f hf with rfl | hf
    · exact Nat.lt_succ_self _
    · exact Nat.lt_succ_of_lt (h.lt f hf)
  · intro f hf
    rcases halive f hf with rfl | hf
    · rw [hnew]
      exact hfree.1
    · rw [hold f hf]
      exact h.pos f hf
  · intro f g hf hg heq
    rcases halive f hf with rfl | hf
    · rcases halive g hg with rfl | hg
      · rfl
      · rw [hnew, hold g hg] at heq
        exact absurd heq.symm (hfree.2 g (h.lt g hg) hg)
    · rcases halive g hg with rfl | hg
      · rw [hnew, hold f hf] at heq
        exact absurd heq (hfree.2 f (h.lt f hf) hf)
      · rw [hold f hf, hold g hg] at heq
        exact h.injective f g hf hg heq

/-! ### What the redirection knows -/

/-- Both descriptors are open on one file, of that inode number. -/
def OpenOn (s : Redirector) (f : File) (iNode : Nat) : Prop :=
  s.stdout = some f ∧ s.stderr = some f ∧ s.iNode f = iNode

/-- A number that is remembered is that of the open file, if no `Dup2` has failed. -/
def Remembers (s : Redirector) : Prop :=
  s.stdioLogFileINode ≠ 0 → s.dupFailed = false → ∃ f, s.OpenOn f s.stdioLogFileINode

/-- What holds where the redirection is. -/
def Pc.Fits (s : Redirector) : Pc → Prop
  | wait => s.Remembers
  | stat => s.Remembers
  | dupStdout _ f iNode => s.iNode f = iNode
  | dupStderr _ f iNode => s.iNode f = iNode ∧ (s.dupFailed = false → s.stdout = some f)
  | close _ f iNode err => if err then iNode = 0 else ∃ g, f = some g ∧ (s.dupFailed = false → s.OpenOn g iNode)
  | _ => True

/-- Output and errors go to one file, but between the two calls of `Dup2`. -/
def Together (s : Redirector) : Prop :=
  s.dupFailed = false → s.stdout = s.stderr ∨ ∃ first f iNode, s.pc = .dupStderr first f iNode

/-- The state of the redirection. -/
structure Invariant (s : Redirector) : Prop where
  numbered : Numbered s
  fits : s.pc.Fits s
  together : s.Together

theorem invariant_start : Invariant system.start where
  numbered := by
    have hnone : ∀ f, ¬(system.start).Alive f := by
      rintro f (h | h | h | h | h) <;> cases h
    exact ⟨fun f hf => absurd hf (hnone f), fun f hf => absurd hf (hnone f), fun f _ hf => absurd hf (hnone f)⟩
  fits := trivial
  together _ := .inl rfl

/-- Files that the redirection knows of keep their numbers. -/
theorem Pc.Fits.congr {s s' : Redirector} {pc : Pc} (h : pc.Fits s) (hfile : ∀ f, pc.file = some f → s'.iNode f = s.iNode f)
    (hstdout : ∀ f, s.stdout = some f → s'.iNode f = s.iNode f) (hremembered : s'.stdioLogFileINode = s.stdioLogFileINode)
    (hout : s'.stdout = s.stdout) (herr : s'.stderr = s.stderr) (hdup : s'.dupFailed = s.dupFailed) : pc.Fits s' := by
  have hopen : ∀ f iNode, s.OpenOn f iNode → s'.OpenOn f iNode := by
    rintro f iNode ⟨hf, hf', hnumber⟩
    exact ⟨hout.trans hf, herr.trans hf', (hstdout f hf).trans hnumber⟩
  have hremembers : s.Remembers → s'.Remembers := by
    intro h hne hfailed
    rw [hremembered] at hne ⊢
    obtain ⟨f, hf⟩ := h hne (hdup ▸ hfailed)
    exact ⟨f, hopen f _ hf⟩
  cases pc with
  | wait => exact hremembers h
  | stat => exact hremembers h
  | openFile first => trivial
  | fileStat first f => trivial
  | dupStdout first f iNode => exact (hfile f rfl).trans h
  | dupStderr first f iNode => exact ⟨(hfile f rfl).trans h.1, fun hfailed => hout.trans (h.2 (hdup ▸ hfailed))⟩
  | close first f iNode err =>
      cases err with
      | true => exact h
      | false =>
          obtain ⟨g, hg, hopened⟩ := h
          exact ⟨g, hg, fun hfailed => hopen g iNode (hopened (hdup ▸ hfailed))⟩
  | returned => trivial

theorem Alive.of_entry {f : File} (h : s.entry = some f) : s.Alive f := .inl h

theorem Alive.of_kept {f : File} (h : s.kept f = true) : s.Alive f := .inr (.inl h)

theorem Alive.of_stdout {f : File} (h : s.stdout = some f) : s.Alive f := .inr (.inr (.inl h))

theorem Alive.of_stderr {f : File} (h : s.stderr = some f) : s.Alive f := .inr (.inr (.inr (.inl h)))

theorem Alive.of_pc {f : File} (h : s.pc.file = some f) : s.Alive f := .inr (.inr (.inr (.inr h)))

/-- The redirection goes on with a file that was there. -/
theorem alive_of_file (hfile : ∀ f, s'.pc.file = some f → s.Alive f) (hentry : s'.entry = s.entry := by rfl)
    (hkept : s'.kept = s.kept := by rfl) (hout : s'.stdout = s.stdout := by rfl)
    (herr : s'.stderr = s.stderr := by rfl) (f : File) (hf : s'.Alive f) : s.Alive f := by
  rcases hf with h | h | h | h | h
  · exact .of_entry (hentry ▸ h)
  · exact .of_kept (hkept ▸ h)
  · exact .of_stdout (hout ▸ h)
  · exact .of_stderr (herr ▸ h)
  · exact hfile f h

/-- Others give the path, or another name, only to a file that is there. -/
theorem alive_of_names (hentry : ∀ f, s'.entry = some f → s.Alive f) (hkept : ∀ f, s'.kept f = true → s.Alive f)
    (hpc : s'.pc = s.pc := by rfl) (hout : s'.stdout = s.stdout := by rfl) (herr : s'.stderr = s.stderr := by rfl)
    (f : File) (hf : s'.Alive f) : s.Alive f := by
  rcases hf with h | h | h | h | h
  · exact hentry f h
  · exact hkept f h
  · exact .of_stdout (hout ▸ h)
  · exact .of_stderr (herr ▸ h)
  · exact .of_pc (hpc ▸ h)

/-- What others do leaves the redirection where it is. -/
theorem Invariant.others (h : Invariant s) (hnumbered : Numbered s')
    (hiNode : ∀ f, s.Alive f → s'.iNode f = s.iNode f) (hpc : s'.pc = s.pc := by rfl)
    (hremembered : s'.stdioLogFileINode = s.stdioLogFileINode := by rfl) (hout : s'.stdout = s.stdout := by rfl)
    (herr : s'.stderr = s.stderr := by rfl) (hdup : s'.dupFailed = s.dupFailed := by rfl) : Invariant s' where
  numbered := hnumbered
  fits := by
    rw [hpc]
    exact h.fits.congr (fun f hf => hiNode f (.of_pc hf)) (fun f hf => hiNode f (.of_stdout hf)) hremembered hout herr
      hdup
  together := by
    rw [Together, hpc, hout, herr, hdup]
    exact h.together

/-- The redirection goes on and opens no file that was not there. -/
theorem Invariant.goOn (h : Invariant s) (halive : ∀ f, s'.Alive f → s.Alive f) (hfits : s'.pc.Fits s')
    (htogether : s'.Together)
    (hiNode : s'.iNode = s.iNode := by rfl) (hnext : s'.nextFile = s.nextFile := by rfl) : Invariant s' :=
  ⟨h.numbered.of_alive halive hiNode hnext, hfits, htogether⟩

/-- Outside of the second call of `Dup2` the descriptors are the same. -/
theorem Invariant.same (h : Invariant s) (hpc : ∀ first f iNode, s.pc ≠ .dupStderr first f iNode)
    (hfailed : s.dupFailed = false) : s.stdout = s.stderr := by
  rcases h.together hfailed with hsame | ⟨first, f, iNode, heq⟩
  · exact hsame
  · exact absurd heq (hpc first f iNode)

theorem Invariant.createFile (h : Invariant s) {iNode : Nat} (hfree : s.Free iNode) : Invariant (s.createFile iNode) := by
  apply h.others
  · apply h.numbered.create hfree
    rintro f (hentry | hkept | hout | herr | hpc)
    · exact .inl (Option.some.inj hentry).symm
    · exact .inr (.of_kept hkept)
    · exact .inr (.of_stdout hout)
    · exact .inr (.of_stderr herr)
    · exact .inr (.of_pc hpc)
  · intro f hf
    exact Function.update_of_ne (Nat.ne_of_lt (h.numbered.lt f hf)) _ _

theorem Invariant.monitorStdioLogFile (h : Invariant s) (hpc : s.pc = .stat) (fails : Bool) :
    Invariant (s.monitorStdioLogFile fails) := by
  have hsame := h.same (by rw [hpc]; nofun)
  have hfits := h.fits
  rw [hpc] at hfits
  unfold Redirector.monitorStdioLogFile
  cases s.redirects fails with
  | true =>
      refine h.goOn (alive_of_file ?_) trivial fun hfailed => .inl (hsame hfailed)
      intro f hfile
      cases hfile
  | false =>
      refine h.goOn (alive_of_file ?_) hfits fun hfailed => .inl (hsame hfailed)
      intro f hfile
      cases hfile

theorem Invariant.redirect2file (h : Invariant s) {fails : Bool} {iNode : Nat}
    (hstep : s.redirect2file fails iNode = some s') : Invariant s' := by
  have hfits := h.fits
  unfold Redirector.redirect2file at hstep
  split at hstep
  case h_1 first hpc =>
    have hsame := h.same (by rw [hpc]; nofun)
    split at hstep
    · cases hstep
      refine h.goOn (alive_of_file ?_) rfl fun hfailed => .inl (hsame hfailed)
      intro f hfile
      cases hfile
    split at hstep
    · rename_i f hentry
      cases hstep
      refine h.goOn (alive_of_file ?_) trivial fun hfailed => .inl (hsame hfailed)
      intro g hfile
      exact .of_entry (hentry.trans hfile)
    · split at hstep
      · rename_i hfree
        cases hstep
        refine (h.createFile hfree).goOn (alive_of_file ?_) trivial fun hfailed => .inl (hsame hfailed)
        intro f hfile
        exact .of_entry hfile
      · cases hstep
  case h_2 first f hpc =>
    have hsame := h.same (by rw [hpc]; nofun)
    split at hstep
    · cases hstep
      refine h.goOn (alive_of_file ?_) rfl fun hfailed => .inl (hsame hfailed)
      intro g hfile
      exact .of_pc (by rw [hpc]; exact hfile)
    · cases hstep
      refine h.goOn (alive_of_file ?_) rfl fun hfailed => .inl (hsame hfailed)
      intro g hfile
      exact .of_pc (by rw [hpc]; exact hfile)
  case h_3 first f number hpc =>
    rw [hpc] at hfits
    cases hstep
    refine h.goOn ?_ ⟨hfits, fun hfailed => ?_⟩ fun _ => .inr ⟨first, f, number, rfl⟩
    · rintro g (hentry | hkept | hout | herr | hfile)
      · exact .of_entry hentry
      · exact .of_kept hkept
      · cases fails with
        | true => exact .of_stdout hout
        | false => exact .of_pc (by rw [hpc]; exact hout)
      · exact .of_stderr herr
      · exact .of_pc (by rw [hpc]; exact hfile)
    · replace hfailed : fails = false := hfailed
      simp [hfailed]
  case h_4 first f number hpc =>
    rw [hpc] at hfits
    cases hstep
    have hboth : (s.dupFailed || fails) = false →
        s.stdout = some f ∧ (if fails = true then s.stderr else some f) = some f := by
      intro hfailed
      obtain ⟨hbefore, rfl⟩ := Bool.or_eq_false_iff.mp hfailed
      exact ⟨hfits.2 hbefore, rfl⟩
    refine h.goOn ?_ ⟨f, rfl, fun hfailed => ⟨(hboth hfailed).1, (hboth hfailed).2, hfits.1⟩⟩ fun hfailed => ?_
    · rintro g (hentry | hkept | hout | herr | hfile)
      · exact .of_entry hentry
      · exact .of_kept hkept
      · exact .of_stdout hout
      · cases fails with
        | true => exact .of_stderr herr
        | false => exact .of_pc (by rw [hpc]; exact herr)
      · exact .of_pc (by rw [hpc]; exact hfile)
    · exact .inl ((hboth hfailed).1.trans (hboth hfailed).2.symm)
  case h_5 first f number err hpc =>
    have hsame := h.same (by rw [hpc]; nofun)
    rw [hpc] at hfits
    cases hstep
    refine h.goOn (alive_of_file ?_) ?_ fun hfailed => .inl (hsame hfailed)
    · intro g hfile
      dsimp only at hfile
      split at hfile <;> cases hfile
    · dsimp only
      cases err with
      | true =>
          cases first with
          | true => trivial
          | false => exact fun hne => absurd hfits hne
      | false =>
          obtain ⟨g, -, hopen⟩ := hfits
          cases first <;> exact fun _ hfailed => ⟨g, hopen hfailed⟩
  case h_6 => cases hstep

theorem Invariant.nextCall (h : Invariant s) {fails : Bool} {iNode : Nat}
    (hstep : s.nextCall fails iNode = some s') : Invariant s' := by
  unfold Redirector.nextCall at hstep
  split at hstep
  · rename_i hpc
    exact Option.some.inj hstep ▸ h.monitorStdioLogFile hpc fails
  · exact h.redirect2file hstep

theorem Invariant.next (h : Invariant s) {label : Label} (hstep : s.next label = some s') : Invariant s' := by
  cases label with
  | tick =>
      simp only [Redirector.next] at hstep
      split at hstep
      · rename_i hpc
        have hfits := h.fits
        rw [hpc] at hfits
        cases hstep
        refine h.goOn (alive_of_file ?_) hfits fun hfailed => .inl (h.same (by rw [hpc]; nofun) hfailed)
        intro g hfile
        cases hfile
      · cases hstep
  | call fails iNode => exact h.nextCall hstep
  | create iNode =>
      simp only [Redirector.next] at hstep
      split at hstep
      · rename_i hfree
        cases hstep
        exact h.createFile hfree
      · cases hstep
  | unlink =>
      cases hstep
      refine h.others (h.numbered.of_alive (alive_of_names ?_ fun _ => Alive.of_kept (s := s))) fun _ _ => rfl
      intro g hentry
      cases hentry
  | rename f =>
      simp only [Redirector.next] at hstep
      split at hstep
      · rename_i hf
        cases hstep
        refine h.others (h.numbered.of_alive (alive_of_names ?_ fun _ => Alive.of_kept (s := s))) fun _ _ => rfl
        intro g hentry
        exact .of_kept (Option.some.inj hentry ▸ hf)
      · cases hstep
  | keep f =>
      simp only [Redirector.next] at hstep
      split at hstep
      · rename_i hf
        cases hstep
        refine h.others (h.numbered.of_alive (alive_of_names (fun _ => Alive.of_entry (s := s)) ?_)) fun _ _ => rfl
        intro g hkept
        replace hkept : Function.update s.kept f true g = true := hkept
        by_cases hg : g = f
        · exact hg ▸ hf
        · rw [Function.update_of_ne hg] at hkept
          exact .of_kept hkept
      · cases hstep
  | release f =>
      cases hstep
      refine h.others (h.numbered.of_alive (alive_of_names (fun _ => Alive.of_entry (s := s)) ?_)) fun _ _ => rfl
      intro g hkept
      replace hkept : Function.update s.kept f false g = true := hkept
      by_cases hg : g = f
      · rw [hg, Function.update_self] at hkept
        cases hkept
      · rw [Function.update_of_ne hg] at hkept
        exact .of_kept hkept

/-! ### What the monitor sees to -/

end Redirector

end ToyBox
