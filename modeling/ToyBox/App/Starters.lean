import Mathlib.Data.Set.Basic
import ToyBox.App.PidFile
import ToyBox.Cxx.Literal
import ToyBox.Library.TransitionSystem

/-! Processes that start a service, and end it, in the same directory. Every call on the pid file is a step
of its own, so that others may come between the check of `writeServicePid`, its opening of the file and its
writing, and `deletePidFile` removes whatever file has the name by then. A file stays with those who have it
open when its name is gone. -/

namespace ToyBox.App

/-- Where a process is, by its next call. -/
inductive Starter
  | stat
  /-- `ReadFile`, which opens the file and reads it to its end. -/
  | readFile
  | read (inode : Nat) (bytes : Bytes)
  | signal (originalPid : Int)
  | openFile
  | writeString (inode : Nat)
  /-- `writeServicePid` has returned nil; next is the call of `deletePidFile`. -/
  | remove
  /-- `writeServicePid` has failed, or `deletePidFile` is done. -/
  | done
  deriving DecidableEq

/-- The process goes on to write its pid, or has written it. -/
def Starter.Owns : Starter → Prop
  | .writeString _ => True
  | .remove => True
  | _ => False

/-- The processes by their pids, and the file that has the name. -/
structure Starters where
  procs : Nat → Option Starter
  /-- What else `kill` with signal 0 finds: the pids of other processes, and process groups. -/
  others : Int → Bool
  /-- The inode the name stands for. -/
  entry : Option Nat
  data : Nat → Bytes
  nextInode : Nat

namespace Starters

inductive Label
  /-- A process calls `writeServicePid`. -/
  | start (pid : Nat)
  /-- A process makes its next call. The call fails, or succeeds; a failing `WriteString` has written some
  of its bytes. -/
  | call (pid : Nat) (failsAfter : Option Nat)
  /-- A process ends, at whatever point. -/
  | exit (pid : Nat)
  /-- Something else comes or goes that `kill` finds. -/
  | other (pid : Int) (found : Bool)

variable (s : Starters)

def kill (pid : Int) : Bool := s.others pid || 0 < pid && (s.procs pid.toNat).isSome

/-- The file under the name. -/
def pidFile : PidFile :=
  match s.entry with
  | none => .missing
  | some inode => .content (s.data inode)

/-- What a process finds that makes its calls at once. -/
def found : Found := ⟨s.pidFile, s.kill⟩

def set (pid : Nat) (p : Starter) : Starters :=
  { s with procs := Function.update s.procs pid (some p) }

/-- The switch of `writeServicePid` on what `findServicePid` has found after it has read a pid. There is no
error when the process is there, so -2 returns nil then. -/
def afterSignal (originalPid : Int) : Starter :=
  let pid := if s.found.signalZero originalPid then originalPid else -3
  if pid = -2 then .remove else if pid = -1 ∨ pid = -3 then .openFile else .done

/-- `open` with `O_CREATE` and `O_TRUNC`. -/
def truncate (pid : Nat) : Starters :=
  match s.entry with
  | some inode =>
      { s with
        procs := Function.update s.procs pid (some (.writeString inode))
        data := Function.update s.data inode [] }
  | none =>
      { s with
        procs := Function.update s.procs pid (some (.writeString s.nextInode))
        entry := some s.nextInode
        data := Function.update s.data s.nextInode []
        nextInode := s.nextInode + 1 }

/-- `write` at the start of a file. -/
def write (inode : Nat) (bytes : Bytes) : Starters :=
  { s with data := Function.update s.data inode (bytes ++ (s.data inode).drop bytes.length) }

/-- The next call of a process. -/
def call (pid : Nat) (failsAfter : Option Nat) : Option Starters :=
  match s.procs pid, failsAfter with
  | none, _ => none
  | some .stat, none => some (s.set pid (if s.entry.isSome then .readFile else .openFile))
  | some .stat, some _ => some (s.set pid .readFile)
  | some .readFile, none =>
      match s.entry with
      | none => some (s.set pid .done)
      | some inode => some (s.set pid (.read inode []))
  | some .readFile, some _ => some (s.set pid .done)
  | some (.read inode bytes), none =>
      match (s.data inode).drop bytes.length with
      | [] =>
          match atoi bytes with
          | none => some (s.set pid .done)
          | some originalPid => some (s.set pid (.signal originalPid))
      | more => some (s.set pid (.read inode (bytes ++ more)))
  | some (.read _ _), some _ => some (s.set pid .done)
  | some (.signal originalPid), _ => some (s.set pid (s.afterSignal originalPid))
  | some .openFile, none => some (s.truncate pid)
  | some .openFile, some _ => some (s.set pid .done)
  | some (.writeString inode), none => some ((s.write inode (decimal pid)).set pid .remove)
  | some (.writeString inode), some n => some ((s.write inode ((decimal pid).take n)).set pid .done)
  | some .remove, none => some { s.set pid .done with entry := none }
  | some .remove, some _ => some (s.set pid .done)
  | some .done, _ => none

/-- What a label does. A pid in use is not given away, and a `pid_t` has 32 bits. -/
def step : Label → Option Starters
  | .start pid =>
      if 0 < pid ∧ pid < 2 ^ 31 ∧ s.kill pid = false then some (s.set pid .stat) else none
  | .call pid failsAfter => s.call pid failsAfter
  | .exit pid =>
      if (s.procs pid).isSome then some { s with procs := Function.update s.procs pid none } else none
  | .other pid found => some { s with others := Function.update s.others pid found }

/-- The processes come to the file that is there, or to none. -/
def system (file : Option Bytes) (others : Int → Bool) : TransitionSystem Starters Label where
  start := ⟨fun _ => none, others, file.map fun _ => 0, fun _ => file.getD [], 1⟩
  step := step

/-- A process that has got nil from `writeServicePid` and has not yet done its `deletePidFile`. -/
def Serves (pid : Nat) : Prop := s.procs pid = some .remove

/-- At most one process serves, and then the file has its pid. -/
structure Exclusive : Prop where
  unique : ∀ p q, s.Serves p → s.Serves q → p = q
  pidFile : ∀ p, s.Serves p → s.pidFile = .content (decimal p)

/-- What allows to overwrite the file: there is none, or it has a number that is not the pid of a process. -/
def Overwritable : Prop :=
  match s.pidFile with
  | .missing => True
  | .unreadable => False
  | .content bytes => ∃ n, atoi bytes = some n ∧ (0 < n → s.kill n = false)

/-- The steps after which all is well: when a process opens the file, the file is still what allows to
overwrite it; and a process that has read -2 does not find that there is a process group 2. -/
def ChecksHold : Label → Prop
  | .call pid failsAfter =>
      (s.procs pid = some .openFile → failsAfter = none → s.Overwritable) ∧
        (s.procs pid = some (.signal (-2)) → s.kill (-2) = false)
  | _ => True

/-! ### What the file has while a process writes or serves -/

/-- What the file has for a process that goes on to write its pid, or has written it. -/
def Has (pid : Nat) : Starter → Prop
  | .writeString inode => s.entry = some inode ∧ s.data inode = []
  | .remove => s.pidFile = .content (decimal pid)
  | _ => True

def Owns (pid : Nat) : Prop := ∃ x, s.procs pid = some x ∧ x.Owns

/-- What holds in the runs whose steps are as above. -/
structure Invariant : Prop where
  pid : ∀ p, (s.procs p).isSome → 0 < p ∧ p < 2 ^ 31
  unique : ∀ p q, s.Owns p → s.Owns q → p = q
  has : ∀ p x, s.procs p = some x → s.Has p x

variable {s}

theorem Invariant.exclusive (h : s.Invariant) : s.Exclusive where
  unique p q hp hq := h.unique p q ⟨_, hp, trivial⟩ ⟨_, hq, trivial⟩
  pidFile p hp := h.has p .remove hp

/-- A number that `Atoi` can read back. -/
theorem atoi_decimal {n : Nat} (h : n < 2 ^ 63) : atoi (decimal n) = some (n : Int) := by
  have hdigits := Cxx.forall_isDigit_decimal n
  have hsign : Cxx.sign (decimal n) = (false, decimal n) := by
    cases hd : decimal n with
    | nil => rfl
    | cons d ds =>
        have hne := Cxx.ne_sign_of_isDigit (hdigits d (hd ▸ List.mem_cons_self))
        unfold Cxx.sign
        split
        · exact absurd (List.cons.inj ‹_›).1 hne.1
        · exact absurd (List.cons.inj ‹_›).1 hne.2
        · rfl
  have hall : (decimal n).all Cxx.isDigit := List.all_eq_true.mpr hdigits
  have hrange : Cxx.kLongMin ≤ (n : Int) ∧ (n : Int) ≤ Cxx.kLongMax := by
    unfold Cxx.kLongMin Cxx.kLongMax
    omega
  unfold atoi
  simp only [hsign, Cxx.decimal_ne_nil, hall, not_true_eq_false, or_self, if_false,
    Cxx.digitsValue_decimal, Bool.false_eq_true, if_pos hrange]

theorem pidFile_of_entry {inode : Nat} (h : s.entry = some inode) :
    s.pidFile = .content (s.data inode) := by
  rw [pidFile, h]

theorem write_data (inode : Nat) (bytes : Bytes) :
    (s.write inode bytes).data inode = bytes ++ (s.data inode).drop bytes.length :=
  Function.update_self ..

theorem kill_of_isSome {p : Nat} (hpos : 0 < p) (h : (s.procs p).isSome) : s.kill p = true := by
  rw [kill, Int.toNat_natCast, h, Bool.and_true, Bool.or_eq_true, decide_eq_true_eq]
  exact .inr (Int.natCast_pos.mpr hpos)

/-- A file that may be overwritten is nobody's own. -/
theorem Invariant.not_owns (h : s.Invariant) (hfile : s.Overwritable) (p : Nat) : ¬s.Owns p := by
  unfold Overwritable at hfile
  rintro ⟨x, hx, howns⟩
  cases x with
  | writeString inode =>
      obtain ⟨hentry, hempty⟩ : s.entry = some inode ∧ s.data inode = [] := h.has p _ hx
      rw [pidFile_of_entry hentry, hempty] at hfile
      obtain ⟨n, hn, -⟩ := hfile
      cases hn
  | remove =>
      have hcontent : s.pidFile = .content (decimal p) := h.has p _ hx
      have hsome : (s.procs p).isSome := hx ▸ rfl
      obtain ⟨hpos, hlt⟩ := h.pid p hsome
      rw [hcontent] at hfile
      obtain ⟨n, hn, hkill⟩ := hfile
      rw [atoi_decimal (by omega)] at hn
      obtain rfl := Option.some.inj hn
      rw [kill_of_isSome hpos hsome] at hkill
      cases hkill (Int.natCast_pos.mpr hpos)
  | _ => exact howns

/-! ### The steps -/

theorem set_procs (pid : Nat) (x : Starter) :
    (s.set pid x).procs = Function.update s.procs pid (some x) := rfl

/-- A process goes on, and the file is then its own or nobody's. -/
theorem Invariant.setOwner {t : Starters} (h : s.Invariant) {pid : Nat} {x : Starter}
    (hpid : 0 < pid ∧ pid < 2 ^ 31) (hprocs : t.procs = Function.update s.procs pid (some x))
    (hnone : ∀ q, s.Owns q → q = pid) (hhas : t.Has pid x) : t.Invariant := by
  have hother : ∀ q, q ≠ pid → t.procs q = s.procs q := fun q hq => by
    rw [hprocs, Function.update_of_ne hq]
  have howns : ∀ q, t.Owns q → q = pid := by
    rintro q ⟨y, hy, howns⟩
    by_contra hne
    exact hne (hnone q ⟨y, hother q hne ▸ hy, howns⟩)
  refine ⟨?_, fun p q hp hq => (howns p hp).trans (howns q hq).symm, ?_⟩
  · intro q hq
    by_cases hne : q = pid
    · exact hne ▸ hpid
    · exact h.pid q (hother q hne ▸ hq)
  · intro q y hy
    by_cases hne : q = pid
    · subst hne
      rw [hprocs, Function.update_self] at hy
      exact Option.some.inj hy ▸ hhas
    · have hnot : ¬y.Owns := fun hy' => hne (howns q ⟨y, hy, hy'⟩)
      cases y with
      | writeString inode => exact absurd trivial hnot
      | remove => exact absurd trivial hnot
      | _ => trivial

/-- A process goes on, the file stays as it is and is not the process's own. -/
theorem Invariant.setOther (h : s.Invariant) {pid : Nat} {x : Starter} (hpid : 0 < pid ∧ pid < 2 ^ 31)
    (hnot : ¬x.Owns) : (s.set pid x).Invariant := by
  have hcases : ∀ {q y}, (s.set pid x).procs q = some y → q = pid ∧ y = x ∨ s.procs q = some y := by
    intro q y hy
    by_cases hne : q = pid
    · subst hne
      rw [set_procs, Function.update_self] at hy
      exact .inl ⟨rfl, (Option.some.inj hy).symm⟩
    · rw [set_procs, Function.update_of_ne hne] at hy
      exact .inr hy
  have howns : ∀ q, (s.set pid x).Owns q → s.Owns q := by
    rintro q ⟨y, hy, hyowns⟩
    obtain ⟨-, rfl⟩ | hold := hcases hy
    · exact absurd hyowns hnot
    · exact ⟨y, hold, hyowns⟩
  refine ⟨?_, fun p q hp hq => h.unique p q (howns p hp) (howns q hq), ?_⟩
  · intro q hq
    obtain ⟨y, hy⟩ := Option.isSome_iff_exists.mp hq
    obtain ⟨rfl, -⟩ | hold := hcases hy
    · exact hpid
    · exact h.pid q (hold ▸ rfl)
  · intro q y hy
    obtain ⟨-, rfl⟩ | hold := hcases hy
    · cases y with
      | writeString inode => exact absurd trivial hnot
      | remove => exact absurd trivial hnot
      | _ => trivial
    · have hhas := h.has q y hold
      cases y with
      | _ => exact hhas

/-- A process that has ended owns nothing. -/
theorem Invariant.exit (h : s.Invariant) (pid : Nat) :
    Invariant { s with procs := Function.update s.procs pid none } := by
  have hold : ∀ {q y}, Function.update s.procs pid none q = some y → s.procs q = some y := by
    intro q y hy
    by_cases hne : q = pid
    · rw [hne, Function.update_self] at hy
      cases hy
    · rwa [Function.update_of_ne hne] at hy
  refine ⟨?_, ?_, ?_⟩
  · intro q hq
    obtain ⟨y, hy⟩ := Option.isSome_iff_exists.mp hq
    exact h.pid q (hold hy ▸ rfl)
  · rintro p q ⟨x, hx, hxowns⟩ ⟨y, hy, hyowns⟩
    exact h.unique p q ⟨x, hold hx, hxowns⟩ ⟨y, hold hy, hyowns⟩
  · intro q y hy
    have hhas := h.has q y (hold hy)
    cases y with
    | _ => exact hhas

/-- Opening the file leaves it empty and open. -/
theorem truncate_cases (pid : Nat) : ∃ inode,
    (s.truncate pid).procs = Function.update s.procs pid (some (.writeString inode)) ∧
      (s.truncate pid).entry = some inode ∧ (s.truncate pid).data inode = [] := by
  unfold truncate
  cases hentry : s.entry with
  | none => exact ⟨s.nextInode, rfl, rfl, Function.update_self ..⟩
  | some inode => exact ⟨inode, rfl, rfl, Function.update_self ..⟩

/-- After the signal a process owns the file only if it takes a process group for the code of an error. -/
theorem not_owns_afterSignal {originalPid : Int} (h : originalPid = -2 → s.kill (-2) = false) :
    ¬(s.afterSignal originalPid).Owns := by
  have hpid : (if s.found.signalZero originalPid then originalPid else -3) ≠ -2 := by
    split
    · rintro rfl
      rename_i hsignal
      rw [Found.signalZero, Bool.and_eq_true] at hsignal
      exact absurd (hsignal.2.symm.trans (h rfl)) nofun
    · decide
  unfold afterSignal
  generalize (if s.found.signalZero originalPid then originalPid else -3) = pid at hpid
  simp only [if_neg hpid]
  split
  · exact id
  · exact id

theorem Invariant.call (h : s.Invariant) {pid : Nat} {failsAfter : Option Nat}
    (hguard : s.ChecksHold (.call pid failsAfter)) {s' : Starters}
    (hstep : s.call pid failsAfter = some s') : s'.Invariant := by
  unfold Starters.call at hstep
  cases hx : s.procs pid with
  | none =>
      simp only [hx] at hstep
      cases hstep
  | some x =>
      have hpid := h.pid pid (hx ▸ rfl)
      cases x with
      | stat =>
          cases failsAfter with
          | none =>
              simp only [hx] at hstep
              cases hstep
              refine h.setOther hpid ?_
              split
              · exact id
              · exact id
          | some n =>
              simp only [hx] at hstep
              cases hstep
              exact h.setOther hpid id
      | readFile =>
          cases failsAfter with
          | none =>
              simp only [hx] at hstep
              split at hstep
              · cases hstep
                exact h.setOther hpid id
              · cases hstep
                exact h.setOther hpid id
          | some n =>
              simp only [hx] at hstep
              cases hstep
              exact h.setOther hpid id
      | read inode bytes =>
          cases failsAfter with
          | none =>
              simp only [hx] at hstep
              split at hstep
              · split at hstep
                · cases hstep
                  exact h.setOther hpid id
                · cases hstep
                  exact h.setOther hpid id
              · cases hstep
                exact h.setOther hpid id
          | some n =>
              simp only [hx] at hstep
              cases hstep
              exact h.setOther hpid id
      | signal originalPid =>
          simp only [hx] at hstep
          cases hstep
          refine h.setOther hpid (not_owns_afterSignal ?_)
          rintro rfl
          exact hguard.2 hx
      | openFile =>
          cases failsAfter with
          | none =>
              simp only [hx] at hstep
              cases hstep
              obtain ⟨inode, hprocs, hentry, hdata⟩ := s.truncate_cases pid
              exact h.setOwner hpid hprocs (fun q hq => absurd hq (h.not_owns (hguard.1 hx rfl) q))
                ⟨hentry, hdata⟩
          | some n =>
              simp only [hx] at hstep
              cases hstep
              exact h.setOther hpid id
      | writeString inode =>
          obtain ⟨hentry, hempty⟩ : s.entry = some inode ∧ s.data inode = [] := h.has pid _ hx
          have honly : ∀ q, s.Owns q → q = pid := fun q hq => h.unique q pid hq ⟨_, hx, trivial⟩
          cases failsAfter with
          | none =>
              simp only [hx] at hstep
              cases hstep
              refine h.setOwner hpid rfl honly ?_
              show (s.write inode (decimal pid)).pidFile = .content (decimal pid)
              rw [pidFile_of_entry (s := s.write inode (decimal pid)) hentry, write_data, hempty,
                List.drop_nil, List.append_nil]
          | some n =>
              simp only [hx] at hstep
              cases hstep
              exact h.setOwner hpid rfl honly trivial
      | remove =>
          have honly : ∀ q, s.Owns q → q = pid := fun q hq => h.unique q pid hq ⟨_, hx, trivial⟩
          cases failsAfter with
          | none =>
              simp only [hx] at hstep
              cases hstep
              exact h.setOwner hpid rfl honly trivial
          | some n =>
              simp only [hx] at hstep
              cases hstep
              exact h.setOther hpid id
      | done =>
          simp only [hx] at hstep
          cases hstep

theorem Invariant.step (h : s.Invariant) {label : Label} (hguard : s.ChecksHold label)
    {s' : Starters} (hstep : s.step label = some s') : s'.Invariant := by
  cases label with
  | start pid =>
      replace hstep : (if 0 < pid ∧ pid < 2 ^ 31 ∧ s.kill pid = false then some (s.set pid .stat)
        else none) = some s' := hstep
      split at hstep
      · rename_i hpid
        cases hstep
        exact h.setOther ⟨hpid.1, hpid.2.1⟩ id
      · cases hstep
  | call pid failsAfter => exact h.call hguard hstep
  | exit pid =>
      replace hstep : (if (s.procs pid).isSome then
        some { s with procs := Function.update s.procs pid none } else none) = some s' := hstep
      split at hstep
      · cases hstep
        exact h.exit pid
      · cases hstep
  | other pid found =>
      cases hstep
      exact ⟨h.pid, h.unique, fun p x hx => by have := h.has p x hx; cases x with | _ => exact this⟩

theorem Invariant.start (file : Option Bytes) (others : Int → Bool) :
    (system file others).start.Invariant :=
  ⟨nofun, fun _ _ ⟨_, hx, _⟩ => (nomatch hx), nofun⟩

/-- In every run whose steps all meet the guard, at most one process serves, and the file has its pid. -/
theorem exclusive_of_checksHold {file : Option Bytes} {others : Int → Bool}
    (hs : (system file others).ReachableBy ChecksHold s) : s.Exclusive := by
  have hinv : s.Invariant := hs.invariant (Invariant.start file others)
    fun _ _ _ _ ih hguard hstep => ih.step hguard hstep
  exact hinv.exclusive

theorem checksHold_call {pid : Nat} {failsAfter : Option Nat} {x : Starter} (hx : s.procs pid = some x)
    (hopen : x ≠ .openFile) (hsignal : x ≠ .signal (-2)) : s.ChecksHold (.call pid failsAfter) :=
  ⟨fun h => absurd (Option.some.inj (hx.symm.trans h)) hopen,
    fun h => absurd (Option.some.inj (hx.symm.trans h)) hsignal⟩

theorem checksHold_openFile {pid : Nat} {failsAfter : Option Nat} (hx : s.procs pid = some .openFile)
    (hfile : s.Overwritable) : s.ChecksHold (.call pid failsAfter) :=
  ⟨fun _ _ => hfile, fun h => nomatch Option.some.inj (hx.symm.trans h)⟩

/-- A process serves, and another one does not come to open the file. -/
theorem exclusive_of_checksHold_secondStarter :
    ∃ s, (system none fun _ => false).ReachableBy ChecksHold s ∧ s.procs 100 = some .remove ∧
      s.procs 200 = some .done ∧ s.Exclusive := by
  have hstat : (system none fun _ => false).ReachableBy ChecksHold _ :=
    .step (a := .start 100) .start trivial rfl
  have hopen := hstat.step (a := .call 100 none) (checksHold_call (x := .stat) rfl nofun nofun) rfl
  have hwrite := hopen.step (a := .call 100 none) (checksHold_openFile rfl (by exact trivial)) rfl
  have hserves := hwrite.step (a := .call 100 none)
    (checksHold_call (x := .writeString 1) rfl nofun nofun) rfl
  have hsecond := hserves.step (a := .start 200) (show ChecksHold _ (.start 200) from trivial) rfl
  have hfind := hsecond.step (a := .call 200 none) (checksHold_call (x := .stat) rfl nofun nofun) rfl
  have hread := hfind.step (a := .call 200 none) (checksHold_call (x := .readFile) rfl nofun nofun) rfl
  have hend := hread.step (a := .call 200 none) (checksHold_call (x := .read 1 []) rfl nofun nofun) rfl
  have hsignal := hend.step (a := .call 200 none)
    (checksHold_call (x := .read 1 (decimal 100)) rfl nofun nofun) rfl
  have hdone := hsignal.step (a := .call 200 none)
    (checksHold_call (x := .signal 100) rfl nofun (by decide)) rfl
  exact ⟨_, hdone, rfl, rfl, exclusive_of_checksHold hdone⟩

/-- Two processes look for the file before either of them has opened it. -/
def bothCheckFirst : List Label :=
  [.start 100, .start 200, .call 100 none, .call 200 none,
    .call 100 none, .call 100 none, .call 200 none, .call 200 none]

theorem not_exclusive_bothCheckFirst :
    ¬∀ file others s, (system file others).Reachable s → s.Exclusive := by
  intro hexclusive
  obtain ⟨s, hrun, hfirst, hsecond⟩ : ∃ s,
      (system none fun _ => false).run (system none fun _ => false).start bothCheckFirst = some s ∧
        s.procs 100 = some .remove ∧ s.procs 200 = some .remove := ⟨_, rfl, rfl, rfl⟩
  have hs := hexclusive _ _ s (TransitionSystem.reachable_of_run hrun)
  exact absurd (hs.unique 100 200 hfirst hsecond) (by decide)

/-! ### A process that is not interrupted -/

theorem found_set {pid : Nat} {x₀ : Starter} (hx : s.procs pid = some x₀) (x : Starter) :
    (s.set pid x).found = s.found := by
  have hkill : (s.set pid x).kill = s.kill := by
    funext p
    unfold kill
    rw [set_procs]
    by_cases hp : p.toNat = pid
    · rw [hp, Function.update_self, hx]
      rfl
    · rw [Function.update_of_ne hp]
      rfl
  show Found.mk s.pidFile (s.set pid x).kill = Found.mk s.pidFile s.kill
  rw [hkill]

/-- By calls of its own alone, none of which fails, the process comes to the end of `writeServicePid`, with
the file and the error of the function that finds all at one moment. -/
def EndsAs (s : Starters) (pid : Nat) (ret : PidFile × Option PidError) : Prop :=
  ∃ n file others s', (system file others).run s (List.replicate n (.call pid none)) = some s' ∧
    s'.pidFile = ret.1 ∧ s'.procs pid = some (if ret.2 = none then .remove else .done)

theorem EndsAs.call {pid : Nat} {ret : PidFile × Option PidError} {s₁ : Starters}
    (hstep : s.call pid none = some s₁) (h : s₁.EndsAs pid ret) : s.EndsAs pid ret := by
  obtain ⟨n, file, others, s', hrun, hend⟩ := h
  exact ⟨n + 1, file, others, s', TransitionSystem.run_cons.mpr ⟨s₁, hstep, hrun⟩, hend⟩

theorem endsAs_of_done {pid : Nat} {err : PidError} (hx : s.procs pid = some .done) :
    s.EndsAs pid (s.pidFile, some err) :=
  ⟨0, none, fun _ => false, s, rfl, rfl, hx⟩

theorem endsAs_of_remove {pid : Nat} (hx : s.procs pid = some .remove) : s.EndsAs pid (s.pidFile, none) :=
  ⟨0, none, fun _ => false, s, rfl, rfl, hx⟩

theorem endsAs_of_openFile {pid : Nat} (hx : s.procs pid = some .openFile) :
    s.EndsAs pid (.content (decimal pid), none) := by
  obtain ⟨inode, hprocs, hentry, hempty⟩ := s.truncate_cases pid
  have hopen : s.call pid none = some (s.truncate pid) := by
    unfold Starters.call
    simp only [hx]
  have hwriting : (s.truncate pid).procs pid = some (.writeString inode) := by
    rw [hprocs, Function.update_self]
  have hwrite : (s.truncate pid).call pid none =
      some (((s.truncate pid).write inode (decimal pid)).set pid .remove) := by
    unfold Starters.call
    simp only [hwriting]
  refine .call hopen (.call hwrite ?_)
  have hcontent : ((s.truncate pid).write inode (decimal pid)).pidFile = .content (decimal pid) := by
    rw [pidFile_of_entry (s := (s.truncate pid).write inode (decimal pid)) hentry, write_data, hempty,
      List.drop_nil, List.append_nil]
  exact hcontent ▸ endsAs_of_remove (s := Starters.set _ pid .remove) (Function.update_self ..)

/-- After its signal the process does what the function does with the pid it has read. -/
theorem endsAs_of_signal {pid : Nat} {originalPid : Int} {bytes : Bytes}
    (hx : s.procs pid = some (.signal originalPid)) (hfile : s.pidFile = .content bytes)
    (hatoi : atoi bytes = some originalPid) : s.EndsAs pid (writeServicePid s.found .succeed pid) := by
  have hcall : s.call pid none = some (s.set pid (s.afterSignal originalPid)) := by
    unfold Starters.call
    simp only [hx]
  have hset : ∀ {x}, (s.set pid x).procs pid = some x := Function.update_self ..
  refine .call hcall ?_
  unfold writeServicePid findServicePid afterSignal
  rw [show s.found.pidFile = .content bytes from hfile]
  simp only [hatoi]
  cases hsignal : s.found.signalZero originalPid with
  | false => exact endsAs_of_openFile hset
  | true =>
      simp only [if_true]
      by_cases hgroup : originalPid = -2
      · simp only [if_pos hgroup]
        exact hfile ▸ endsAs_of_remove hset
      · simp only [if_neg hgroup]
        by_cases hcode : originalPid = -1 ∨ originalPid = -3
        · simp only [if_pos hcode]
          exact endsAs_of_openFile hset
        · simp only [if_neg hcode, ← hfile]
          exact endsAs_of_done hset

/-- The whole file read, `Atoi` decides. -/
theorem endsAs_of_read {pid inode : Nat} (hx : s.procs pid = some (.read inode (s.data inode)))
    (hentry : s.entry = some inode) : s.EndsAs pid (writeServicePid s.found .succeed pid) := by
  have hfile : s.pidFile = .content (s.data inode) := pidFile_of_entry hentry
  have hset : ∀ {x}, (s.set pid x).procs pid = some x := Function.update_self ..
  cases hatoi : atoi (s.data inode) with
  | none =>
      have hcall : s.call pid none = some (s.set pid .done) := by
        unfold Starters.call
        simp only [hx, List.drop_length, hatoi]
      have hret : writeServicePid s.found .succeed pid = (s.pidFile, some .atoi) := by
        unfold writeServicePid findServicePid
        rw [show s.found.pidFile = .content (s.data inode) from hfile]
        simp only [hatoi, if_true, hfile]
      rw [hret]
      exact .call hcall (endsAs_of_done hset)
  | some originalPid =>
      have hcall : s.call pid none = some (s.set pid (.signal originalPid)) := by
        unfold Starters.call
        simp only [hx, List.drop_length, hatoi]
      refine .call hcall ?_
      rw [← found_set hx (.signal originalPid)]
      exact endsAs_of_signal hset hfile hatoi

/-- A file that is not empty is read twice, the second time to find its end. -/
theorem endsAs_of_readFile {pid inode : Nat} (hx : s.procs pid = some .readFile)
    (hentry : s.entry = some inode) : s.EndsAs pid (writeServicePid s.found .succeed pid) := by
  have hread : s.call pid none = some (s.set pid (.read inode [])) := by
    unfold Starters.call
    simp only [hx, hentry]
  have hset : (s.set pid (.read inode [])).procs pid = some (.read inode []) := Function.update_self ..
  refine .call hread ?_
  rw [← found_set hx (.read inode [])]
  cases hdata : s.data inode with
  | nil => exact endsAs_of_read (by rw [hset]; exact congrArg (some <| Starter.read inode ·) hdata.symm) hentry
  | cons b bs =>
      have hmore : (s.set pid (.read inode [])).call pid none =
          some ((s.set pid (.read inode [])).set pid (.read inode (s.data inode))) := by
        unfold Starters.call
        simp only [hset]
        rw [show (s.set pid (.read inode [])).data inode = b :: bs from hdata, hdata]
        rfl
      refine .call hmore ?_
      rw [← found_set hset (.read inode (s.data inode))]
      exact endsAs_of_read (Function.update_self ..) hentry

/-- A process whose calls nothing interrupts does what `writeServicePid` does at one moment. -/
theorem endsAs_writeServicePid {pid : Nat} (hx : s.procs pid = some .stat) :
    s.EndsAs pid (writeServicePid s.found .succeed pid) := by
  have hset : ∀ {x}, (s.set pid x).procs pid = some x := Function.update_self ..
  cases hentry : s.entry with
  | none =>
      have hstat : s.call pid none = some (s.set pid .openFile) := by
        unfold Starters.call
        simp only [hx, hentry]
        rfl
      have hret : writeServicePid s.found .succeed pid = (.content (decimal pid), none) := by
        have hfile : s.found.pidFile = .missing := by
          show s.pidFile = .missing
          rw [pidFile, hentry]
        unfold writeServicePid findServicePid
        rw [hfile]
        rfl
      rw [hret]
      exact .call hstat (endsAs_of_openFile hset)
  | some inode =>
      have hstat : s.call pid none = some (s.set pid .readFile) := by
        unfold Starters.call
        simp only [hx, hentry]
        rfl
      refine .call hstat ?_
      rw [← found_set hx .readFile]
      exact endsAs_of_readFile hset hentry

end Starters

end ToyBox.App
