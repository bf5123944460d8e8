import ToyBox.App.Control

/-! The two checks of the pid file: the launcher asks only whether the file is there, the daemon reads it and
looks for its process. -/

namespace ToyBox.App

/-- The handler ends the process because of the pid file. -/
def StartRefused (handler : Process Unit) : Prop := (handler.run.run []).1 = .error .pidFileExists

/-- The file holds a number for which no process is running. -/
def Found.Stale (found : Found) : Prop :=
  ∃ bytes pid, found.pidFile = .content bytes ∧ atoi bytes = some pid ∧ found.signalZero pid = false

/-- The launcher is refused exactly when the daemon would fail with the file that the launcher finds, and a
file without its process keeps nobody from a start or a restart. -/
structure ChecksAgree (env : Environ) (seen : Seen) (calls : WriteCalls) (getpid : Nat) : Prop where
  agree : StartRefused (controlStartHandler env seen) ↔ (writeServicePid seen.start calls getpid).2.isSome
  stale : seen.start.Stale →
    ¬StartRefused (controlStartHandler env seen) ∧ ¬StartRefused (controlRestartHandler env seen)

/-- What the file must be like for the checks to agree. A running process group whose number is that of the
process 2 or 3 is taken by `writeServicePid` for one of the codes -2 and -3 of `findServicePid`. -/
def AgreeingFile (found : Found) (calls : WriteCalls) : Prop :=
  match found.pidFile with
  | .missing => calls = .succeed
  | .unreadable => True
  | .content bytes => ∀ pid, atoi bytes = some pid →
      found.signalZero pid = true ∧ pid ≠ -2 ∧ (pid = -3 → calls ≠ .succeed)

theorem startRefused_controlStartHandler (env : Environ) (seen : Seen) :
    StartRefused (controlStartHandler env seen) ↔ Refuses env seen := by
  rw [StartRefused, controlStartHandler_run]
  by_cases hrefuses : Refuses env seen <;> simp [hrefuses]

/-- What `controlStopHandler` has done makes no difference. -/
theorem startRefused_controlRestartHandler (env : Environ) (seen : Seen) :
    StartRefused (controlRestartHandler env seen) ↔ Refuses env seen := by
  obtain ⟨stops, -, hstop⟩ := controlStopHandler_run env seen []
  rw [StartRefused, controlRestartHandler, Process.run_bind, hstop]
  dsimp only
  rw [controlStartHandler_run]
  by_cases hrefuses : Refuses env seen <;> simp [hrefuses]

section Daemon

variable {found : Found} (calls : WriteCalls) (getpid : Nat)

/-- Once it gets to write the file, the daemon fails with the writing only. -/
theorem isSome_writeServicePid_of_writes {ret : Int} {err : Option PidError}
    (hfind : findServicePid found = (ret, err)) (h : ret = -1 ∨ ret = -3) :
    (writeServicePid found calls getpid).2.isSome ↔ calls ≠ .succeed := by
  have hread : ret ≠ -2 := by omega
  simp only [writeServicePid, hfind]
  rw [if_neg hread, if_pos h]
  cases calls <;> simp

theorem isSome_writeServicePid_of_found {pid : Int} {err : Option PidError}
    (hfind : findServicePid found = (pid, err)) (h2 : pid ≠ -2) (h : ¬(pid = -1 ∨ pid = -3)) :
    (writeServicePid found calls getpid).2.isSome := by
  simp only [writeServicePid, hfind]
  rw [if_neg h2, if_neg h]
  rfl

/-- What the daemon makes of a number in the file. -/
theorem isSome_writeServicePid_of_atoi {bytes : Bytes} {pid : Int} (hfile : found.pidFile = .content bytes)
    (hatoi : atoi bytes = some pid) :
    (writeServicePid found calls getpid).2.isSome ↔
      if found.signalZero pid = true ∧ pid ≠ -3 then pid ≠ -2 else calls ≠ .succeed := by
  have hfind : findServicePid found =
      if found.signalZero pid then (pid, none) else (-3, some (.pidNotExist pid)) := by
    simp [findServicePid, hfile, hatoi]
  cases halive : found.signalZero pid with
  | false =>
      rw [halive, if_neg Bool.false_ne_true] at hfind
      rw [if_neg (by simp)]
      exact isSome_writeServicePid_of_writes calls getpid hfind (.inr rfl)
  | true =>
      rw [halive, if_pos rfl] at hfind
      by_cases h3 : pid = -3
      · rw [if_neg (by simp [h3])]
        exact isSome_writeServicePid_of_writes calls getpid hfind (.inr h3)
      · rw [if_pos ⟨rfl, h3⟩]
        by_cases h2 : pid = -2
        · simp [writeServicePid, hfind, h2]
        · -- a signal to -1 is not sent, so that this is no error code
          have h1 : pid ≠ -1 := by
            rintro rfl
            simp [Found.signalZero] at halive
          exact iff_of_true
            (isSome_writeServicePid_of_found calls getpid hfind h2 (not_or.mpr ⟨h1, h3⟩)) h2

theorem isSome_writeServicePid_of_content {bytes : Bytes} (hfile : found.pidFile = .content bytes) :
    (writeServicePid found calls getpid).2.isSome ↔ ∀ pid, atoi bytes = some pid →
      if found.signalZero pid = true ∧ pid ≠ -3 then pid ≠ -2 else calls ≠ .succeed := by
  cases hatoi : atoi bytes with
  | none => simp [writeServicePid, findServicePid, hfile, hatoi]
  | some pid =>
      rw [isSome_writeServicePid_of_atoi calls getpid hfile hatoi]
      exact ⟨fun h _ heq => Option.some.inj heq ▸ h, fun h => h pid rfl⟩

end Daemon

theorem not_stale_iff_of_content {found : Found} {bytes : Bytes} (hfile : found.pidFile = .content bytes) :
    ¬found.Stale ↔ ∀ pid, atoi bytes = some pid → found.signalZero pid = true := by
  constructor
  · intro hstale pid hatoi
    by_contra hdead
    exact hstale ⟨bytes, pid, hfile, hatoi, Bool.not_eq_true _ ▸ hdead⟩
  · rintro halive ⟨bytes', pid, hcontent, hatoi, hdead⟩
    obtain rfl := PidFile.content.inj (hfile.symm.trans hcontent)
    rw [halive pid hatoi] at hdead
    cases hdead

section Launcher

variable {env : Environ} (seen : Seen) (calls : WriteCalls) (getpid : Nat)

/-- A launcher that finds a file refuses, and is right if the daemon fails and the file is not stale. -/
theorem checksAgree_iff_of_exists (henv : isDaemon env = false) (hexist : isPidFileExist seen.start = true) :
    ChecksAgree env seen calls getpid ↔
      (writeServicePid seen.start calls getpid).2.isSome ∧ ¬seen.start.Stale := by
  have hrefused := (startRefused_controlStartHandler env seen).mpr ⟨henv, hexist⟩
  constructor
  · intro h
    exact ⟨h.agree.mp hrefused, fun hstale => (h.stale hstale).1 hrefused⟩
  · rintro ⟨hwrite, hstale⟩
    exact ⟨iff_of_true hrefused hwrite, fun h => absurd h hstale⟩

theorem checksAgree_iff_of_not_exists (hexist : isPidFileExist seen.start = false) :
    ChecksAgree env seen calls getpid ↔ ¬(writeServicePid seen.start calls getpid).2.isSome := by
  have hrefuses : ¬Refuses env seen := fun h => Bool.false_ne_true (hexist.symm.trans h.2)
  have hstart := (startRefused_controlStartHandler env seen).not.mpr hrefuses
  have hrestart := (startRefused_controlRestartHandler env seen).not.mpr hrefuses
  exact ⟨fun h hwrite => hstart (h.agree.mpr hwrite), fun hwrite =>
    ⟨iff_of_false hstart hwrite, fun _ => ⟨hstart, hrestart⟩⟩⟩

end Launcher

/-- A launcher and the daemon agree about a pid file exactly when there is none, it cannot be read, there is
no number in it, or there is a running process with the number in it. -/
theorem checksAgree_iff {env : Environ} (henv : isDaemon env = false) (seen : Seen) (calls : WriteCalls)
    (getpid : Nat) : ChecksAgree env seen calls getpid ↔ AgreeingFile seen.start calls := by
  unfold AgreeingFile
  cases hfile : seen.start.pidFile with
  | missing =>
      have hexist : isPidFileExist seen.start = false := by simp [isPidFileExist, hfile]
      have hfind : findServicePid seen.start = (-1, some .notExist) := by simp [findServicePid, hfile]
      rw [checksAgree_iff_of_not_exists seen calls getpid hexist,
        isSome_writeServicePid_of_writes calls getpid hfind (.inl rfl), not_not]
  | unreadable =>
      have hexist : isPidFileExist seen.start = true := by simp [isPidFileExist, hfile]
      have hwrite : (writeServicePid seen.start calls getpid).2.isSome := by
        simp [writeServicePid, findServicePid, hfile]
      refine (checksAgree_iff_of_exists seen calls getpid henv hexist).trans (iff_of_true ⟨hwrite, ?_⟩ trivial)
      rintro ⟨bytes, pid, hcontent, -⟩
      cases hfile.symm.trans hcontent
  | content bytes =>
      have hexist : isPidFileExist seen.start = true := by simp [isPidFileExist, hfile]
      rw [checksAgree_iff_of_exists seen calls getpid henv hexist,
        isSome_writeServicePid_of_content calls getpid hfile, not_stale_iff_of_content hfile, ← forall₂_and]
      refine forall₂_congr fun pid _ => ?_
      -- a running process: the file is written over only if its number is -3
      by_cases halive : seen.start.signalZero pid = true
      · by_cases h3 : pid = -3
        · subst h3
          simp [halive]
        · simp [halive, h3]
      · simp [halive]

/-- A running service: both checks refuse. -/
theorem checksAgree_running :
    ChecksAgree [] { nothingFound with start := { pidFile := .content (ascii "7"), kill := fun _ => true } }
      .succeed 100 := by
  refine (checksAgree_iff rfl _ _ _).mpr fun pid hpid => ?_
  obtain rfl : (7 : Int) = pid := Option.some.inj hpid
  exact ⟨rfl, by decide, fun h3 => absurd h3 (by decide)⟩

/-- What is left after a crash: the file of a dead process. The daemon would start; the launcher refuses, to
restart as well. -/
theorem not_checksAgree_stale :
    let seen := { nothingFound with
      stop := { pidFile := .content (ascii "7"), kill := fun _ => false }
      start := { pidFile := .content (ascii "7"), kill := fun _ => false } }
    (writeServicePid seen.start .succeed 100).2 = none ∧
      StartRefused (controlStartHandler [] seen) ∧ StartRefused (controlRestartHandler [] seen) ∧
      ¬∀ env seen getpid, isDaemon env = false → ChecksAgree env seen .succeed getpid := by
  refine ⟨by decide, rfl, rfl, fun h => ?_⟩
  have hstart := (h [] { nothingFound with start := { pidFile := .content (ascii "7"), kill := fun _ => false } }
    100 rfl).agree.mp rfl
  exact absurd hstart (by decide)

end ToyBox.App
