import ToyBox.App.PidFile

/-! The control commands of a service, and the chain of processes that `--control start` sets off. A process
runs the action of the service with the arguments of the one that started it, in an environment to which
that one has added `DAEMON`. Only the handler of the command asks for the pid file before it starts a
process; that the variable is there does not keep it from doing so. -/

namespace ToyBox.App

/-- The entries of an environment, `key=value` each. -/
abbrev Environ := List Bytes

/-- The key of an entry. -/
def entryKey (entry : Bytes) : Option Bytes :=
  if 61 ∈ entry then some (entry.takeWhile (· ≠ 61)) else none

/-- `os.LookupEnv`: the first entry with the key counts. -/
def lookupEnv (env : Environ) (key : Bytes) : Option Bytes :=
  if key = [] then none
  else (env.find? fun entry => entryKey entry = some key).map fun entry => entry.drop (key.length + 1)

/-- The entries whose keys are not among `seen`, each key once. -/
def copyenv (seen : List Bytes) : Environ → Environ
  | [] => []
  | entry :: rest =>
      match entryKey entry with
      | none => if entry = [] then copyenv seen rest else entry :: copyenv seen rest
      | some key => if key ∈ seen then copyenv seen rest else entry :: copyenv (key :: seen) rest

/-- `os.Environ`. -/
def environ (env : Environ) : Environ := copyenv [] env

def daemonKey : Bytes := ascii "DAEMON"

def isDaemon (env : Environ) : Bool := (lookupEnv env daemonKey).isSome

/-- The flags that the action reads. -/
structure CommandLine where
  help : Bool
  info : Bool
  control : Bytes

/-- What the calls of a process find, at the moments when it makes them. -/
structure Seen where
  /-- In `controlStopHandler`. -/
  stop : Found
  /-- In `controlStartHandler`. -/
  start : Found
  /-- `ForkExec` starts a process. -/
  forkExec : Bool
  /-- In `writeServicePid`. -/
  write : Found
  writeCalls : WriteCalls
  getpid : Nat

/-- What a process does that others can see. -/
inductive Call
  | interrupt (pid : Int)
  | forkExec (env : Environ)
  | writeServicePid (err : Option PidError)
  | runFunc
  | deletePidFile

/-- The calls of `os.Exit`. -/
inductive Exit
  | pidFileExists
  | started
  | pidError
  deriving DecidableEq

/-- A process may exit; what it has done is written down. -/
abbrev Process := ExceptT Exit (StateM (List Call))

def Process.call (c : Call) : Process Unit := modify (· ++ [c])

def Process.exit (e : Exit) : Process Unit := throw e

/-- The environment that `controlStartHandler` gives to `ForkExec`. -/
def daemonEnv (env : Environ) : Environ := environ env ++ [ascii "DAEMON=true"]

def controlStartHandler (env : Environ) (seen : Seen) : Process Unit := do
  if !isDaemon env then
    if isPidFileExist seen.start then
      Process.exit .pidFileExists
  Process.call (.forkExec (daemonEnv env))
  Process.exit .started

def controlStopHandler (env : Environ) (seen : Seen) : Process Unit := do
  if !isDaemon env then
    match findServicePid seen.stop with
    | (_, some _) => return
    | (runningPid, none) => Process.call (.interrupt runningPid)

def controlRestartHandler (env : Environ) (seen : Seen) : Process Unit := do
  controlStopHandler env seen
  controlStartHandler env seen

/-- The action of the service behind the control commands: the pid file of a daemon, and `RunFunc`. -/
def runService (c : CommandLine) (env : Environ) (seen : Seen) : Process Unit := do
  let background := isDaemon env && (c.control = ascii "start" || c.control = ascii "restart")
  if background then
    let err := (writeServicePid seen.write seen.writeCalls seen.getpid).2
    Process.call (.writeServicePid err)
    if err.isSome then
      Process.exit .pidError
  Process.call .runFunc
  -- the deferred call, once `wait` has returned
  if background then
    Process.call .deletePidFile

/-- The action of the service. -/
def runFuncWrapper (c : CommandLine) (env : Environ) (seen : Seen) : Process Unit := do
  if c.help then
    return
  if c.info then
    return
  if c.control ≠ [] then
    if c.control = ascii "stop" then
      controlStopHandler env seen
      return
    else if c.control = ascii "start" then
      controlStartHandler env seen
    else if c.control = ascii "restart" then
      controlRestartHandler env seen
    else
      return
  runService c env seen

/-- How the process of an environment ends. -/
def exitOf (c : CommandLine) (env : Environ) (seen : Seen) : Except Exit Unit :=
  ((runFuncWrapper c env seen).run.run []).1

/-- What the process of an environment does. -/
def callsOf (c : CommandLine) (env : Environ) (seen : Seen) : List Call :=
  ((runFuncWrapper c env seen).run.run []).2

/-- The environment a call gives to a process. -/
def Call.forkEnv : Call → Option Environ
  | .forkExec env => some env
  | _ => none

/-- The environment of the process that the one of `env` starts. -/
def childOf (c : CommandLine) (env : Environ) (seen : Seen) : Option Environ :=
  if seen.forkExec then (callsOf c env seen).findSome? Call.forkEnv else none

/-- The environment of the n-th process of the chain, if there is one. -/
def chain (c : CommandLine) (env : Environ) (seen : Nat → Seen) : Nat → Option Environ
  | 0 => some env
  | n + 1 => (chain c env seen n).bind fun env => childOf c env (seen n)

/-- The chain ends. No daemon starts another process, and unless the pid file keeps the launcher from it,
the last process is the only daemon, and gets to write the pid file and to run the service. -/
structure Terminates (c : CommandLine) (env : Environ) (seen : Nat → Seen) : Prop where
  finite : ∃ n, chain c env seen n = none
  daemonStarts : ∀ n e, chain c env seen n = some e → isDaemon e →
    ∀ child, Call.forkExec child ∉ callsOf c e (seen n)
  oneDaemon : exitOf c env (seen 0) ≠ .error .pidFileExists →
    ∃ n e, chain c env seen n = some e ∧ chain c env seen (n + 1) = none ∧ isDaemon e ∧
      (∀ m e', chain c env seen m = some e' → isDaemon e' → m = n) ∧
      ∃ err, Call.writeServicePid err ∈ callsOf c e (seen n) ∧
        (err = none → Call.runFunc ∈ callsOf c e (seen n))

/-- The command line starts the service in the background. -/
def CommandLine.Starts (c : CommandLine) : Prop :=
  c.control = ascii "start" ∨ c.control = ascii "restart"

/-- The launcher finds a pid file. -/
def Refuses (env : Environ) (seen : Seen) : Prop :=
  isDaemon env = false ∧ isPidFileExist seen.start = true

instance (env : Environ) (seen : Seen) : Decidable (Refuses env seen) :=
  inferInstanceAs (Decidable (_ ∧ _))

/-- The only calls of `controlStopHandler`. -/
def Call.IsInterrupt (call : Call) : Prop := ∃ pid, call = .interrupt pid

/-! ### What a process does -/

/-- What follows a call of a handler runs only if the handler has not exited. -/
theorem Process.run_bind {α β : Type} (x : Process α) (f : α → Process β) (done : List Call) :
    (x >>= f).run.run done =
      match x.run.run done with
      | (.ok a, calls) => (f a).run.run calls
      | (.error e, calls) => (.error e, calls) := by
  rw [ExceptT.run_bind, StateT.run_bind]
  rcases x.run.run done with ⟨e | a, calls⟩ <;> rfl

theorem controlStartHandler_run (env : Environ) (seen : Seen) (done : List Call) :
    (controlStartHandler env seen).run.run done =
      if Refuses env seen then (.error .pidFileExists, done)
      else (.error .started, done ++ [.forkExec (daemonEnv env)]) := by
  unfold controlStartHandler
  by_cases hrefuses : Refuses env seen
  · rw [if_pos hrefuses, hrefuses.1, hrefuses.2]
    rfl
  · rw [if_neg hrefuses]
    cases hdaemon : isDaemon env with
    | true => rfl
    | false =>
        have hfile : isPidFileExist seen.start = false := by simpa [Refuses, hdaemon] using hrefuses
        rw [hfile]
        rfl

theorem controlStopHandler_run (env : Environ) (seen : Seen) (done : List Call) :
    ∃ stops, (∀ call ∈ stops, Call.IsInterrupt call) ∧
      (controlStopHandler env seen).run.run done = (.ok (), done ++ stops) := by
  unfold controlStopHandler
  cases isDaemon env with
  | true => exact ⟨[], List.forall_mem_nil _, (List.append_nil done).symm ▸ rfl⟩
  | false =>
      obtain ⟨pid, err⟩ := findServicePid seen.stop
      cases err with
      | some err => exact ⟨[], List.forall_mem_nil _, (List.append_nil done).symm ▸ rfl⟩
      | none => exact ⟨[.interrupt pid], by simp [Call.IsInterrupt], rfl⟩

theorem runFuncWrapper_start {c : CommandLine} (hhelp : c.help = false) (hinfo : c.info = false)
    (h : c.control = ascii "start") (env : Environ) (seen : Seen) :
    runFuncWrapper c env seen = controlStartHandler env seen >>= fun _ => runService c env seen := by
  unfold runFuncWrapper
  rw [hhelp, hinfo, h]
  rfl

theorem runFuncWrapper_restart {c : CommandLine} (hhelp : c.help = false) (hinfo : c.info = false)
    (h : c.control = ascii "restart") (env : Environ) (seen : Seen) :
    runFuncWrapper c env seen = controlRestartHandler env seen >>= fun _ => runService c env seen := by
  unfold runFuncWrapper
  rw [hhelp, hinfo, h]
  rfl

/-- What comes behind `controlStartHandler` is never reached. -/
theorem controlStartHandler_bind_run {β : Type} (f : Unit → Process β) (env : Environ) (seen : Seen)
    (done : List Call) :
    (controlStartHandler env seen >>= f).run.run done =
      if Refuses env seen then (.error .pidFileExists, done)
      else (.error .started, done ++ [.forkExec (daemonEnv env)]) := by
  rw [Process.run_bind, controlStartHandler_run]
  by_cases hrefuses : Refuses env seen
  · rw [if_pos hrefuses, if_pos hrefuses]
  · rw [if_neg hrefuses, if_neg hrefuses]

/-- A process that is told to start or restart the service does not get beyond `controlStartHandler`, daemon
or not. -/
theorem runFuncWrapper_run {c : CommandLine} (hhelp : c.help = false) (hinfo : c.info = false)
    (hstarts : c.Starts) (env : Environ) (seen : Seen) :
    ∃ stops, (∀ call ∈ stops, Call.IsInterrupt call) ∧
      (runFuncWrapper c env seen).run.run [] =
        if Refuses env seen then (.error .pidFileExists, stops)
        else (.error .started, stops ++ [.forkExec (daemonEnv env)]) := by
  cases hstarts with
  | inl hstart =>
      refine ⟨[], List.forall_mem_nil _, ?_⟩
      rw [runFuncWrapper_start hhelp hinfo hstart]
      exact controlStartHandler_bind_run _ env seen []
  | inr hrestart =>
      obtain ⟨stops, hstops, hstop⟩ := controlStopHandler_run env seen []
      refine ⟨stops, hstops, ?_⟩
      rw [runFuncWrapper_restart hhelp hinfo hrestart, controlRestartHandler, bind_assoc, Process.run_bind,
        hstop]
      exact controlStartHandler_bind_run _ env seen stops

theorem runFuncWrapper_run_of_prints {c : CommandLine} (h : c.help = true ∨ c.info = true) (env : Environ)
    (seen : Seen) : (runFuncWrapper c env seen).run.run [] = (.ok (), []) := by
  unfold runFuncWrapper
  cases hhelp : c.help with
  | true => rfl
  | false =>
      have hinfo : c.info = true := by simpa [hhelp] using h
      rw [hinfo]
      rfl

section Starts

variable {c : CommandLine} (hhelp : c.help = false) (hinfo : c.info = false) (hstarts : c.Starts)

include hhelp hinfo hstarts

theorem exitOf_eq_refused_iff (env : Environ) (seen : Seen) :
    exitOf c env seen = .error .pidFileExists ↔ Refuses env seen := by
  obtain ⟨stops, -, hrun⟩ := runFuncWrapper_run hhelp hinfo hstarts env seen
  unfold exitOf
  rw [hrun]
  by_cases hrefuses : Refuses env seen <;> simp [hrefuses]

/-- The pid file is never written. -/
theorem writeServicePid_not_mem_callsOf (env : Environ) (seen : Seen) (err : Option PidError) :
    Call.writeServicePid err ∉ callsOf c env seen := by
  obtain ⟨stops, hstops, hrun⟩ := runFuncWrapper_run hhelp hinfo hstarts env seen
  have hnot : Call.writeServicePid err ∉ stops := by
    intro hmem
    obtain ⟨pid, hpid⟩ := hstops _ hmem
    cases hpid
  unfold callsOf
  rw [hrun]
  by_cases hrefuses : Refuses env seen <;> simp [hrefuses, hnot]

theorem childOf_eq (env : Environ) (seen : Seen) :
    childOf c env seen =
      if seen.forkExec = true ∧ ¬Refuses env seen then some (daemonEnv env) else none := by
  obtain ⟨stops, hstops, hrun⟩ := runFuncWrapper_run hhelp hinfo hstarts env seen
  have hnone : stops.findSome? Call.forkEnv = none := by
    rw [List.findSome?_eq_none_iff]
    intro call hmem
    obtain ⟨pid, rfl⟩ := hstops call hmem
    rfl
  unfold childOf callsOf
  rw [hrun]
  by_cases hrefuses : Refuses env seen
  · simp [hrefuses, hnone]
  · simp [hrefuses, List.findSome?_append, hnone, Call.forkEnv]

end Starts

/-! ### The chain -/

theorem isDaemon_daemonEnv (env : Environ) : isDaemon (daemonEnv env) = true := by
  have hkey : ¬daemonKey = [] := by decide
  have hentry : entryKey (ascii "DAEMON=true") = some daemonKey := by decide
  simp only [isDaemon, lookupEnv, if_neg hkey, Option.isSome_map, List.find?_isSome]
  exact ⟨ascii "DAEMON=true", by simp [daemonEnv], by simp [hentry]⟩

section Chain

variable {c : CommandLine} {env : Environ} {seen : Nat → Seen}

/-- Every process of the chain is a daemon, the launcher apart. -/
theorem isDaemon_of_chain_succ (hhelp : c.help = false) (hinfo : c.info = false) (hstarts : c.Starts)
    {n : Nat} {e : Environ} (h : chain c env seen (n + 1) = some e) : isDaemon e = true := by
  obtain ⟨e', -, hchild⟩ := Option.bind_eq_some_iff.mp h
  rw [childOf_eq hhelp hinfo hstarts, Option.ite_none_right_eq_some] at hchild
  obtain ⟨-, hdaemon⟩ := hchild
  cases hdaemon
  exact isDaemon_daemonEnv e'

theorem chain_one_of_refuses (hhelp : c.help = false) (hinfo : c.info = false) (hstarts : c.Starts)
    (hrefuses : Refuses env (seen 0)) (n : Nat) : chain c env seen (n + 1) = none := by
  induction n with
  | zero =>
      have hchild := childOf_eq hhelp hinfo hstarts env (seen 0)
      rw [if_neg (fun h => h.2 hrefuses)] at hchild
      exact hchild
  | succ n ih =>
      rw [chain, ih]
      rfl

/-- If the launcher is not refused, nothing but a `ForkExec` that fails ends the chain. -/
theorem isSome_chain_iff (hhelp : c.help = false) (hinfo : c.info = false) (hstarts : c.Starts)
    (hrefuses : ¬Refuses env (seen 0)) (n : Nat) :
    (chain c env seen n).isSome ↔ ∀ m < n, (seen m).forkExec = true := by
  induction n with
  | zero => simp [chain]
  | succ n ih =>
      have hlast : ∀ e, chain c env seen n = some e → ¬Refuses e (seen n) := by
        intro e he
        cases n with
        | zero =>
            cases he
            exact hrefuses
        | succ n =>
            intro hlater
            have hdaemon := isDaemon_of_chain_succ hhelp hinfo hstarts he
            rw [hlater.1] at hdaemon
            cases hdaemon
      rw [chain, Nat.forall_lt_succ_right, ← ih]
      cases he : chain c env seen n with
      | none => simp
      | some e =>
          simp [childOf_eq hhelp hinfo hstarts, hlast e he]

/-- Without a refusal, a process must write the pid file. -/
theorem not_terminates_of_never (hexit : exitOf c env (seen 0) ≠ .error .pidFileExists)
    (hnever : ∀ e seen err, Call.writeServicePid err ∉ callsOf c e seen) : ¬Terminates c env seen := by
  intro h
  obtain ⟨n, e, -, -, -, -, err, hwrite, -⟩ := h.oneDaemon hexit
  exact hnever e (seen n) err hwrite

end Chain

/-- The chain of `--control start` or `restart` ends as it should exactly if the action is not one of the
flags that only print something, and the launcher is no daemon and finds a pid file. -/
theorem terminates_iff (c : CommandLine) (env : Environ) (seen : Nat → Seen) (hstarts : c.Starts) :
    Terminates c env seen ↔ c.help = false ∧ c.info = false ∧ Refuses env (seen 0) := by
  constructor
  · intro h
    cases hhelp : c.help with
    | true =>
        have hprints := runFuncWrapper_run_of_prints (.inl hhelp)
        refine absurd h (not_terminates_of_never (by simp [exitOf, hprints]) ?_)
        simp [callsOf, hprints]
    | false =>
        cases hinfo : c.info with
        | true =>
            have hprints := runFuncWrapper_run_of_prints (.inr hinfo)
            refine absurd h (not_terminates_of_never (by simp [exitOf, hprints]) ?_)
            simp [callsOf, hprints]
        | false =>
            by_contra hrefuses
            have hexit : exitOf c env (seen 0) ≠ .error .pidFileExists :=
              fun hexit => hrefuses ⟨rfl, rfl, (exitOf_eq_refused_iff hhelp hinfo hstarts _ _).mp hexit⟩
            exact not_terminates_of_never hexit (writeServicePid_not_mem_callsOf hhelp hinfo hstarts) h
  · rintro ⟨hhelp, hinfo, hrefuses⟩
    have hfirst : ∀ {n e}, chain c env seen n = some e → n = 0 ∧ e = env := by
      intro n e he
      cases n with
      | zero => exact ⟨rfl, (Option.some.inj he).symm⟩
      | succ n =>
          rw [chain_one_of_refuses hhelp hinfo hstarts hrefuses] at he
          cases he
    refine ⟨⟨1, chain_one_of_refuses hhelp hinfo hstarts hrefuses 0⟩, ?_, ?_⟩
    · intro n e he hdaemon
      obtain ⟨rfl, rfl⟩ := hfirst he
      rw [hrefuses.1] at hdaemon
      cases hdaemon
    · intro hexit
      exact absurd ((exitOf_eq_refused_iff hhelp hinfo hstarts env (seen 0)).mpr hrefuses) hexit

def controlStart : CommandLine := { help := false, info := false, control := ascii "start" }

/-- Nothing stands in the way: there is no pid file, and every call succeeds. -/
def nothingFound : Seen where
  stop := { pidFile := .missing, kill := fun _ => false }
  start := { pidFile := .missing, kill := fun _ => false }
  forkExec := true
  write := { pidFile := .missing, kill := fun _ => false }
  writeCalls := .succeed
  getpid := 100

/-- With no pid file, `--control start` starts one process after the other, without end. -/
theorem not_terminates_noPidFile :
    ¬Terminates controlStart [] fun _ => nothingFound := by
  intro h
  obtain ⟨n, hn⟩ := h.finite
  have hsome : (chain controlStart [] (fun _ => nothingFound) n).isSome :=
    (isSome_chain_iff rfl rfl (.inl rfl) (by decide) n).mpr fun _ _ => rfl
  rw [hn] at hsome
  cases hsome

/-- `terminates_iff` where the launcher finds a pid file. -/
theorem terminates_iff_pidFile :
    Terminates controlStart []
      fun _ => { nothingFound with start := { pidFile := .content (ascii "7"), kill := fun _ => true } } :=
  (terminates_iff _ _ _ (.inl rfl)).mpr ⟨rfl, rfl, by decide⟩

end ToyBox.App
