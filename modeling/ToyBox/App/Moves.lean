import ToyBox.App.ErrChan

/-! What a step does to a process that goes on running: either a goroutine only moves on, along an edge between
its program counters, or it also does one thing to what is shared: it starts another goroutine, sends to
`errChan` or receives from it, cancels the context, closes the logger, or leaves the wait group. The order in
which a service starts and ends follows from this list alone. -/

namespace ToyBox

open Logger (LogLevel)

namespace App

/-- The edges of the main goroutine at which nothing is shared. -/
inductive Main.Next (ok : Bool) : Main → Main → Prop
  | daemonLog : Next ok .daemonLog .writeServicePid
  | writeServicePid : Next ok .writeServicePid (if ok then .redirect else .pidErrorLog)
  | redirect : Next ok .redirect (if ok then .spawn true else .redirectErrorLog)
  | redirectErrorLog : Next ok .redirectErrorLog (.spawn true)
  | quitLog {daemon : Bool} {level : LogLevel} : Next ok (.quitLog daemon level) (.cancel daemon)
  | forceQuitLog {daemon : Bool} : Next ok (.forceQuitLog daemon) (deferred daemon false)
  | deletePidFile {wgDone : Bool} : Next ok (.deletePidFile wgDone) (.close wgDone false)
  | controlLog {level : LogLevel} {err : Bool} : Next ok (.controlLog level err) (.close false err)

/-- The edges of the goroutine of `RunFunc` at which nothing is shared. -/
inductive RunFunc.Next : Bool → RunFunc → RunFunc → Prop
  | startLog {ok : Bool} : Next ok .startLog .initLogger
  | initLoggerErr : Next false .initLogger (.sendErr true)
  | grpcLog {ok : Bool} : Next ok .grpcLog .listen
  | listenErr : Next false .listen .fatalLog
  | fatalLog {ok : Bool} : Next ok .fatalLog .fatalClose
  | serve {ok : Bool} : Next ok .serve (.serverQuitLog (!ok) false)
  | serverQuitLog {ok err panicking : Bool} :
      Next ok (.serverQuitLog err panicking) (if panicking then .panicLog else .sendErr err)
  | quitLog {ok : Bool} : Next ok .quitLog .wgDone
  | panicLog {ok : Bool} : Next ok .panicLog .panicSendErr

/-- Where a panic takes it. -/
inductive RunFunc.Panics : RunFunc → RunFunc → Prop
  | initLogger : Panics .initLogger .panicLog
  | spawnHttp : Panics .spawnHttp .panicLog
  | grpcLog : Panics .grpcLog .panicLog
  | listen : Panics .listen .panicLog
  | serve : Panics .serve (.serverQuitLog false true)

/-- The edges of the goroutine of the http server at which nothing is shared. -/
inductive HttpServer.Next (ok : Bool) : HttpServer → HttpServer → Prop
  | startLog : Next ok .startLog .start
  | start : Next ok .start (if ok then .shutdownLog else .sendErr)
  | shutdownLog : Next ok .shutdownLog .wgDone

/-- The edges of the goroutine that stops the grpc server, with the context cancelled or not. -/
inductive GrpcStop.Next : Bool → GrpcStop → GrpcStop → Prop
  | waitCancel : Next true .waitCancel .tryLog
  | tryLog {cancelled : Bool} : Next cancelled .tryLog .gracefulStop
  | gracefulStop {cancelled : Bool} : Next cancelled .gracefulStop .doneLog
  | doneLog {cancelled : Bool} : Next cancelled .doneLog .finished

/-- A step after which the process runs. -/
inductive Moves (s : App) : Label → App → Prop
  | serve {daemon : Bool} (hpc : s.main = .action) :
      Moves s (.serve daemon) { s with main := if daemon then .daemonLog else .spawn false }
  | noServeLog {level : LogLevel} {err : Bool} (hpc : s.main = .action) :
      Moves s (.noServe (some level) err) { s with main := .controlLog level err }
  | noServe {err : Bool} (hpc : s.main = .action) :
      Moves s (.noServe none err) { s with main := .close false err }
  | signal {daemon : Bool} (hpc : s.main = .waitQuit daemon) :
      Moves s .signal { s with main := .quitLog daemon .info }
  | timeout {daemon : Bool} (hpc : s.main = .waitDone daemon) :
      Moves s .timeout { s with main := .forceQuitLog daemon }
  | main {ok : Bool} {pc : Main} (hnext : s.main.Next ok pc) : Moves s (.main ok) { s with main := pc }
  | spawn {ok daemon : Bool} (hpc : s.main = .spawn daemon) :
      Moves s (.main ok) { s with main := .waitQuit daemon, runFunc := .startLog, wg := s.wg + 1 }
  | receive {ok daemon err : Bool} (hpc : s.main = .waitQuit daemon) (herr : s.errChan = some err) :
      Moves s (.main ok)
        { s with main := if err then .quitLog daemon .error else .cancel daemon, errChan := none }
  | cancel {ok daemon : Bool} (hpc : s.main = .cancel daemon) :
      Moves s (.main ok) { s with main := .waitDone daemon, cancelled := true }
  | waitDone {ok daemon : Bool} (hpc : s.main = .waitDone daemon) (hwg : s.wg = 0) :
      Moves s (.main ok) { s with main := deferred daemon true }
  | close {ok wgDone err : Bool} (hpc : s.main = .close wgDone err) (hopen : s.closed = false) :
      Moves s (.main ok) { s.close with main := .returned err }
  | runFunc {ok : Bool} {level : Int} {pc : RunFunc} (hnext : s.runFunc.Next ok pc) :
      Moves s (.runFunc ok level) { s with runFunc := pc }
  | initLogger {level : Int} (hpc : s.runFunc = .initLogger) :
      Moves s (.runFunc true level) { s with runFunc := .spawnHttp, level }
  | spawnHttp {ok : Bool} {level : Int} (hpc : s.runFunc = .spawnHttp) :
      Moves s (.runFunc ok level) { s with runFunc := .grpcLog, httpServer := .startLog, wg := s.wg + 1 }
  | listen {level : Int} (hpc : s.runFunc = .listen) :
      Moves s (.runFunc true level) { s with runFunc := .serve, grpcStop := .waitCancel }
  | fatalClose {ok : Bool} {level : Int} (hpc : s.runFunc = .fatalClose) (hopen : s.closed = false) :
      Moves s (.runFunc ok level) { s.close with runFunc := .fatalExit }
  | sendErr {ok err : Bool} {level : Int} (hpc : s.runFunc = .sendErr err) (hroom : s.errChan = none) :
      Moves s (.runFunc ok level) { s with runFunc := .quitLog, errChan := some err }
  | panicSendErr {ok : Bool} {level : Int} (hpc : s.runFunc = .panicSendErr) (hroom : s.errChan = none) :
      Moves s (.runFunc ok level) { s with runFunc := .wgDone, errChan := some true }
  | wgDone {ok : Bool} {level : Int} (hpc : s.runFunc = .wgDone) :
      Moves s (.runFunc ok level) { s with runFunc := .finished, wg := s.wg - 1 }
  | panic {pc : RunFunc} (hpanics : s.runFunc.Panics pc) : Moves s .panic { s with runFunc := pc }
  | httpServer {ok : Bool} {pc : HttpServer} (hnext : s.httpServer.Next ok pc) :
      Moves s (.httpServer ok) { s with httpServer := pc }
  | httpSendErr {ok : Bool} (hpc : s.httpServer = .sendErr) (hroom : s.errChan = none) :
      Moves s (.httpServer ok) { s with httpServer := .wgDone, errChan := some true }
  | httpWgDone {ok : Bool} (hpc : s.httpServer = .wgDone) :
      Moves s (.httpServer ok) { s with httpServer := .finished, wg := s.wg - 1 }
  | grpcStop {pc : GrpcStop} (hnext : s.grpcStop.Next s.cancelled pc) : Moves s .grpcStop { s with grpcStop := pc }

/-- Where the process may end: with a line for a closed channel or a second `Close`, which panic, or at one of
the places where the program ends. -/
def MayExit (s : App) : Prop :=
  s.closed = true ∨ s.main = .pidErrorLog ∨ (∃ err, s.main = .returned err) ∨ s.runFunc = .fatalExit

/-- What comes of a step: the process goes on, or it ends. -/
def MovesOrExits (s : App) (label : Label) (s' : App) : Prop :=
  Moves s label s' ∨ s'.exited = true ∧ s.MayExit

variable {s s' : App} {label : Label}

/-- A line that a goroutine logs on its way is not seen here, or it ends the process. -/
theorem movesOrExits_log (level : LogLevel) {f : App → App} (hexited : ∀ t : App, (f t).exited = t.exited)
    (h : Moves s label (f s)) : MovesOrExits s label (f (s.log level)) := by
  unfold log
  split
  · exact .inl h
  · split
    case isTrue hclosed => exact .inr ⟨hexited _, .inl hclosed⟩
    case isFalse => exact .inl h

/-- `Close` ends the process where the channel is closed. -/
theorem movesOrExits_close {f : App → App} (hexited : ∀ t : App, (f t).exited = t.exited)
    (h : s.closed = false → Moves s label (f s.close)) : MovesOrExits s label (f s.close) := by
  cases hclosed : s.closed with
  | false => exact .inl (h hclosed)
  | true => exact .inr ⟨(hexited _).trans hclosed, .inl hclosed⟩

theorem movesOrExits_main {ok : Bool} (hstep : s.nextMain ok = some s') : MovesOrExits s (.main ok) s' := by
  unfold nextMain at hstep
  split at hstep
  case h_1 hpc =>
    cases hstep
    exact movesOrExits_log (f := fun t => { t with main := .writeServicePid }) _ (fun _ => rfl)
      (.main (hpc ▸ .daemonLog))
  case h_2 hpc =>
    cases hstep
    exact .inl (.main (hpc ▸ .writeServicePid))
  case h_3 hpc =>
    cases hstep
    exact .inr ⟨rfl, .inr (.inl hpc)⟩
  case h_4 hpc =>
    cases hstep
    exact .inl (.main (hpc ▸ .redirect))
  case h_5 hpc =>
    cases hstep
    exact movesOrExits_log (f := fun t => { t with main := .spawn true }) _ (fun _ => rfl)
      (.main (hpc ▸ .redirectErrorLog))
  case h_6 daemon hpc =>
    cases hstep
    exact .inl (.spawn hpc)
  case h_7 daemon hpc =>
    split at hstep
    · cases hstep
      exact .inl (.receive hpc ‹_›)
    · cases hstep
      exact .inl (.receive hpc ‹_›)
    · cases hstep
  case h_8 daemon level hpc =>
    cases hstep
    exact movesOrExits_log (f := fun t => { t with main := .cancel daemon }) _ (fun _ => rfl)
      (.main (hpc ▸ .quitLog))
  case h_9 daemon hpc =>
    cases hstep
    exact .inl (.cancel hpc)
  case h_10 daemon hpc =>
    split at hstep
    · cases hstep
      exact .inl (.waitDone hpc ‹_›)
    · cases hstep
  case h_11 daemon hpc =>
    cases hstep
    exact movesOrExits_log (f := fun t => { t with main := deferred daemon false }) _ (fun _ => rfl)
      (.main (hpc ▸ .forceQuitLog))
  case h_12 wgDone hpc =>
    cases hstep
    exact movesOrExits_log (f := fun t => { t with main := .close wgDone false }) _ (fun _ => rfl)
      (.main (hpc ▸ .deletePidFile))
  case h_13 level err hpc =>
    cases hstep
    exact movesOrExits_log (f := fun t => { t with main := .close false err }) _ (fun _ => rfl)
      (.main (hpc ▸ .controlLog))
  case h_14 wgDone err hpc =>
    cases hstep
    exact movesOrExits_close (f := fun t => { t with main := .returned err }) (fun _ => rfl) (.close hpc)
  case h_15 hpc =>
    cases hstep
    exact .inr ⟨rfl, .inr (.inr (.inl ⟨_, hpc⟩))⟩
  case h_16 hpc =>
    cases hstep
    exact .inr ⟨rfl, .inr (.inr (.inl ⟨_, hpc⟩))⟩
  case h_17 => cases hstep

theorem movesOrExits_runFunc {ok : Bool} {level : Int} (hstep : s.nextRunFunc ok level = some s') :
    MovesOrExits s (.runFunc ok level) s' := by
  unfold nextRunFunc at hstep
  split at hstep
  case h_1 => cases hstep
  case h_2 hpc =>
    cases hstep
    exact movesOrExits_log (f := fun t => { t with runFunc := .initLogger }) _ (fun _ => rfl)
      (.runFunc (hpc ▸ .startLog))
  case h_3 hpc =>
    cases ok with
    | true =>
        cases hstep
        exact .inl (.initLogger hpc)
    | false =>
        cases hstep
        exact .inl (.runFunc (hpc ▸ .initLoggerErr))
  case h_4 hpc =>
    cases hstep
    exact .inl (.spawnHttp hpc)
  case h_5 hpc =>
    cases hstep
    exact movesOrExits_log (f := fun t => { t with runFunc := .listen }) _ (fun _ => rfl)
      (.runFunc (hpc ▸ .grpcLog))
  case h_6 hpc =>
    cases ok with
    | true =>
        cases hstep
        exact .inl (.listen hpc)
    | false =>
        cases hstep
        exact .inl (.runFunc (hpc ▸ .listenErr))
  case h_7 hpc =>
    cases hstep
    exact movesOrExits_log (f := fun t => { t with runFunc := .fatalClose }) _ (fun _ => rfl)
      (.runFunc (hpc ▸ .fatalLog))
  case h_8 hpc =>
    cases hstep
    exact movesOrExits_close (f := fun t => { t with runFunc := .fatalExit }) (fun _ => rfl) (.fatalClose hpc)
  case h_9 hpc =>
    cases hstep
    exact .inr ⟨rfl, .inr (.inr (.inr hpc))⟩
  case h_10 hpc =>
    cases hstep
    exact .inl (.runFunc (hpc ▸ .serve))
  case h_11 err panicking hpc =>
    cases hstep
    exact movesOrExits_log (f := fun t => { t with runFunc := if panicking then .panicLog else .sendErr err }) _
      (fun _ => rfl) (.runFunc (hpc ▸ .serverQuitLog))
  case h_12 err hpc =>
    split at hstep
    case isTrue => cases hstep
    case isFalse hroom =>
      cases hstep
      exact .inl (.sendErr hpc (Option.not_isSome_iff_eq_none.mp hroom))
  case h_13 hpc =>
    cases hstep
    exact movesOrExits_log (f := fun t => { t with runFunc := .wgDone }) _ (fun _ => rfl)
      (.runFunc (hpc ▸ .quitLog))
  case h_14 hpc =>
    cases hstep
    exact movesOrExits_log (f := fun t => { t with runFunc := .panicSendErr }) _ (fun _ => rfl)
      (.runFunc (hpc ▸ .panicLog))
  case h_15 hpc =>
    split at hstep
    case isTrue => cases hstep
    case isFalse hroom =>
      cases hstep
      exact .inl (.panicSendErr hpc (Option.not_isSome_iff_eq_none.mp hroom))
  case h_16 hpc =>
    cases hstep
    exact .inl (.wgDone hpc)
  case h_17 => cases hstep

theorem moves_panic (hstep : s.panicRunFunc = some s') : Moves s .panic s' := by
  unfold panicRunFunc at hstep
  split at hstep
  case h_1 hpc =>
    cases hstep
    exact .panic (hpc ▸ .initLogger)
  case h_2 hpc =>
    cases hstep
    exact .panic (hpc ▸ .spawnHttp)
  case h_3 hpc =>
    cases hstep
    exact .panic (hpc ▸ .grpcLog)
  case h_4 hpc =>
    cases hstep
    exact .panic (hpc ▸ .listen)
  case h_5 hpc =>
    cases hstep
    exact .panic (hpc ▸ .serve)
  case h_6 => cases hstep

theorem movesOrExits_httpServer {ok : Bool} (hstep : s.nextHttpServer ok = some s') :
    MovesOrExits s (.httpServer ok) s' := by
  unfold nextHttpServer at hstep
  split at hstep
  case h_1 => cases hstep
  case h_2 hpc =>
    cases hstep
    exact movesOrExits_log (f := fun t => { t with httpServer := .start }) _ (fun _ => rfl)
      (.httpServer (hpc ▸ .startLog))
  case h_3 hpc =>
    cases hstep
    exact .inl (.httpServer (hpc ▸ .start))
  case h_4 hpc =>
    split at hstep
    case isTrue => cases hstep
    case isFalse hroom =>
      cases hstep
      exact .inl (.httpSendErr hpc (Option.not_isSome_iff_eq_none.mp hroom))
  case h_5 hpc =>
    cases hstep
    exact movesOrExits_log (f := fun t => { t with httpServer := .wgDone }) _ (fun _ => rfl)
      (.httpServer (hpc ▸ .shutdownLog))
  case h_6 hpc =>
    cases hstep
    exact .inl (.httpWgDone hpc)
  case h_7 => cases hstep

theorem movesOrExits_grpcStop (hstep : s.nextGrpcStop = some s') : MovesOrExits s .grpcStop s' := by
  unfold nextGrpcStop at hstep
  split at hstep
  case h_1 => cases hstep
  case h_2 hpc =>
    split at hstep
    case isTrue hcancelled =>
      cases hstep
      exact .inl (.grpcStop (hpc ▸ hcancelled ▸ .waitCancel))
    case isFalse => cases hstep
  case h_3 hpc =>
    cases hstep
    exact movesOrExits_log (f := fun t => { t with grpcStop := .gracefulStop }) _ (fun _ => rfl)
      (.grpcStop (hpc ▸ .tryLog))
  case h_4 hpc =>
    cases hstep
    exact .inl (.grpcStop (hpc ▸ .gracefulStop))
  case h_5 hpc =>
    cases hstep
    exact movesOrExits_log (f := fun t => { t with grpcStop := .finished }) _ (fun _ => rfl)
      (.grpcStop (hpc ▸ .doneLog))
  case h_6 => cases hstep

theorem movesOrExits_of_next (hstep : s.next label = some s') : MovesOrExits s label s' := by
  cases effect_of_next hstep with
  | serve hpc => exact .inl (.serve hpc)
  | controlLog hpc => exact .inl (.noServeLog hpc)
  | noServe hpc => exact .inl (.noServe hpc)
  | signal hpc => exact .inl (.signal hpc)
  | timeout hpc => exact .inl (.timeout hpc)
  | main hmain => exact movesOrExits_main hmain
  | runFunc hrunFunc => exact movesOrExits_runFunc hrunFunc
  | panic hpanic => exact .inl (moves_panic hpanic)
  | httpServer hhttp => exact movesOrExits_httpServer hhttp
  | grpcStop hgrpc => exact movesOrExits_grpcStop hgrpc

theorem moves_of_next (hstep : s.next label = some s') (hruns : s'.exited = false) : Moves s label s' := by
  rcases movesOrExits_of_next hstep with hmoves | ⟨hexited, -⟩
  · exact hmoves
  · cases hexited.symm.trans hruns

theorem next_of_step (hstep : system.step s label = some s') : s.exited = false ∧ s.next label = some s' := by
  replace hstep : (if s.exited then none else s.next label) = some s' := hstep
  split at hstep
  case isTrue => cases hstep
  case isFalse hexited => exact ⟨by simpa using hexited, hstep⟩

/-! ### The order of a service -/

/-- The main goroutine has not left the first `select` of `wait`. -/
def Main.BeforeQuit : Main → Prop
  | waitQuit _ => True
  | pc => pc.BeforeSpawn

/-- It has not cancelled the context. -/
def Main.BeforeCancel : Main → Prop
  | quitLog _ _ => True
  | cancel _ => True
  | pc => pc.BeforeQuit

/-- It has left the first `select`, and waits for the others or will. -/
def Main.Quitting : Main → Prop
  | quitLog _ _ => True
  | cancel _ => True
  | waitDone _ => True
  | _ => False

/-- It is in `wait`, and the two seconds are not over. -/
def Main.InWait : Main → Prop
  | waitQuit _ => True
  | pc => pc.Quitting

/-- The goroutine of `RunFunc` has sent to `errChan`. -/
def RunFunc.Sent : RunFunc → Prop
  | quitLog => True
  | wgDone => True
  | finished => True
  | _ => False

/-- It has started the one of the http server, and the grpc server goes on. -/
def RunFunc.HttpUp : RunFunc → Prop
  | grpcLog => True
  | listen => True
  | serve => True
  | _ => False

/-- The goroutine has seen that the context is cancelled. -/
def GrpcStop.Stopping : GrpcStop → Prop
  | notStarted => False
  | waitCancel => False
  | _ => True

/-- The order in which the goroutines start and end, while the process runs. -/
structure Ordered (s : App) : Prop where
  wg : s.wg = s.runFunc.count + s.httpServer.count
  notStarted : s.main.BeforeSpawn → s.runFunc = .notStarted
  started : s.main.InWait → s.runFunc ≠ .notStarted
  httpNotStarted : s.runFunc.BeforeHttp → s.httpServer = .notStarted
  httpStarted : s.runFunc.HttpUp → s.httpServer ≠ .notStarted
  grpcStarted : s.runFunc = .serve → s.grpcStop ≠ .notStarted
  stopping : s.grpcStop.Stopping → s.cancelled = true
  notCancelled : s.main.BeforeCancel → s.cancelled = false
  cancelled : ∀ daemon, s.main = .waitDone daemon → s.cancelled = true
  unsent : s.main.BeforeQuit → s.errChan = none → ¬s.runFunc.Sent

/-- The main goroutine has moved on, and neither started another nor cancelled the context. -/
structure Main.Later (pc pc' : Main) : Prop where
  beforeSpawn : pc'.BeforeSpawn → pc.BeforeSpawn
  beforeQuit : pc'.BeforeQuit → pc.BeforeQuit
  beforeCancel : pc'.BeforeCancel → pc.BeforeCancel
  inWait : pc'.InWait → pc.InWait
  waitDone : ∀ daemon, pc' ≠ .waitDone daemon

theorem Main.Next.later {ok : Bool} {pc pc' : Main} (h : pc.Next ok pc') : pc.Later pc' := by
  cases h with
  | writeServicePid => cases ok <;> exact ⟨fun _ => trivial, fun _ => trivial, fun _ => trivial, nofun, nofun⟩
  | redirect => cases ok <;> exact ⟨fun _ => trivial, fun _ => trivial, fun _ => trivial, nofun, nofun⟩
  | @forceQuitLog daemon => cases daemon <;> exact ⟨nofun, nofun, nofun, nofun, nofun⟩
  | quitLog => exact ⟨nofun, nofun, fun _ => trivial, fun _ => trivial, nofun⟩
  | deletePidFile => exact ⟨nofun, nofun, nofun, nofun, nofun⟩
  | controlLog => exact ⟨nofun, nofun, nofun, nofun, nofun⟩
  | _ => exact ⟨fun _ => trivial, fun _ => trivial, fun _ => trivial, nofun, nofun⟩

/-- The goroutine of `RunFunc` has moved on, and neither started another nor sent. -/
structure RunFunc.Later (pc pc' : RunFunc) : Prop where
  count : pc.count = 1
  count' : pc'.count = 1
  beforeHttp : pc'.BeforeHttp → pc.BeforeHttp
  httpUp : pc'.HttpUp → pc.HttpUp
  serve : pc' ≠ .serve
  sent : pc'.Sent → pc.Sent

theorem RunFunc.Next.later {ok : Bool} {pc pc' : RunFunc} (h : pc.Next ok pc') : pc.Later pc' := by
  cases h with
  | @serverQuitLog _ err panicking => cases panicking <;> exact ⟨rfl, rfl, nofun, nofun, nofun, nofun⟩
  | startLog => exact ⟨rfl, rfl, fun _ => trivial, nofun, nofun, nofun⟩
  | grpcLog => exact ⟨rfl, rfl, nofun, fun _ => trivial, nofun, nofun⟩
  | quitLog => exact ⟨rfl, rfl, nofun, nofun, nofun, fun _ => trivial⟩
  | _ => exact ⟨rfl, rfl, nofun, nofun, nofun, nofun⟩

theorem RunFunc.Panics.later {pc pc' : RunFunc} (h : pc.Panics pc') : pc.Later pc' := by
  cases h <;> exact ⟨rfl, rfl, nofun, nofun, nofun, nofun⟩

/-- A goroutine that counts for the wait group has been started. -/
theorem RunFunc.ne_notStarted {pc : RunFunc} (h : pc.count = 1) : pc ≠ .notStarted := by
  rintro rfl
  cases h

theorem HttpServer.ne_notStarted {pc : HttpServer} (h : pc.count = 1) : pc ≠ .notStarted := by
  rintro rfl
  cases h

theorem Ordered.setMain {t : App} (h : s.Ordered) (hlater : s.main.Later t.main)
    (herr : t.main.BeforeQuit → t.errChan = s.errChan) (hrunFunc : t.runFunc = s.runFunc := by rfl)
    (hhttp : t.httpServer = s.httpServer := by rfl) (hgrpc : t.grpcStop = s.grpcStop := by rfl)
    (hwg : t.wg = s.wg := by rfl) (hcancelled : t.cancelled = s.cancelled := by rfl) : t.Ordered where
  wg := by
    rw [hwg, hrunFunc, hhttp]
    exact h.wg
  notStarted hspawn := hrunFunc.trans (h.notStarted (hlater.beforeSpawn hspawn))
  started hwait := hrunFunc ▸ h.started (hlater.inWait hwait)
  httpNotStarted := by
    rw [hrunFunc, hhttp]
    exact h.httpNotStarted
  httpStarted := by
    rw [hrunFunc, hhttp]
    exact h.httpStarted
  grpcStarted := by
    rw [hrunFunc, hgrpc]
    exact h.grpcStarted
  stopping := by
    rw [hgrpc, hcancelled]
    exact h.stopping
  notCancelled hcancel := hcancelled.trans (h.notCancelled (hlater.beforeCancel hcancel))
  cancelled daemon hpc := absurd hpc (hlater.waitDone daemon)
  unsent hquit := by
    rw [herr hquit, hrunFunc]
    exact h.unsent (hlater.beforeQuit hquit)

theorem Ordered.setRunFunc {t : App} (h : s.Ordered) (hlater : s.runFunc.Later t.runFunc)
    (hmain : t.main = s.main := by rfl) (herr : t.errChan = s.errChan := by rfl)
    (hhttp : t.httpServer = s.httpServer := by rfl) (hgrpc : t.grpcStop = s.grpcStop := by rfl)
    (hwg : t.wg = s.wg := by rfl) (hcancelled : t.cancelled = s.cancelled := by rfl) : t.Ordered where
  wg := by
    rw [hwg, hhttp, hlater.count', h.wg, hlater.count]
  notStarted hspawn := absurd (h.notStarted (hmain ▸ hspawn)) (RunFunc.ne_notStarted hlater.count)
  started _ := RunFunc.ne_notStarted hlater.count'
  httpNotStarted hbefore := hhttp.trans (h.httpNotStarted (hlater.beforeHttp hbefore))
  httpStarted hup := hhttp ▸ h.httpStarted (hlater.httpUp hup)
  grpcStarted hserve := absurd hserve hlater.serve
  stopping := by
    rw [hgrpc, hcancelled]
    exact h.stopping
  notCancelled := by
    rw [hmain, hcancelled]
    exact h.notCancelled
  cancelled := by
    rw [hmain, hcancelled]
    exact h.cancelled
  unsent := by
    rw [hmain, herr]
    exact fun hquit hnone hsent => h.unsent hquit hnone (hlater.sent hsent)

theorem Ordered.setHttpServer {t : App} (h : s.Ordered) (hcount : s.httpServer.count = 1)
    (hstarted : t.httpServer ≠ .notStarted) (hwg : t.wg + 1 = s.wg + t.httpServer.count)
    (herr : t.errChan = none → s.errChan = none) (hmain : t.main = s.main := by rfl)
    (hrunFunc : t.runFunc = s.runFunc := by rfl) (hgrpc : t.grpcStop = s.grpcStop := by rfl)
    (hcancelled : t.cancelled = s.cancelled := by rfl) : t.Ordered where
  wg := by
    have hold := h.wg
    rw [hrunFunc]
    omega
  notStarted hspawn := hrunFunc.trans (h.notStarted (hmain ▸ hspawn))
  started := by
    rw [hmain, hrunFunc]
    exact h.started
  httpNotStarted hbefore :=
    absurd (h.httpNotStarted (hrunFunc ▸ hbefore)) (HttpServer.ne_notStarted hcount)
  httpStarted _ := hstarted
  grpcStarted := by
    rw [hrunFunc, hgrpc]
    exact h.grpcStarted
  stopping := by
    rw [hgrpc, hcancelled]
    exact h.stopping
  notCancelled := by
    rw [hmain, hcancelled]
    exact h.notCancelled
  cancelled := by
    rw [hmain, hcancelled]
    exact h.cancelled
  unsent := by
    rw [hmain, hrunFunc]
    exact fun hquit hnone => h.unsent hquit (herr hnone)

theorem HttpServer.Next.count {ok : Bool} {pc pc' : HttpServer} (h : pc.Next ok pc') :
    pc.count = 1 ∧ pc'.count = 1 := by
  cases h with
  | start => cases ok <;> exact ⟨rfl, rfl⟩
  | _ => exact ⟨rfl, rfl⟩

theorem GrpcStop.Next.stopping {cancelled : Bool} {pc pc' : GrpcStop} (h : pc.Next cancelled pc') :
    pc' ≠ .notStarted ∧ (pc = .waitCancel ∧ cancelled = true ∨ pc.Stopping) := by
  cases h with
  | waitCancel => exact ⟨nofun, .inl ⟨rfl, rfl⟩⟩
  | _ => exact ⟨nofun, .inr trivial⟩

/-- A line of the list above keeps the order. -/
theorem Ordered.moves (h : s.Ordered) (hmoves : Moves s label s') : s'.Ordered := by
  cases hmoves with
  | @serve daemon hpc =>
      refine h.setMain ?_ fun _ => rfl
      rw [hpc]
      cases daemon <;> exact ⟨fun _ => trivial, fun _ => trivial, fun _ => trivial, nofun, nofun⟩
  | noServeLog hpc => exact h.setMain ⟨nofun, nofun, nofun, nofun, nofun⟩ nofun
  | noServe hpc => exact h.setMain ⟨nofun, nofun, nofun, nofun, nofun⟩ nofun
  | signal hpc =>
      refine h.setMain ?_ nofun
      rw [hpc]
      exact ⟨nofun, nofun, fun _ => trivial, fun _ => trivial, nofun⟩
  | timeout hpc => exact h.setMain ⟨nofun, nofun, nofun, nofun, nofun⟩ nofun
  | main hnext => exact h.setMain hnext.later fun _ => rfl
  | spawn hpc =>
      have hrunFunc : s.runFunc = .notStarted := h.notStarted (hpc ▸ trivial)
      have hhttp : s.httpServer = .notStarted := h.httpNotStarted (hrunFunc ▸ trivial)
      refine ⟨?_, nofun, fun _ => nofun, fun _ => hhttp, nofun, nofun, h.stopping, ?_, nofun, fun _ _ => id⟩
      · show s.wg + 1 = 1 + s.httpServer.count
        rw [h.wg, hrunFunc, hhttp]
        rfl
      · exact fun _ => h.notCancelled (hpc ▸ trivial)
  | @receive _ daemon err hpc herr =>
      refine h.setMain ?_ ?_
      · rw [hpc]
        cases err <;> exact ⟨nofun, nofun, fun _ => trivial, fun _ => trivial, nofun⟩
      · cases err <;> nofun
  | cancel hpc =>
      exact ⟨h.wg, nofun, fun _ => h.started (hpc ▸ trivial), h.httpNotStarted, h.httpStarted, h.grpcStarted,
        fun _ => rfl, nofun, fun _ _ => rfl, nofun⟩
  | @waitDone _ daemon hpc hwg =>
      refine h.setMain ?_ ?_
      · cases daemon <;> exact ⟨nofun, nofun, nofun, nofun, nofun⟩
      · cases daemon <;> nofun
  | close hpc hopen => exact h.setMain ⟨nofun, nofun, nofun, nofun, nofun⟩ nofun
  | runFunc hnext => exact h.setRunFunc hnext.later
  | initLogger hpc => exact h.setRunFunc (hpc ▸ ⟨rfl, rfl, fun _ => trivial, nofun, nofun, nofun⟩)
  | spawnHttp hpc =>
      have hhttp : s.httpServer = .notStarted := h.httpNotStarted (hpc ▸ trivial)
      refine ⟨?_, ?_, fun _ => nofun, nofun, fun _ => nofun, nofun, h.stopping, h.notCancelled, h.cancelled,
        fun _ _ => id⟩
      · show s.wg + 1 = 1 + 1
        rw [h.wg, hpc, hhttp]
        rfl
      · exact fun hspawn => absurd (hpc ▸ h.notStarted hspawn) nofun
  | listen hpc =>
      refine ⟨?_, ?_, fun _ => nofun, nofun, fun _ => h.httpStarted (hpc ▸ trivial), fun _ => nofun, nofun,
        h.notCancelled, h.cancelled, fun _ _ => id⟩
      · show s.wg = 1 + s.httpServer.count
        rw [h.wg, hpc]
        rfl
      · exact fun hspawn => absurd (hpc ▸ h.notStarted hspawn) nofun
  | fatalClose hpc hopen => exact h.setRunFunc (hpc ▸ ⟨rfl, rfl, nofun, nofun, nofun, nofun⟩)
  | sendErr hpc hroom =>
      refine ⟨?_, ?_, fun _ => nofun, nofun, nofun, nofun, h.stopping, h.notCancelled, h.cancelled, nofun⟩
      · show s.wg = 1 + s.httpServer.count
        rw [h.wg, hpc]
        rfl
      · exact fun hspawn => absurd (hpc ▸ h.notStarted hspawn) nofun
  | panicSendErr hpc hroom =>
      refine ⟨?_, ?_, fun _ => nofun, nofun, nofun, nofun, h.stopping, h.notCancelled, h.cancelled, nofun⟩
      · show s.wg = 1 + s.httpServer.count
        rw [h.wg, hpc]
        rfl
      · exact fun hspawn => absurd (hpc ▸ h.notStarted hspawn) nofun
  | wgDone hpc =>
      refine ⟨?_, ?_, fun _ => nofun, nofun, nofun, nofun, h.stopping, h.notCancelled, h.cancelled, ?_⟩
      · show s.wg - 1 = 0 + s.httpServer.count
        rw [h.wg, hpc]
        exact (Nat.add_sub_cancel_left 1 _).trans (Nat.zero_add _).symm
      · exact fun hspawn => absurd (hpc ▸ h.notStarted hspawn) nofun
      · exact fun hquit hnone => absurd (hpc ▸ trivial) (h.unsent hquit hnone)
  | panic hpanics => exact h.setRunFunc hpanics.later
  | httpServer hnext =>
      obtain ⟨hcount, hcount'⟩ := hnext.count
      exact h.setHttpServer hcount (HttpServer.ne_notStarted hcount') (congrArg (s.wg + ·) hcount'.symm) id
  | httpSendErr hpc hroom => exact h.setHttpServer (hpc ▸ rfl) nofun rfl nofun
  | httpWgDone hpc =>
      have hpos : 1 ≤ s.wg := by
        rw [h.wg, hpc]
        exact Nat.le_add_left 1 _
      exact h.setHttpServer (hpc ▸ rfl) nofun (Nat.sub_add_cancel hpos) id
  | grpcStop hnext =>
      obtain ⟨hstarted, hstopping⟩ := hnext.stopping
      refine ⟨h.wg, h.notStarted, h.started, h.httpNotStarted, h.httpStarted, fun _ => hstarted, fun _ => ?_,
        h.notCancelled, h.cancelled, h.unsent⟩
      exact hstopping.elim And.right h.stopping

theorem ordered_of_reachable (hs : system.Reachable s) (hruns : s.exited = false) : s.Ordered := by
  revert hruns
  refine hs.invariant (P := fun s => s.exited = false → s.Ordered) ?_ ?_
  · exact fun _ => ⟨rfl, fun _ => rfl, nofun, fun _ => rfl, nofun, nofun, nofun, fun _ => rfl, nofun, fun _ _ => id⟩
  · intro s label s' _ ih _ hstep hruns'
    obtain ⟨hruns, hnext⟩ := next_of_step hstep
    exact (ih hruns).moves (moves_of_next hnext hruns')

/-! ### Room for the errors -/

/-- A goroutine at a send to `errChan` finds room there. -/
def Room (s : App) : Prop := s.errChan.isSome → ¬s.runFunc.Sending ∧ s.httpServer ≠ .sendErr

/-- The error in `errChan` and those that may still be sent. -/
def mostErrors (s : App) : Nat := s.ownErrors + s.httpServer.mostSends

/-- While the one error of `RunFunc` is in `errChan`, none is to be sent. -/
theorem not_sending_of_full (h : s.ownErrors ≤ 1) (hfull : s.errChan.isSome) : ¬s.runFunc.Sending := by
  intro hsending
  obtain ⟨err, herr⟩ := Option.isSome_iff_exists.mp hfull
  rw [ownErrors, herr, hsending.sends] at h
  exact absurd (Nat.le_of_succ_le_succ h) (Nat.not_succ_le_zero 0)

theorem Room.of_le (h : s.ownErrors + s.httpServer.sends ≤ 1) : s.Room := by
  intro hfull
  refine ⟨not_sending_of_full (Nat.le_trans (Nat.le_add_right _ _) h) hfull, fun hhttp => ?_⟩
  obtain ⟨err, herr⟩ := Option.isSome_iff_exists.mp hfull
  rw [ownErrors, herr, hhttp] at h
  replace h : 1 + s.runFunc.sends + 1 ≤ 1 := h
  omega

theorem RunFunc.Next.sends {ok : Bool} {pc pc' : RunFunc} (h : pc.Next ok pc') : pc'.sends ≤ pc.sends := by
  cases h with
  | @serverQuitLog _ err panicking => cases panicking <;> exact Nat.le.refl
  | listenErr => exact Nat.zero_le _
  | _ => exact Nat.le.refl

theorem RunFunc.Panics.sends {pc pc' : RunFunc} (h : pc.Panics pc') : pc'.sends ≤ pc.sends := by
  cases h <;> exact Nat.le.refl

theorem HttpServer.Next.mostSends {ok : Bool} {pc pc' : HttpServer} (h : pc.Next ok pc') :
    pc'.mostSends ≤ pc.mostSends := by
  cases h with
  | start => cases ok <;> decide
  | _ => decide

theorem ownErrors_receive {t : App} {err : Bool} (herr : s.errChan = some err) (hnone : t.errChan = none)
    (hrunFunc : t.runFunc = s.runFunc := by rfl) : t.ownErrors + 1 = s.ownErrors := by
  rw [ownErrors, ownErrors, herr, hnone, hrunFunc]
  exact Nat.add_right_comm 0 _ 1

/-- No step makes more errors, and only the send of the http server takes one over into `errChan` that the
goroutine of `RunFunc` did not owe. -/
theorem errors_moves (h : s.Ordered) (hmoves : Moves s label s') :
    s'.mostErrors ≤ s.mostErrors ∧ (s.httpServer ≠ .sendErr → s'.ownErrors ≤ s.ownErrors) := by
  have hown {t : App} (hle : t.ownErrors ≤ s.ownErrors)
      (hhttp : t.httpServer.mostSends ≤ s.httpServer.mostSends := by exact Nat.le.refl) :
      t.mostErrors ≤ s.mostErrors ∧ (s.httpServer ≠ .sendErr → t.ownErrors ≤ s.ownErrors) :=
    ⟨Nat.add_le_add hle hhttp, fun _ => hle⟩
  cases hmoves with
  | spawn hpc =>
      have hrunFunc : s.runFunc = .notStarted := h.notStarted (hpc ▸ trivial)
      exact hown (ownErrors_le hrunFunc rfl Nat.le.refl)
  | receive hpc herr => exact hown (Nat.le_of_lt (Nat.lt_of_succ_le (Nat.le_of_eq (ownErrors_receive herr rfl))))
  | runFunc hnext => exact hown (ownErrors_le rfl rfl hnext.sends)
  | initLogger hpc => exact hown (ownErrors_le hpc rfl Nat.le.refl)
  | spawnHttp hpc =>
      have hhttp : s.httpServer = .notStarted := h.httpNotStarted (hpc ▸ trivial)
      exact hown (ownErrors_le hpc rfl Nat.le.refl) (hhttp ▸ Nat.le.refl)
  | listen hpc => exact hown (ownErrors_le hpc rfl Nat.le.refl)
  | fatalClose hpc hopen => exact hown (ownErrors_le hpc rfl Nat.le.refl)
  | sendErr hpc hroom => exact hown (ownErrors_of_send hpc rfl (hroom ▸ nofun) rfl)
  | panicSendErr hpc hroom => exact hown (ownErrors_of_send hpc rfl (hroom ▸ nofun) rfl)
  | wgDone hpc => exact hown (ownErrors_le hpc rfl Nat.le.refl)
  | panic hpanics => exact hown (ownErrors_le rfl rfl hpanics.sends)
  | httpServer hnext => exact hown Nat.le.refl hnext.mostSends
  | httpSendErr hpc hroom =>
      refine ⟨?_, fun hhttp => absurd hpc hhttp⟩
      rw [mostErrors, mostErrors, ownErrors, ownErrors, hroom, hpc]
      show 1 + s.runFunc.sends + 0 ≤ 0 + s.runFunc.sends + 1
      omega
  | httpWgDone hpc => exact hown Nat.le.refl (Nat.zero_le _)
  | _ => exact hown Nat.le.refl

theorem Main.Next.quitting {ok : Bool} {pc pc' : Main} (h : pc.Next ok pc') (hquit : pc'.Quitting) :
    pc.Quitting := by
  cases h with
  | writeServicePid => cases ok <;> exact hquit.elim
  | redirect => cases ok <;> exact hquit.elim
  | @forceQuitLog daemon => cases daemon <;> exact hquit.elim
  | quitLog => trivial
  | _ => exact hquit.elim

/-- Without a signal, `wait` leaves its first `select` with an error. -/
theorem Moves.quitting (hmoves : Moves s label s') (hlabel : label ≠ .signal) (hquit : s'.main.Quitting) :
    s.main.Quitting ∨ s'.mostErrors + 1 = s.mostErrors := by
  cases hmoves with
  | @serve daemon hpc => cases daemon <;> exact hquit.elim
  | noServeLog hpc => exact hquit.elim
  | noServe hpc => exact hquit.elim
  | signal hpc => exact absurd rfl hlabel
  | timeout hpc => exact hquit.elim
  | main hnext => exact .inl (hnext.quitting hquit)
  | spawn hpc => exact hquit.elim
  | receive hpc herr =>
      refine .inr ?_
      rw [mostErrors, mostErrors, Nat.add_right_comm, ownErrors_receive herr rfl]
  | cancel hpc => exact .inl (hpc ▸ trivial)
  | @waitDone _ daemon hpc hwg => cases daemon <;> exact hquit.elim
  | close hpc hopen => exact hquit.elim
  | _ => exact .inl hquit

/-- `wait` receives one of the two errors, so that there is room for the other. -/
theorem room_of_noSignal (hs : system.ReachableBy (fun _ label => label ≠ .signal) s) (hruns : s.exited = false)
    (hquit : s.main.Quitting) : s.Room := by
  have hmost : s.exited = false → s.mostErrors ≤ 2 ∧ (s.main.Quitting → s.mostErrors ≤ 1) := by
    refine hs.invariant (P := fun s => s.exited = false → s.mostErrors ≤ 2 ∧ (s.main.Quitting → s.mostErrors ≤ 1))
      (fun _ => ⟨Nat.le.refl, nofun⟩) ?_
    intro s label s' hs ih hlabel hstep hruns'
    obtain ⟨hruns, hnext⟩ := next_of_step hstep
    have hmoves := moves_of_next hnext hruns'
    obtain ⟨htwo, hone⟩ := ih hruns
    have hle := (errors_moves (ordered_of_reachable hs.reachable hruns) hmoves).1
    refine ⟨Nat.le_trans hle htwo, fun hquit' => ?_⟩
    rcases hmoves.quitting hlabel hquit' with hquit | hreceived
    · exact Nat.le_trans hle (hone hquit)
    · omega
  have hone := (hmost hruns).2 hquit
  have hsends := s.httpServer.sends_le
  refine Room.of_le ?_
  rw [mostErrors] at hone
  omega

/-- The http server returns no error. -/
def HttpOk (s : App) (label : Label) : Prop := ∀ ok, label = .httpServer ok → s.httpServer = .start → ok = true

/-- The one error is that of `RunFunc`. -/
theorem room_of_httpOk (hs : system.ReachableBy HttpOk s) (hruns : s.exited = false) : s.Room := by
  have hone : s.exited = false → s.ownErrors ≤ 1 ∧ s.httpServer ≠ .sendErr := by
    refine hs.invariant (P := fun s => s.exited = false → s.ownErrors ≤ 1 ∧ s.httpServer ≠ .sendErr)
      (fun _ => ⟨Nat.le.refl, (nofun : HttpServer.notStarted ≠ .sendErr)⟩) ?_
    intro s label s' hs ih hguard hstep hruns'
    obtain ⟨hruns, hnext⟩ := next_of_step hstep
    have hmoves := moves_of_next hnext hruns'
    obtain ⟨hone, hhttp⟩ := ih hruns
    refine ⟨Nat.le_trans ((errors_moves (ordered_of_reachable hs.reachable hruns) hmoves).2 hhttp) hone, ?_⟩
    cases hmoves with
    | spawnHttp hpc => nofun
    | httpServer hedge =>
        generalize hpc : s.httpServer = pc at hedge
        cases hedge with
        | start =>
            cases hguard _ rfl hpc
            nofun
        | _ => nofun
    | httpSendErr hpc hroom => nofun
    | httpWgDone hpc => nofun
    | _ => exact hhttp
  obtain ⟨hle, hhttp⟩ := hone hruns
  exact fun hfull => ⟨not_sending_of_full hle hfull, hhttp⟩

/-! ### The wait group at the end -/

/-- The main goroutine is on its way to the end of the action, or beyond it. -/
def Main.Leaving : Main → Prop
  | deletePidFile _ => True
  | controlLog _ _ => True
  | close _ _ => True
  | returned _ => True
  | _ => False

theorem Main.Next.leaving {ok : Bool} {pc pc' : Main} (h : pc.Next ok pc') (hleaving : pc'.Leaving) :
    pc.Leaving ∨ ∃ daemon, pc = .forceQuitLog daemon := by
  cases h with
  | writeServicePid => cases ok <;> exact hleaving.elim
  | redirect => cases ok <;> exact hleaving.elim
  | forceQuitLog => exact .inr ⟨_, rfl⟩
  | deletePidFile => exact .inl trivial
  | controlLog => exact .inl trivial
  | _ => exact hleaving.elim

theorem Main.Next.ne_forceQuitLog {ok : Bool} {pc pc' : Main} (h : pc.Next ok pc') (daemon : Bool) :
    pc' ≠ .forceQuitLog daemon := by
  cases h with
  | writeServicePid => cases ok <;> nofun
  | redirect => cases ok <;> nofun
  | @forceQuitLog daemon' => cases daemon' <;> nofun
  | _ => nofun

theorem Ordered.count_eq_zero (h : s.Ordered) (hwg : s.wg = 0) :
    s.runFunc.count = 0 ∧ s.httpServer.count = 0 := by
  have hcount := h.wg
  omega

/-- Nobody joins a wait group that is done. -/
theorem Moves.wg_eq_zero (hmoves : Moves s label s') (h : s.Ordered) (hwg : s.wg = 0)
    (hmain : ∀ daemon, s.main ≠ .spawn daemon) : s'.wg = 0 := by
  obtain ⟨hcount, hhttp⟩ := h.count_eq_zero hwg
  cases hmoves with
  | spawn hpc => exact absurd hpc (hmain _)
  | spawnHttp hpc =>
      rw [hpc] at hcount
      cases hcount
  | wgDone hpc =>
      rw [hpc] at hcount
      cases hcount
  | httpWgDone hpc =>
      rw [hpc] at hhttp
      cases hhttp
  | _ => exact hwg

/-- Unless the two seconds are over, the action ends with the wait group done. -/
theorem wg_of_noTimeout (hs : system.ReachableBy (fun _ label => label ≠ .timeout) s) (hruns : s.exited = false)
    (hleaving : s.main.Leaving) : s.wg = 0 := by
  have hdone : s.exited = false → (∀ daemon, s.main ≠ .forceQuitLog daemon) ∧ (s.main.Leaving → s.wg = 0) := by
    refine hs.invariant
      (P := fun s => s.exited = false → (∀ daemon, s.main ≠ .forceQuitLog daemon) ∧ (s.main.Leaving → s.wg = 0))
      (fun _ => ⟨fun daemon => (nofun : Main.action ≠ .forceQuitLog daemon), nofun⟩) ?_
    intro s label s' hs ih hlabel hstep hruns'
    obtain ⟨hruns, hnext⟩ := next_of_step hstep
    have hmoves := moves_of_next hnext hruns'
    have hordered := ordered_of_reachable hs.reachable hruns
    obtain ⟨hforce, hwg⟩ := ih hruns
    have hbefore (hmain : s.main.BeforeSpawn) : s.wg = 0 := by
      have hrunFunc := hordered.notStarted hmain
      rw [hordered.wg, hrunFunc, hordered.httpNotStarted (hrunFunc ▸ trivial)]
      rfl
    have hstays (hmain : s.main.Leaving) : s'.wg = 0 :=
      hmoves.wg_eq_zero hordered (hwg hmain) fun daemon hpc => (hpc ▸ hmain : (Main.spawn daemon).Leaving)
    cases hmoves with
    | @serve daemon hpc => cases daemon <;> exact ⟨nofun, nofun⟩
    | noServeLog hpc => exact ⟨nofun, fun _ => hbefore (hpc ▸ trivial)⟩
    | noServe hpc => exact ⟨nofun, fun _ => hbefore (hpc ▸ trivial)⟩
    | signal hpc => exact ⟨nofun, nofun⟩
    | timeout hpc => exact absurd rfl hlabel
    | main hedge =>
        refine ⟨hedge.ne_forceQuitLog, fun hmain => ?_⟩
        rcases hedge.leaving hmain with hmain' | ⟨daemon, hpc⟩
        · exact hwg hmain'
        · exact absurd hpc (hforce daemon)
    | spawn hpc => exact ⟨nofun, nofun⟩
    | @receive _ daemon err hpc herr => cases err <;> exact ⟨nofun, nofun⟩
    | cancel hpc => exact ⟨nofun, nofun⟩
    | @waitDone _ daemon hpc hdone => cases daemon <;> exact ⟨nofun, fun _ => hdone⟩
    | close hpc hopen => exact ⟨nofun, fun _ => hwg (hpc ▸ trivial)⟩
    | _ => exact ⟨hforce, hstays⟩
  exact (hdone hruns).2 hleaving

end App

end ToyBox
