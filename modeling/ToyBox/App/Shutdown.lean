import ToyBox.Library.TransitionSystem
import ToyBox.Logger.Record

/-! The shutdown of a service: the main goroutine in `StartService`, with the deferred calls of its action,
the goroutine that runs `RunFunc`, the one of the http server and the one that stops the grpc server. Of
the logger only its channel matters here, which `Close` closes. The goroutines that handle requests, and
the monitor of the redirected output, are left out, and a daemon is taken to come back from the handler of
its control command. -/

namespace ToyBox

open Logger (LogLevel)

namespace App

/-- Where the main goroutine is, by what it does next. The flags say whether it runs as a daemon and
whether it has left `wait` because the wait group was done. -/
inductive Main
  | action
  | daemonLog
  | writeServicePid
  | pidErrorLog
  | redirect
  | redirectErrorLog
  | spawn (daemon : Bool)
  /-- The first `select` of `wait`. -/
  | waitQuit (daemon : Bool)
  | quitLog (daemon : Bool) (level : LogLevel)
  | cancel (daemon : Bool)
  /-- The second `select` of `wait`. -/
  | waitDone (daemon : Bool)
  | forceQuitLog (daemon : Bool)
  | deletePidFile (wgDone : Bool)
  /-- The last line that an action logs which does not serve. -/
  | controlLog (level : LogLevel) (err : Bool)
  /-- The deferred `logger.Close`. -/
  | close (wgDone err : Bool)
  /-- `app.Run` has returned. -/
  | returned (err : Bool)

/-- Where the goroutine that runs `RunFunc` is. -/
inductive RunFunc
  | notStarted
  | startLog
  | initLogger
  | spawnHttp
  | grpcLog
  | listen
  | fatalLog
  | fatalClose
  | fatalExit
  | serve
  /-- The deferred log of the grpc server. -/
  | serverQuitLog (err panicking : Bool)
  | sendErr (err : Bool)
  | quitLog
  | panicLog
  | panicSendErr
  | wgDone
  | finished

/-- Where the goroutine of the http server is. -/
inductive HttpServer
  | notStarted
  | startLog
  | start
  | sendErr
  | shutdownLog
  | wgDone
  | finished

/-- Where the goroutine is that stops the grpc server. -/
inductive GrpcStop
  | notStarted
  | waitCancel
  | tryLog
  | gracefulStop
  | doneLog
  | finished

end App

open App

/-- The goroutines of a service and what they share. -/
structure App where
  main : Main := .action
  runFunc : RunFunc := .notStarted
  httpServer : HttpServer := .notStarted
  grpcStop : GrpcStop := .notStarted
  wg : Nat := 0
  /-- The error in `errChan`, or the nil in it. -/
  errChan : Option Bool := none
  /-- The context is cancelled. -/
  cancelled : Bool := false
  /-- The level of the logger. -/
  level : Int := LogLevel.debug.toInt
  /-- `recordChan` is closed. -/
  closed : Bool := false
  /-- How often `Close` was called. -/
  closes : Nat := 0
  /-- A record was sent on the closed channel. -/
  sentAfterClose : Bool := false
  exited : Bool := false

namespace App

/-- A step of the system. What is outside of the goroutines, the label fixes. -/
inductive Label
  /-- The action serves, or it returns early: with a line to log, and with an error. -/
  | serve (daemon : Bool)
  | noServe (log : Option LogLevel) (err : Bool)
  /-- The main goroutine goes on; a call may fail. -/
  | main (ok : Bool)
  /-- A signal comes. -/
  | signal
  /-- The two seconds are over. -/
  | timeout
  /-- The goroutine of `RunFunc` goes on; a call may fail, and `InitLogger` sets a level. -/
  | runFunc (ok : Bool) (level : Int)
  /-- `RunFunc` panics. -/
  | panic
  | httpServer (ok : Bool)
  | grpcStop

variable (s : App)

/-- A call of the logger: what passes the level check is sent. A send on the closed channel panics, and
nothing that follows it is of interest. -/
def log (level : LogLevel) : App :=
  if level.toInt < s.level then s
  else if s.closed then { s with sentAfterClose := true, exited := true }
  else s

/-- `logger.Close`, which panics if the channel is closed. -/
def close : App :=
  { s with closed := true, closes := s.closes + 1, exited := s.closed }

/-- The deferred calls of the action, after `wait`. -/
def deferred (daemon wgDone : Bool) : Main := if daemon then .deletePidFile wgDone else .close wgDone false

/-- A step of the main goroutine. -/
def nextMain (ok : Bool) : Option App :=
  match s.main with
  | .daemonLog => some { s.log .info with main := .writeServicePid }
  | .writeServicePid => some { s with main := if ok then .redirect else .pidErrorLog }
  | .pidErrorLog => some { s.log .error with exited := true }
  | .redirect => some { s with main := if ok then .spawn true else .redirectErrorLog }
  | .redirectErrorLog => some { s.log .error with main := .spawn true }
  | .spawn daemon =>
      some { s with main := .waitQuit daemon, runFunc := .startLog, wg := s.wg + 1 }
  | .waitQuit daemon =>
      match s.errChan with
      | some true => some { s with main := .quitLog daemon .error, errChan := none }
      | some false => some { s with main := .cancel daemon, errChan := none }
      | none => none
  | .quitLog daemon level => some { s.log level with main := .cancel daemon }
  | .cancel daemon => some { s with main := .waitDone daemon, cancelled := true }
  | .waitDone daemon => if s.wg = 0 then some { s with main := deferred daemon true } else none
  | .forceQuitLog daemon => some { s.log .error with main := deferred daemon false }
  | .deletePidFile wgDone => some { s.log .info with main := .close wgDone false }
  | .controlLog level err => some { s.log level with main := .close false err }
  | .close _ err => some { s.close with main := .returned err }
  | .returned true => some { s.log .error with exited := true }
  | .returned false => some { s with exited := true }
  | .action => none

/-- A step of the goroutine that runs `RunFunc`. -/
def nextRunFunc (ok : Bool) (level : Int) : Option App :=
  match s.runFunc with
  | .notStarted => none
  | .startLog => some { s.log .info with runFunc := .initLogger }
  | .initLogger =>
      if ok then some { s with runFunc := .spawnHttp, level } else some { s with runFunc := .sendErr true }
  | .spawnHttp => some { s with runFunc := .grpcLog, httpServer := .startLog, wg := s.wg + 1 }
  | .grpcLog => some { s.log .info with runFunc := .listen }
  | .listen =>
      if ok then some { s with runFunc := .serve, grpcStop := .waitCancel }
      else some { s with runFunc := .fatalLog }
  | .fatalLog => some { s.log .fatal with runFunc := .fatalClose }
  | .fatalClose => some { s.close with runFunc := .fatalExit }
  | .fatalExit => some { s with exited := true }
  | .serve => some { s with runFunc := .serverQuitLog (!ok) false }
  | .serverQuitLog err panicking =>
      some { s.log (if err then .error else .info) with
        runFunc := if panicking then .panicLog else .sendErr err }
  | .sendErr err =>
      if s.errChan.isSome then none else some { s with runFunc := .quitLog, errChan := some err }
  | .quitLog => some { s.log .info with runFunc := .wgDone }
  | .panicLog => some { s.log .error with runFunc := .panicSendErr }
  | .panicSendErr =>
      if s.errChan.isSome then none else some { s with runFunc := .wgDone, errChan := some true }
  | .wgDone => some { s with runFunc := .finished, wg := s.wg - 1 }
  | .finished => none

/-- `RunFunc` panics; the deferred log of the grpc server comes before the one of the panic. -/
def panicRunFunc : Option App :=
  match s.runFunc with
  | .initLogger | .spawnHttp | .grpcLog | .listen => some { s with runFunc := .panicLog }
  | .serve => some { s with runFunc := .serverQuitLog false true }
  | _ => none

/-- A step of the goroutine of the http server. -/
def nextHttpServer (ok : Bool) : Option App :=
  match s.httpServer with
  | .notStarted => none
  | .startLog => some { s.log .info with httpServer := .start }
  | .start => some { s with httpServer := if ok then .shutdownLog else .sendErr }
  | .sendErr =>
      if s.errChan.isSome then none else some { s with httpServer := .wgDone, errChan := some true }
  | .shutdownLog => some { s.log .info with httpServer := .wgDone }
  | .wgDone => some { s with httpServer := .finished, wg := s.wg - 1 }
  | .finished => none

/-- A step of the goroutine that stops the grpc server. -/
def nextGrpcStop : Option App :=
  match s.grpcStop with
  | .notStarted => none
  | .waitCancel => if s.cancelled then some { s with grpcStop := .tryLog } else none
  | .tryLog => some { s.log .info with grpcStop := .gracefulStop }
  | .gracefulStop => some { s with grpcStop := .doneLog }
  | .doneLog => some { s.log .info with grpcStop := .finished }
  | .finished => none

/-- What a label does while the process runs. -/
def next : Label → Option App
  | .serve daemon =>
      match s.main with
      | .action => some { s with main := if daemon then .daemonLog else .spawn false }
      | _ => none
  | .noServe log err =>
      match s.main, log with
      | .action, some level => some { s with main := .controlLog level err }
      | .action, none => some { s with main := .close false err }
      | _, _ => none
  | .main ok => s.nextMain ok
  | .signal =>
      match s.main with
      | .waitQuit daemon => some { s with main := .quitLog daemon .info }
      | _ => none
  | .timeout =>
      match s.main with
      | .waitDone daemon => some { s with main := .forceQuitLog daemon }
      | _ => none
  | .runFunc ok level => s.nextRunFunc ok level
  | .panic => s.panicRunFunc
  | .httpServer ok => s.nextHttpServer ok
  | .grpcStop => s.nextGrpcStop

/-- The service, from the start of the action on. -/
def system : TransitionSystem App Label where
  start := {}
  step s label := if s.exited then none else s.next label

/-- What a step does: the action, a signal or the end of the two seconds moves the main goroutine on, or a
goroutine goes on by itself. -/
inductive Effect (s : App) : Label → App → Prop
  | serve {daemon : Bool} (hpc : s.main = .action) :
      Effect s (.serve daemon) { s with main := if daemon then .daemonLog else .spawn false }
  | controlLog {level : LogLevel} {err : Bool} (hpc : s.main = .action) :
      Effect s (.noServe (some level) err) { s with main := .controlLog level err }
  | noServe {err : Bool} (hpc : s.main = .action) : Effect s (.noServe none err) { s with main := .close false err }
  | signal {daemon : Bool} (hpc : s.main = .waitQuit daemon) : Effect s .signal { s with main := .quitLog daemon .info }
  | timeout {daemon : Bool} (hpc : s.main = .waitDone daemon) :
      Effect s .timeout { s with main := .forceQuitLog daemon }
  | main {ok : Bool} {s' : App} (hstep : s.nextMain ok = some s') : Effect s (.main ok) s'
  | runFunc {ok : Bool} {level : Int} {s' : App} (hstep : s.nextRunFunc ok level = some s') :
      Effect s (.runFunc ok level) s'
  | panic {s' : App} (hstep : s.panicRunFunc = some s') : Effect s .panic s'
  | httpServer {ok : Bool} {s' : App} (hstep : s.nextHttpServer ok = some s') : Effect s (.httpServer ok) s'
  | grpcStop {s' : App} (hstep : s.nextGrpcStop = some s') : Effect s .grpcStop s'

theorem effect_of_next {s s' : App} {label : Label} (h : s.next label = some s') : Effect s label s' := by
  cases label with
  | serve daemon =>
      simp only [next] at h
      split at h
      · rename_i hpc
        exact Option.some.inj h ▸ .serve hpc
      · cases h
  | noServe log err =>
      simp only [next] at h
      split at h
      · rename_i hpc
        exact Option.some.inj h ▸ .controlLog hpc
      · rename_i hpc
        exact Option.some.inj h ▸ .noServe hpc
      · cases h
  | main ok => exact .main h
  | signal =>
      simp only [next] at h
      split at h
      · rename_i hpc
        exact Option.some.inj h ▸ .signal hpc
      · cases h
  | timeout =>
      simp only [next] at h
      split at h
      · rename_i hpc
        exact Option.some.inj h ▸ .timeout hpc
      · cases h
  | runFunc ok level => exact .runFunc h
  | panic => exact .panic h
  | httpServer ok => exact .httpServer h
  | grpcStop => exact .grpcStop h

/-- A step is one of a process that runs. -/
theorem effect_of_step {s s' : App} {label : Label} (h : system.step s label = some s') :
    s.exited = false ∧ Effect s label s' := by
  replace h : (if s.exited then none else s.next label) = some s' := h
  split at h
  case isTrue => cases h
  case isFalse hexited => exact ⟨by simpa using hexited, effect_of_next h⟩

end App

end ToyBox
