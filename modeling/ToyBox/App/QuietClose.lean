import ToyBox.App.Shutdown

/-! When the logger is closed at most once, with nothing sent to it afterwards. The main goroutine closes it
when the wait group is done or the time is over, but the goroutine that stops the grpc server is not in the
wait group, a failed `listen` closes the logger from the goroutine of `RunFunc`, and an error of the action
is logged after the deferred `Close`. -/

namespace ToyBox

open Logger (LogLevel)

namespace App

/-- The logger is closed at most once and gets nothing after that. -/
def Safe (s : App) : Prop := s.sentAfterClose = false ∧ s.closes ≤ 1

/-- Lines of a level do not pass the level check. -/
def Filtered (s : App) (level : LogLevel) : Prop := level.toInt < s.level

/-- With the channel closed, the goroutine logs nothing any more that passes the level check. One that
waits for room in `errChan` then waits forever. -/
def RunFunc.Quiet (s : App) : RunFunc → Prop
  | notStarted => True
  | spawnHttp => s.Filtered .error
  | grpcLog => s.Filtered .error
  | listen => s.Filtered .error
  | serve => s.Filtered .error
  | serverQuitLog err panicking => s.Filtered (if err || panicking then .error else .info)
  | sendErr _ => s.errChan.isSome ∨ s.Filtered .info
  | quitLog => s.Filtered .info
  | panicLog => s.Filtered .error
  | panicSendErr => True
  | wgDone => True
  | finished => True
  | _ => False

def HttpServer.Quiet (s : App) : HttpServer → Prop
  | startLog => s.Filtered .info
  | start => s.Filtered .info
  | shutdownLog => s.Filtered .info
  | _ => True

def GrpcStop.Quiet (s : App) : GrpcStop → Prop
  | notStarted => True
  | finished => True
  | _ => s.Filtered .info

/-- No goroutine has anything left to log that passes the level check. -/
structure Quiet (s : App) : Prop where
  runFunc : s.runFunc.Quiet s
  httpServer : s.httpServer.Quiet s
  grpcStop : s.grpcStop.Quiet s
  main : s.main = .returned true → s.Filtered .error

/-- The steps after which all is well: `listen` does not fail; the action returns no error that is logged;
when the main goroutine closes the logger, the goroutine that stops the grpc server is quiet, and, unless
the wait group is done, the other two are as well. -/
def ClosesQuietly (s : App) : Label → Prop
  | .main _ => ∀ wgDone err, s.main = .close wgDone err →
      (wgDone = true ∨ s.runFunc.Quiet s ∧ s.httpServer.Quiet s) ∧ s.grpcStop.Quiet s ∧
        (err = true → s.Filtered .error)
  | .runFunc ok _ => s.runFunc = .listen → ok = true
  | _ => True

/-! ### The wait group -/

/-- What the goroutine counts for in the wait group. -/
def RunFunc.count : RunFunc → Nat
  | notStarted => 0
  | finished => 0
  | _ => 1

def HttpServer.count : HttpServer → Nat
  | notStarted => 0
  | finished => 0
  | _ => 1

/-- The main goroutine has left `wait` because the wait group was done. -/
def Main.LeftDone : Main → Prop
  | deletePidFile wgDone => wgDone = true
  | close wgDone _ => wgDone = true
  | _ => False

/-- `Close` has been called by the main goroutine. -/
def Main.Returned : Main → Prop
  | returned _ => True
  | _ => False

/-- The main goroutine has not started the others. -/
def Main.BeforeSpawn : Main → Prop
  | action => True
  | daemonLog => True
  | writeServicePid => True
  | pidErrorLog => True
  | redirect => True
  | redirectErrorLog => True
  | spawn _ => True
  | _ => False

/-- The goroutine has not started the one of the http server. -/
def RunFunc.BeforeHttp : RunFunc → Prop
  | notStarted => True
  | startLog => True
  | initLogger => True
  | spawnHttp => True
  | _ => False

/-- The goroutine is not on its way to the `Close` of `Fatal`. -/
def RunFunc.NoFatal : RunFunc → Prop
  | fatalLog => False
  | fatalClose => False
  | fatalExit => False
  | _ => True

/-- What holds in the runs whose steps are as above. -/
structure Invariant (s : App) : Prop where
  wg : s.wg = s.runFunc.count + s.httpServer.count
  leftDone : s.main.LeftDone → s.wg = 0
  notStarted : s.main.BeforeSpawn → s.runFunc = .notStarted
  httpNotStarted : s.runFunc.BeforeHttp → s.httpServer = .notStarted
  noFatal : s.runFunc.NoFatal
  isOpen : s.closed = false → s.closes = 0 ∧ ¬s.main.Returned
  isClosed : s.closed = true → s.closes = 1 ∧ s.main.Returned
  quiet : s.closed = true → s.Quiet
  sent : s.sentAfterClose = false

theorem Invariant.safe {s : App} (h : Invariant s) : Safe s := by
  refine ⟨h.sent, ?_⟩
  cases hclosed : s.closed with
  | false =>
      have := (h.isOpen hclosed).1
      omega
  | true =>
      have := (h.isClosed hclosed).1
      omega

/-- A line that passes the level check on an open channel, or none that does, changes nothing here. -/
theorem log_eq {s : App} {level : LogLevel} (h : s.closed = true → s.Filtered level) :
    s.log level = s := by
  unfold log
  split
  · rfl
  · rename_i hlevel
    split
    · rename_i hclosed
      exact absurd (h hclosed) hlevel
    · rfl

variable {s s' : App}

/-- What passes no error passes no info. -/
theorem Filtered.info (h : s.Filtered .error) : s.Filtered .info := by
  unfold Filtered at h ⊢
  simp only [LogLevel.toInt] at h ⊢
  omega

theorem Filtered.of_error (h : s.Filtered .error) (err : Bool) :
    s.Filtered (if err then .error else .info) := by
  cases err with
  | true => exact h
  | false => exact h.info

theorem Filtered.info_of {err : Bool} (h : s.Filtered (if err then .error else .info)) :
    s.Filtered .info := by
  cases err with
  | true => exact Filtered.info h
  | false => exact h

/-- What waits for room in `errChan` goes on waiting. -/
theorem RunFunc.Quiet.mono_errChan {pc : RunFunc} {httpServer : HttpServer} {errChan : Option Bool}
    (h : pc.Quiet s) (hfull : s.errChan.isSome → errChan.isSome) :
    pc.Quiet { s with httpServer, errChan } := by
  cases pc with
  | sendErr err => exact h.imp_left hfull
  | _ => exact h

/-- A step while the channel is open. -/
theorem Invariant.stepOpen {t : App} (h : Invariant s) (hopen : s.closed = false)
    (hclosed : t.closed = false) (hwg : t.wg = t.runFunc.count + t.httpServer.count)
    (hleft : t.main.LeftDone → t.wg = 0) (hstarted : t.main.BeforeSpawn → t.runFunc = .notStarted)
    (hhttp : t.runFunc.BeforeHttp → t.httpServer = .notStarted) (hfatal : t.runFunc.NoFatal)
    (hreturned : ¬t.main.Returned) (hcloses : t.closes = s.closes := by rfl)
    (hsent : t.sentAfterClose = s.sentAfterClose := by rfl) : Invariant t where
  wg := hwg
  leftDone := hleft
  notStarted := hstarted
  httpNotStarted := hhttp
  noFatal := hfatal
  isOpen _ := ⟨hcloses.trans (h.isOpen hopen).1, hreturned⟩
  isClosed hclosed' := by
    rw [hclosed] at hclosed'
    cases hclosed'
  quiet hclosed' := by
    rw [hclosed] at hclosed'
    cases hclosed'
  sent := hsent.trans h.sent

/-- Until the main goroutine has closed the logger, it is open. -/
theorem Invariant.open_of_main (h : Invariant s) {pc : Main} (hpc : s.main = pc)
    (hmain : ¬pc.Returned) : s.closed = false := by
  by_contra hclosed
  have hreturned := (h.isClosed (Bool.not_eq_false _ ▸ hclosed)).2
  rw [hpc] at hreturned
  exact hmain hreturned

/-- A step of the main goroutine before it closes the logger. -/
theorem Invariant.setMain (h : Invariant s) {pc : Main} (hpc : s.main = pc) (hmain : ¬pc.Returned)
    (main : Main)
    {cancelled exited : Bool} {errChan : Option Bool} (hleft : main.LeftDone → s.wg = 0)
    (hstarted : main.BeforeSpawn → s.runFunc = .notStarted) (hreturned : ¬main.Returned) :
    Invariant { s with main, cancelled, exited, errChan } := by
  have hopen := h.open_of_main hpc hmain
  exact h.stepOpen hopen hopen h.wg hleft hstarted h.httpNotStarted h.noFatal hreturned

/-- The main goroutine logs a line before it closes the logger. -/
theorem log_of_main (h : Invariant s) {pc : Main} (hpc : s.main = pc) (hmain : ¬pc.Returned)
    (level : LogLevel) : s.log level = s := by
  apply log_eq
  intro hclosed
  rw [h.open_of_main hpc hmain] at hclosed
  cases hclosed

/-- The deferred `Close`. When the wait group is done, two of the goroutines have come to their end. -/
theorem Invariant.closeMain (h : Invariant s) {wgDone err : Bool} (hpc : s.main = .close wgDone err)
    (hquiet : wgDone = true ∨ s.runFunc.Quiet s ∧ s.httpServer.Quiet s)
    (hgrpc : s.grpcStop.Quiet s) (herr : err = true → s.Filtered .error) :
    Invariant { s.close with main := .returned err } := by
  have hopen : s.closed = false := h.open_of_main hpc id
  have hothers : s.runFunc.Quiet s ∧ s.httpServer.Quiet s := by
    rcases hquiet with hdone | hquiet
    · have hwg := h.leftDone (hpc ▸ hdone)
      rw [h.wg, Nat.add_eq_zero_iff] at hwg
      obtain ⟨hrun, hhttp⟩ := hwg
      constructor
      · cases hrunFunc : s.runFunc with
        | notStarted => trivial
        | finished => trivial
        | _ => rw [hrunFunc] at hrun; cases hrun
      · cases hhttpServer : s.httpServer with
        | notStarted => trivial
        | finished => trivial
        | _ => rw [hhttpServer] at hhttp; cases hhttp
    · exact hquiet
  refine ⟨h.wg, nofun, nofun, h.httpNotStarted, h.noFatal, nofun, fun _ => ⟨?_, trivial⟩, fun _ => ?_, h.sent⟩
  · show s.closes + 1 = 1
    rw [(h.isOpen hopen).1]
  · refine ⟨hothers.1, hothers.2, hgrpc, fun hreturned => ?_⟩
    cases hreturned
    exact herr rfl

theorem Invariant.main (h : Invariant s) {ok : Bool} (hguard : s.ClosesQuietly (.main ok))
    (hstep : s.nextMain ok = some s') : Invariant s' := by
  unfold nextMain at hstep
  cases hpc : s.main with
  | action =>
      simp only [hpc] at hstep
      cases hstep
  | daemonLog =>
      simp only [hpc, log_of_main h hpc id] at hstep
      cases hstep
      exact h.setMain hpc id .writeServicePid nofun (fun _ => h.notStarted (hpc ▸ trivial)) nofun
  | writeServicePid =>
      simp only [hpc] at hstep
      cases hstep
      refine h.setMain hpc id _ ?_ (fun _ => h.notStarted (hpc ▸ trivial)) ?_
      · cases ok <;> nofun
      · cases ok <;> nofun
  | pidErrorLog =>
      simp only [hpc, log_of_main h hpc id] at hstep
      cases hstep
      exact h.setMain hpc id .pidErrorLog nofun (fun _ => h.notStarted (hpc ▸ trivial)) nofun
  | redirect =>
      simp only [hpc] at hstep
      cases hstep
      refine h.setMain hpc id _ ?_ (fun _ => h.notStarted (hpc ▸ trivial)) ?_
      · cases ok <;> nofun
      · cases ok <;> nofun
  | redirectErrorLog =>
      simp only [hpc, log_of_main h hpc id] at hstep
      cases hstep
      exact h.setMain hpc id (.spawn true) nofun (fun _ => h.notStarted (hpc ▸ trivial)) nofun
  | spawn daemon =>
      have hnotStarted : s.runFunc = .notStarted := h.notStarted (hpc ▸ trivial)
      have hopen := h.open_of_main hpc id
      simp only [hpc] at hstep
      cases hstep
      have hhttp : s.httpServer = .notStarted := h.httpNotStarted (hnotStarted ▸ trivial)
      refine h.stepOpen hopen hopen ?_ nofun nofun (fun _ => hhttp) trivial nofun
      have hwg : s.wg = s.runFunc.count + s.httpServer.count := h.wg
      rw [hnotStarted, RunFunc.count] at hwg
      show s.wg + 1 = 1 + s.httpServer.count
      omega
  | waitQuit daemon =>
      simp only [hpc] at hstep
      split at hstep
      · cases hstep
        exact h.setMain hpc id _ nofun nofun nofun
      · cases hstep
        exact h.setMain hpc id _ nofun nofun nofun
      · cases hstep
  | quitLog daemon level =>
      simp only [hpc, log_of_main h hpc id] at hstep
      cases hstep
      exact h.setMain hpc id _ nofun nofun nofun
  | cancel daemon =>
      simp only [hpc] at hstep
      cases hstep
      exact h.setMain hpc id _ nofun nofun nofun
  | waitDone daemon =>
      simp only [hpc] at hstep
      split at hstep
      · rename_i hwg
        cases hstep
        refine h.setMain hpc id _ (fun _ => hwg) ?_ ?_
        · cases daemon <;> nofun
        · cases daemon <;> nofun
      · cases hstep
  | forceQuitLog daemon =>
      simp only [hpc, log_of_main h hpc id] at hstep
      cases hstep
      refine h.setMain hpc id _ ?_ ?_ ?_
      · cases daemon <;> nofun
      · cases daemon <;> nofun
      · cases daemon <;> nofun
  | deletePidFile wgDone =>
      simp only [hpc, log_of_main h hpc id] at hstep
      cases hstep
      exact h.setMain hpc id _ (fun hdone => h.leftDone (hpc ▸ hdone)) nofun nofun
  | controlLog level err =>
      simp only [hpc, log_of_main h hpc id] at hstep
      cases hstep
      exact h.setMain hpc id _ nofun nofun nofun
  | close wgDone err =>
      obtain ⟨hquiet, hgrpc, herr⟩ := hguard wgDone err hpc
      simp only [hpc] at hstep
      cases hstep
      exact h.closeMain hpc hquiet hgrpc herr
  | returned err =>
      have hexit : Invariant { s with main := .returned err, exited := true } := by
        rw [← hpc]
        exact ⟨h.wg, h.leftDone, h.notStarted, h.httpNotStarted, h.noFatal, h.isOpen, h.isClosed,
          fun hclosed => ⟨(h.quiet hclosed).1, (h.quiet hclosed).2, (h.quiet hclosed).3,
            (h.quiet hclosed).4⟩, h.sent⟩
      cases err with
      | true =>
          have hlog : s.log .error = s := log_eq fun hclosed => (h.quiet hclosed).main hpc
          simp only [hpc, hlog] at hstep
          exact Option.some.inj hstep ▸ hexit
      | false =>
          simp only [hpc] at hstep
          exact Option.some.inj hstep ▸ hexit

/-- A step of one of the other goroutines, which does not close the logger. -/
theorem Invariant.stepOther {t : App} (h : Invariant s)
    (hwg : t.wg = t.runFunc.count + t.httpServer.count) (hleft : s.wg = 0 → t.wg = 0)
    (hstarted : s.runFunc = .notStarted → t.runFunc = .notStarted)
    (hhttp : t.runFunc.BeforeHttp → t.httpServer = .notStarted) (hfatal : t.runFunc.NoFatal)
    (hquiet : s.Quiet → t.Quiet) (hmain : t.main = s.main := by rfl)
    (hclosed : t.closed = s.closed := by rfl) (hcloses : t.closes = s.closes := by rfl)
    (hsent : t.sentAfterClose = s.sentAfterClose := by rfl) : Invariant t where
  wg := hwg
  leftDone hmain' := hleft (h.leftDone (hmain ▸ hmain'))
  notStarted hmain' := hstarted (h.notStarted (hmain ▸ hmain'))
  httpNotStarted := hhttp
  noFatal := hfatal
  isOpen hopen := hmain ▸ hcloses ▸ h.isOpen (hclosed ▸ hopen)
  isClosed hclosed' := hmain ▸ hcloses ▸ h.isClosed (hclosed ▸ hclosed')
  quiet hclosed' := hquiet (h.quiet (hclosed ▸ hclosed'))
  sent := hsent.trans h.sent

/-- A step of the goroutine of `RunFunc` that changes only where it is, and what is in `errChan`. -/
theorem Invariant.setRunFunc (h : Invariant s) {pc : RunFunc} (hpc : s.runFunc = pc)
    (hstarted : pc ≠ .notStarted) (runFunc : RunFunc) {errChan : Option Bool}
    (hcount : runFunc.count = pc.count) (hhttp : runFunc.BeforeHttp → pc.BeforeHttp)
    (hfatal : runFunc.NoFatal)
    (hquiet : pc.Quiet s → runFunc.Quiet { s with runFunc, errChan }) :
    Invariant { s with runFunc, errChan } := by
  subst hpc
  refine h.stepOther ?_ id ?_ (fun hbefore => h.httpNotStarted (hhttp hbefore))
    hfatal ?_
  · show s.wg = runFunc.count + s.httpServer.count
    rw [hcount]
    exact h.wg
  · intro heq
    exact absurd heq hstarted
  · intro hq
    exact ⟨hquiet hq.runFunc, hq.httpServer, hq.grpcStop, hq.main⟩

/-- The goroutine of `RunFunc` logs a line that, with the channel closed, does not pass. -/
theorem log_of_runFunc (h : Invariant s) {pc : RunFunc} (hpc : s.runFunc = pc) {level : LogLevel}
    (hquiet : pc.Quiet s → s.Filtered level) : s.log level = s :=
  log_eq fun hclosed => hquiet (hpc ▸ (h.quiet hclosed).runFunc)

theorem Invariant.runFunc (h : Invariant s) {ok : Bool} {level : Int}
    (hguard : s.ClosesQuietly (.runFunc ok level)) (hstep : s.nextRunFunc ok level = some s') :
    Invariant s' := by
  have hwg := h.wg
  have hnoFatal := h.noFatal
  unfold nextRunFunc at hstep
  cases hpc : s.runFunc with
  | notStarted =>
      simp only [hpc] at hstep
      cases hstep
  | startLog =>
      simp only [hpc, log_of_runFunc h hpc False.elim] at hstep
      cases hstep
      exact h.setRunFunc hpc nofun .initLogger rfl id trivial id
  | initLogger =>
      simp only [hpc] at hstep
      split at hstep
      · cases hstep
        refine h.stepOther ?_ id (hpc ▸ nofun) ?_ trivial ?_
        · rw [hpc] at hwg
          exact hwg
        · intro _
          exact h.httpNotStarted (hpc ▸ trivial)
        · intro hq
          have hrun := hq.runFunc
          rw [hpc] at hrun
          exact hrun.elim
      · cases hstep
        exact h.setRunFunc hpc nofun (.sendErr true) rfl False.elim trivial False.elim
  | spawnHttp =>
      simp only [hpc] at hstep
      cases hstep
      refine h.stepOther ?_ ?_ (hpc ▸ nofun) nofun trivial ?_
      · rw [hpc, h.httpNotStarted (hpc ▸ trivial)] at hwg
        exact congrArg (· + 1) hwg
      · intro hzero
        rw [hpc] at hwg
        exact absurd (hwg.symm.trans hzero) (by simp [RunFunc.count])
      · intro hq
        have hrun := hq.runFunc
        rw [hpc] at hrun
        exact ⟨hrun, Filtered.info hrun, hq.grpcStop, hq.main⟩
  | grpcLog =>
      simp only [hpc, log_of_runFunc h hpc Filtered.info] at hstep
      cases hstep
      exact h.setRunFunc hpc nofun .listen rfl False.elim trivial id
  | listen =>
      simp only [hpc, if_pos (hguard hpc)] at hstep
      cases hstep
      refine h.stepOther ?_ id (hpc ▸ nofun) nofun trivial ?_
      · rw [hpc] at hwg
        exact hwg
      · intro hq
        have hrun := hq.runFunc
        rw [hpc] at hrun
        exact ⟨hrun, hq.httpServer, Filtered.info hrun, hq.main⟩
  | fatalLog =>
      rw [hpc] at hnoFatal
      exact hnoFatal.elim
  | fatalClose =>
      rw [hpc] at hnoFatal
      exact hnoFatal.elim
  | fatalExit =>
      rw [hpc] at hnoFatal
      exact hnoFatal.elim
  | serve =>
      simp only [hpc] at hstep
      cases hstep
      exact h.setRunFunc hpc nofun (.serverQuitLog (!ok) false) rfl False.elim trivial
        fun hq => hq.of_error _
  | serverQuitLog err panicking =>
      have hlog : s.log (if err then .error else .info) = s := by
        refine log_of_runFunc h hpc fun hq => ?_
        cases err with
        | true => exact hq
        | false => exact hq.info_of
      simp only [hpc, hlog] at hstep
      cases hstep
      cases panicking with
      | true =>
          refine h.setRunFunc hpc nofun .panicLog rfl False.elim trivial fun hq => ?_
          have herror : s.Filtered (if err || true then .error else .info) := hq
          rw [Bool.or_true] at herror
          exact herror
      | false =>
          exact h.setRunFunc hpc nofun (.sendErr err) rfl False.elim trivial
            fun hq => .inr hq.info_of
  | sendErr err =>
      simp only [hpc] at hstep
      split at hstep
      · cases hstep
      · rename_i hfull
        cases hstep
        exact h.setRunFunc hpc nofun .quitLog rfl False.elim trivial fun hq => hq.resolve_left hfull
  | quitLog =>
      simp only [hpc, log_of_runFunc h hpc id] at hstep
      cases hstep
      exact h.setRunFunc hpc nofun .wgDone rfl False.elim trivial fun _ => trivial
  | panicLog =>
      simp only [hpc, log_of_runFunc h hpc id] at hstep
      cases hstep
      exact h.setRunFunc hpc nofun .panicSendErr rfl False.elim trivial fun _ => trivial
  | panicSendErr =>
      simp only [hpc] at hstep
      split at hstep
      · cases hstep
      · cases hstep
        exact h.setRunFunc hpc nofun .wgDone rfl False.elim trivial fun _ => trivial
  | wgDone =>
      simp only [hpc] at hstep
      cases hstep
      refine h.stepOther ?_ ?_ (hpc ▸ nofun) nofun trivial ?_
      · rw [hpc] at hwg
        show s.wg - 1 = 0 + s.httpServer.count
        replace hwg : s.wg = 1 + s.httpServer.count := hwg
        omega
      · intro hzero
        show s.wg - 1 = 0
        rw [hzero]
      · intro hq
        exact ⟨trivial, hq.httpServer, hq.grpcStop, hq.main⟩
  | finished =>
      simp only [hpc] at hstep
      cases hstep

theorem Invariant.panic (h : Invariant s) (hstep : s.panicRunFunc = some s') : Invariant s' := by
  unfold panicRunFunc at hstep
  cases hpc : s.runFunc with
  | initLogger =>
      simp only [hpc] at hstep
      cases hstep
      exact h.setRunFunc hpc nofun .panicLog rfl False.elim trivial False.elim
  | spawnHttp =>
      simp only [hpc] at hstep
      cases hstep
      exact h.setRunFunc hpc nofun .panicLog rfl False.elim trivial id
  | grpcLog =>
      simp only [hpc] at hstep
      cases hstep
      exact h.setRunFunc hpc nofun .panicLog rfl False.elim trivial id
  | listen =>
      simp only [hpc] at hstep
      cases hstep
      exact h.setRunFunc hpc nofun .panicLog rfl False.elim trivial id
  | serve =>
      simp only [hpc] at hstep
      cases hstep
      exact h.setRunFunc hpc nofun (.serverQuitLog false true) rfl False.elim trivial id
  | _ =>
      simp only [hpc] at hstep
      cases hstep

/-- A step of the http server, which may put an error in `errChan`. -/
theorem Invariant.setHttpServer (h : Invariant s) {pc : HttpServer} (hpc : s.httpServer = pc)
    (hstarted : pc ≠ .notStarted) (httpServer : HttpServer) {errChan : Option Bool}
    (hcount : httpServer.count = pc.count) (hfull : s.errChan.isSome → errChan.isSome)
    (hquiet : pc.Quiet s → httpServer.Quiet s) : Invariant { s with httpServer, errChan } := by
  subst hpc
  refine h.stepOther ?_ id id ?_ h.noFatal ?_
  · show s.wg = s.runFunc.count + httpServer.count
    rw [hcount]
    exact h.wg
  · intro hbefore
    exact absurd (h.httpNotStarted hbefore) hstarted
  · intro hq
    exact ⟨hq.runFunc.mono_errChan hfull, hquiet hq.httpServer, hq.grpcStop, hq.main⟩

/-- The goroutine of the http server logs a line that, with the channel closed, does not pass. -/
theorem log_of_httpServer (h : Invariant s) {pc : HttpServer} (hpc : s.httpServer = pc)
    {level : LogLevel} (hquiet : pc.Quiet s → s.Filtered level) : s.log level = s :=
  log_eq fun hclosed => hquiet (hpc ▸ (h.quiet hclosed).httpServer)

theorem Invariant.httpServer (h : Invariant s) {ok : Bool} (hstep : s.nextHttpServer ok = some s') :
    Invariant s' := by
  have hwg := h.wg
  unfold nextHttpServer at hstep
  cases hpc : s.httpServer with
  | notStarted =>
      simp only [hpc] at hstep
      cases hstep
  | startLog =>
      simp only [hpc, log_of_httpServer h hpc id] at hstep
      cases hstep
      exact h.setHttpServer hpc nofun .start rfl id id
  | start =>
      simp only [hpc] at hstep
      cases hstep
      cases ok with
      | true => exact h.setHttpServer hpc nofun .shutdownLog rfl id id
      | false => exact h.setHttpServer hpc nofun .sendErr rfl id fun _ => trivial
  | sendErr =>
      simp only [hpc] at hstep
      split at hstep
      · cases hstep
      · cases hstep
        exact h.setHttpServer hpc nofun .wgDone rfl (fun _ => rfl) fun _ => trivial
  | shutdownLog =>
      simp only [hpc, log_of_httpServer h hpc id] at hstep
      cases hstep
      exact h.setHttpServer hpc nofun .wgDone rfl id fun _ => trivial
  | wgDone =>
      simp only [hpc] at hstep
      cases hstep
      refine h.stepOther ?_ ?_ id ?_ h.noFatal ?_
      · show s.wg - 1 = s.runFunc.count + 0
        rw [hpc] at hwg
        replace hwg : s.wg = s.runFunc.count + 1 := hwg
        omega
      · intro hzero
        show s.wg - 1 = 0
        rw [hzero]
      · intro hbefore
        exact absurd (h.httpNotStarted hbefore) (hpc ▸ nofun)
      · intro hq
        exact ⟨hq.runFunc, trivial, hq.grpcStop, hq.main⟩
  | finished =>
      simp only [hpc] at hstep
      cases hstep

theorem Invariant.setGrpcStop (h : Invariant s) {pc : GrpcStop} (hpc : s.grpcStop = pc)
    (grpcStop : GrpcStop) (hquiet : pc.Quiet s → grpcStop.Quiet s) :
    Invariant { s with grpcStop } := by
  subst hpc
  refine h.stepOther h.wg id id h.httpNotStarted h.noFatal ?_
  intro hq
  exact ⟨hq.runFunc, hq.httpServer, hquiet hq.grpcStop, hq.main⟩

theorem log_of_grpcStop (h : Invariant s) {pc : GrpcStop} (hpc : s.grpcStop = pc) {level : LogLevel}
    (hquiet : pc.Quiet s → s.Filtered level) : s.log level = s :=
  log_eq fun hclosed => hquiet (hpc ▸ (h.quiet hclosed).grpcStop)

theorem Invariant.grpcStop (h : Invariant s) (hstep : s.nextGrpcStop = some s') : Invariant s' := by
  unfold nextGrpcStop at hstep
  cases hpc : s.grpcStop with
  | notStarted =>
      simp only [hpc] at hstep
      cases hstep
  | waitCancel =>
      simp only [hpc] at hstep
      split at hstep
      · cases hstep
        exact h.setGrpcStop hpc .tryLog id
      · cases hstep
  | tryLog =>
      simp only [hpc, log_of_grpcStop h hpc id] at hstep
      cases hstep
      exact h.setGrpcStop hpc .gracefulStop id
  | gracefulStop =>
      simp only [hpc] at hstep
      cases hstep
      exact h.setGrpcStop hpc .doneLog id
  | doneLog =>
      simp only [hpc, log_of_grpcStop h hpc id] at hstep
      cases hstep
      exact h.setGrpcStop hpc .finished fun _ => trivial
  | finished =>
      simp only [hpc] at hstep
      cases hstep

/-- Every step that meets the guard keeps the invariant. -/
theorem Invariant.effect (h : Invariant s) {label : Label} (hguard : s.ClosesQuietly label)
    (heffect : Effect s label s') : Invariant s' := by
  cases heffect with
  | @serve daemon hpc =>
      refine h.setMain hpc id _ ?_ (fun _ => h.notStarted (hpc ▸ trivial)) ?_
      · cases daemon <;> nofun
      · cases daemon <;> nofun
  | controlLog hpc => exact h.setMain hpc id _ nofun nofun nofun
  | noServe hpc => exact h.setMain hpc id _ nofun nofun nofun
  | signal hpc => exact h.setMain hpc id _ nofun nofun nofun
  | timeout hpc => exact h.setMain hpc id _ nofun nofun nofun
  | main hstep => exact h.main hguard hstep
  | runFunc hstep => exact h.runFunc hguard hstep
  | panic hstep => exact h.panic hstep
  | httpServer hstep => exact h.httpServer hstep
  | grpcStop hstep => exact h.grpcStop hstep

theorem Invariant.start : Invariant {} :=
  ⟨rfl, nofun, fun _ => rfl, fun _ => rfl, trivial, fun _ => ⟨rfl, nofun⟩, nofun, nofun, rfl⟩

/-- In every run whose steps all meet the guard, nothing is logged after `Close`, which is called at most
once. -/
theorem safe_of_closesQuietly (hs : system.ReachableBy ClosesQuietly s) : Safe s := by
  have hinv : Invariant s := hs.invariant Invariant.start fun _ _ _ _ ih hguard hstep =>
    ih.effect hguard (effect_of_step hstep).2
  exact hinv.safe

/-- A test for the guard: no `listen` fails, and the logger is closed when the wait group is done and the goroutine
outside of it has come to its end. -/
def closesAtEnd (s : App) : Label → Bool
  | .main _ =>
      match s.main, s.grpcStop with
      | .close wgDone err, .finished => wgDone && !err
      | .close _ _, _ => false
      | _, _ => true
  | .runFunc ok _ => ok
  | _ => true

theorem closesQuietly_of_closesAtEnd (s : App) (label : Label) (h : s.closesAtEnd label = true) :
    s.ClosesQuietly label := by
  cases label with
  | main ok =>
      intro wgDone err hmain
      rw [closesAtEnd, hmain] at h
      cases hpc : s.grpcStop with
      | finished =>
          rw [hpc] at h
          obtain ⟨rfl, rfl⟩ : wgDone = true ∧ err = false := by simpa using h
          exact ⟨.inl rfl, trivial, by simp⟩
      | _ =>
          rw [hpc] at h
          cases h
  | runFunc ok level => exact fun _ => h
  | _ => trivial

/-- A service is told to quit by a signal, and the goroutine that stops the grpc server is faster than the others. -/
def gracefulStopLogsEarly : List Label :=
  [.serve false, .main true] ++ List.replicate 5 (.runFunc true 0) ++
    [.httpServer true, .signal, .main true, .main true] ++ List.replicate 4 .grpcStop ++
    List.replicate 5 (.runFunc true 0) ++ List.replicate 3 (.httpServer true) ++ List.replicate 3 (.main true)

theorem safe_of_closesQuietly_gracefulStopLogsEarly :
    ∃ s, system.run system.start gracefulStopLogsEarly = some s ∧ system.ReachableBy ClosesQuietly s ∧
      s.httpServer = .finished ∧ s.grpcStop = .finished ∧ s.closes = 1 ∧ s.exited = true ∧ Safe s := by
  obtain ⟨s, hrun, htest, hhttp, hgrpc, hcloses, hexited⟩ :
      ∃ s, system.run system.start gracefulStopLogsEarly = some s ∧
        system.runIf closesAtEnd system.start gracefulStopLogsEarly = some s ∧ s.httpServer = .finished ∧
        s.grpcStop = .finished ∧ s.closes = 1 ∧ s.exited = true := ⟨_, rfl, rfl, rfl, rfl, rfl, rfl⟩
  have hs : system.ReachableBy ClosesQuietly s := .runIf closesQuietly_of_closesAtEnd .start htest
  exact ⟨s, hrun, hs, hhttp, hgrpc, hcloses, hexited, safe_of_closesQuietly hs⟩

/-- After a signal the grpc server has stopped, the goroutines in the wait group have come to their end, and
the logger is closed before the goroutine that has stopped the grpc server logs that this is done. -/
def gracefulStopLogsLate : List Label :=
  [.serve false, .main true,
    .runFunc true 0, .runFunc true 0, .runFunc true 0, .runFunc true 0, .runFunc true 0,
    .httpServer true,
    .signal, .main true, .main true,
    .grpcStop, .grpcStop, .grpcStop,
    .runFunc true 0, .runFunc true 0, .runFunc true 0, .runFunc true 0, .runFunc true 0,
    .httpServer true, .httpServer true, .httpServer true,
    .main true, .main true,
    .grpcStop]

theorem not_safe_gracefulStopLogsLate : ¬∀ s, system.Reachable s → Safe s := by
  intro hsafe
  obtain ⟨s, hrun, hsent⟩ : ∃ s, system.run system.start gracefulStopLogsLate = some s ∧
      s.sentAfterClose = true := ⟨_, rfl, rfl⟩
  have hs := hsafe s (TransitionSystem.reachable_of_run hrun)
  rw [hs.1] at hsent
  cases hsent

end App

end ToyBox
