import ToyBox.App.Service

/-! How the life of a service goes on and how it ends. No goroutine goes back, so that a run is short. A service that
cannot go on by itself, with all calls going well, has exited or is serving: the forced quit after two seconds is
needed only where a signal comes and the http server fails too. -/

namespace ToyBox

namespace App

/-! ### No goroutine goes back -/

/-- The steps that the main goroutine has before it, with those of the goroutine it starts. -/
def Main.rank : Main → Nat
  | action => 34
  | daemonLog => 33
  | writeServicePid => 32
  | pidErrorLog => 0
  | redirect => 31
  | redirectErrorLog => 30
  | spawn _ => 29
  | waitQuit _ => 7
  | quitLog _ _ => 6
  | cancel _ => 5
  | waitDone _ => 4
  | forceQuitLog _ => 3
  | deletePidFile _ => 2
  | controlLog _ _ => 2
  | close _ _ => 1
  | returned _ => 0

def RunFunc.rank : RunFunc → Nat
  | notStarted => 0
  | startLog => 21
  | initLogger => 20
  | spawnHttp => 19
  | grpcLog => 14
  | listen => 13
  | serve => 8
  | serverQuitLog _ _ => 7
  | panicLog => 6
  | panicSendErr => 5
  | sendErr _ => 4
  | quitLog => 3
  | wgDone => 2
  | fatalLog => 2
  | fatalClose => 1
  | fatalExit => 0
  | finished => 0

def HttpServer.rank : HttpServer → Nat
  | notStarted => 0
  | startLog => 4
  | start => 3
  | sendErr => 2
  | shutdownLog => 2
  | wgDone => 1
  | finished => 0

def GrpcStop.rank : GrpcStop → Nat
  | notStarted => 0
  | waitCancel => 4
  | tryLog => 3
  | gracefulStop => 2
  | doneLog => 1
  | finished => 0

/-- What the goroutines have before them. -/
def rank (s : App) : Nat := s.main.rank + s.runFunc.rank + s.httpServer.rank + s.grpcStop.rank

variable {s s' : App} {label : Label}

theorem Main.Next.rank_lt {ok : Bool} {pc pc' : Main} (h : pc.Next ok pc') : pc'.rank < pc.rank := by
  cases h with
  | writeServicePid => cases ok <;> simp [Main.rank]
  | redirect => cases ok <;> simp [Main.rank]
  | @forceQuitLog daemon => cases daemon <;> simp [Main.rank, deferred]
  | _ => simp [Main.rank]

theorem RunFunc.Next.rank_lt {ok : Bool} {pc pc' : RunFunc} (h : pc.Next ok pc') : pc'.rank < pc.rank := by
  cases h with
  | @serverQuitLog _ err panicking => cases panicking <;> simp [RunFunc.rank]
  | _ => simp [RunFunc.rank]

theorem RunFunc.Panics.rank_lt {pc pc' : RunFunc} (h : pc.Panics pc') : pc'.rank < pc.rank := by
  cases h <;> simp [RunFunc.rank]

theorem HttpServer.Next.rank_lt {ok : Bool} {pc pc' : HttpServer} (h : pc.Next ok pc') : pc'.rank < pc.rank := by
  cases h with
  | start => cases ok <;> simp [HttpServer.rank]
  | _ => simp [HttpServer.rank]

theorem GrpcStop.Next.rank_lt {cancelled : Bool} {pc pc' : GrpcStop} (h : pc.Next cancelled pc') :
    pc'.rank < pc.rank := by
  cases h <;> simp [GrpcStop.rank]

/-- One of the goroutines goes on, and the others are where they were. -/
theorem rank_lt_of_main {t : App} (hlt : t.main.rank < s.main.rank) (hrunFunc : t.runFunc = s.runFunc := by rfl)
    (hhttp : t.httpServer = s.httpServer := by rfl) (hgrpc : t.grpcStop = s.grpcStop := by rfl) :
    t.rank < s.rank := by
  rw [rank, rank, hrunFunc, hhttp, hgrpc]
  omega

theorem rank_lt_of_runFunc {t : App} (hlt : t.runFunc.rank < s.runFunc.rank) (hmain : t.main = s.main := by rfl)
    (hhttp : t.httpServer = s.httpServer := by rfl) (hgrpc : t.grpcStop = s.grpcStop := by rfl) :
    t.rank < s.rank := by
  rw [rank, rank, hmain, hhttp, hgrpc]
  omega

theorem rank_lt_of_httpServer {t : App} (hlt : t.httpServer.rank < s.httpServer.rank)
    (hmain : t.main = s.main := by rfl) (hrunFunc : t.runFunc = s.runFunc := by rfl)
    (hgrpc : t.grpcStop = s.grpcStop := by rfl) : t.rank < s.rank := by
  rw [rank, rank, hmain, hrunFunc, hgrpc]
  omega

theorem Moves.rank_lt (hmoves : Moves s label s') : s'.rank < s.rank := by
  cases hmoves with
  | @serve daemon hpc => cases daemon <;> exact rank_lt_of_main (by simp [hpc, Main.rank])
  | noServeLog hpc => exact rank_lt_of_main (by simp [hpc, Main.rank])
  | noServe hpc => exact rank_lt_of_main (by simp [hpc, Main.rank])
  | signal hpc => exact rank_lt_of_main (by simp [hpc, Main.rank])
  | timeout hpc => exact rank_lt_of_main (by simp [hpc, Main.rank])
  | main hnext => exact rank_lt_of_main hnext.rank_lt
  | spawn hpc =>
      rw [rank, rank, hpc]
      show 7 + 21 + s.httpServer.rank + s.grpcStop.rank <
        29 + s.runFunc.rank + s.httpServer.rank + s.grpcStop.rank
      omega
  | @receive _ daemon err hpc herr => cases err <;> exact rank_lt_of_main (by simp [hpc, Main.rank])
  | cancel hpc => exact rank_lt_of_main (by simp [hpc, Main.rank])
  | @waitDone _ daemon hpc hwg => cases daemon <;> exact rank_lt_of_main (by simp [hpc, Main.rank, deferred])
  | close hpc hopen => exact rank_lt_of_main (by simp [hpc, Main.rank])
  | runFunc hnext => exact rank_lt_of_runFunc hnext.rank_lt
  | initLogger hpc => exact rank_lt_of_runFunc (by simp [hpc, RunFunc.rank])
  | spawnHttp hpc =>
      rw [rank, rank, hpc]
      show s.main.rank + 14 + 4 + s.grpcStop.rank < s.main.rank + 19 + s.httpServer.rank + s.grpcStop.rank
      omega
  | listen hpc =>
      rw [rank, rank, hpc]
      show s.main.rank + 8 + s.httpServer.rank + 4 < s.main.rank + 13 + s.httpServer.rank + s.grpcStop.rank
      omega
  | fatalClose hpc hopen => exact rank_lt_of_runFunc (by simp [hpc, RunFunc.rank])
  | sendErr hpc hroom => exact rank_lt_of_runFunc (by simp [hpc, RunFunc.rank])
  | panicSendErr hpc hroom => exact rank_lt_of_runFunc (by simp [hpc, RunFunc.rank])
  | wgDone hpc => exact rank_lt_of_runFunc (by simp [hpc, RunFunc.rank])
  | panic hpanics => exact rank_lt_of_runFunc hpanics.rank_lt
  | httpServer hnext => exact rank_lt_of_httpServer hnext.rank_lt
  | httpSendErr hpc hroom => exact rank_lt_of_httpServer (by simp [hpc, HttpServer.rank])
  | httpWgDone hpc => exact rank_lt_of_httpServer (by simp [hpc, HttpServer.rank])
  | grpcStop hnext => exact Nat.add_lt_add_left hnext.rank_lt _

/-! ### Where a goroutine cannot go on -/

theorem nextMain_eq_none (h : s.nextMain true = none) :
    s.main = .action ∨ (∃ daemon, s.main = .waitQuit daemon ∧ s.errChan = none) ∨
      ∃ daemon, s.main = .waitDone daemon ∧ s.wg ≠ 0 := by
  unfold nextMain at h
  split at h
  case h_7 daemon hpc =>
    split at h
    · cases h
    · cases h
    · exact .inr (.inl ⟨daemon, hpc, ‹_›⟩)
  case h_10 daemon hpc =>
    split at h
    case isTrue => cases h
    case isFalse hwg => exact .inr (.inr ⟨daemon, hpc, hwg⟩)
  case h_17 hpc => exact .inl hpc
  all_goals cases h

theorem nextRunFunc_eq_none {level : Int} (h : s.nextRunFunc true level = none) :
    s.runFunc.count = 0 ∨ (s.runFunc.Sending ∧ s.errChan.isSome) := by
  unfold nextRunFunc at h
  split at h
  case h_1 hpc => exact .inl (hpc ▸ rfl)
  case h_12 hpc =>
    split at h
    case isTrue hfull => exact .inr ⟨hpc ▸ trivial, hfull⟩
    case isFalse => cases h
  case h_15 hpc =>
    split at h
    case isTrue hfull => exact .inr ⟨hpc ▸ trivial, hfull⟩
    case isFalse => cases h
  case h_17 hpc => exact .inl (hpc ▸ rfl)
  all_goals cases h

theorem nextHttpServer_eq_none (h : s.nextHttpServer true = none) :
    s.httpServer.count = 0 ∨ (s.httpServer = .sendErr ∧ s.errChan.isSome) := by
  unfold nextHttpServer at h
  split at h
  case h_1 hpc => exact .inl (hpc ▸ rfl)
  case h_4 hpc =>
    split at h
    case isTrue hfull => exact .inr ⟨hpc, hfull⟩
    case isFalse => cases h
  case h_7 hpc => exact .inl (hpc ▸ rfl)
  all_goals cases h

theorem nextGrpcStop_eq_none (h : s.nextGrpcStop = none) :
    s.grpcStop = .notStarted ∨ (s.grpcStop = .waitCancel ∧ s.cancelled = false) ∨ s.grpcStop = .finished := by
  unfold nextGrpcStop at h
  split at h
  case h_1 hpc => exact .inl hpc
  case h_2 hpc =>
    split at h
    case isTrue => cases h
    case isFalse hcancelled => exact .inr (.inl ⟨hpc, by simpa using hcancelled⟩)
  case h_6 hpc => exact .inr (.inr hpc)
  all_goals cases h

theorem RunFunc.eq_of_count {pc : RunFunc} (h : pc.count = 0) : pc = .notStarted ∨ pc = .finished := by
  cases pc <;> first | exact .inl rfl | exact .inr rfl | cases h

theorem HttpServer.eq_of_count {pc : HttpServer} (h : pc.count = 0) : pc = .notStarted ∨ pc = .finished := by
  cases pc <;> first | exact .inl rfl | exact .inr rfl | cases h

end App

open App

namespace Service

/-- What `Start` and its goroutines have before them. -/
def Start.rank : Start → Nat
  | notCalled => 5
  | receive => 0
  | returned => 0

def Closer.rank : Closer → Nat
  | notStarted => 0
  | waitCancel => 2
  | send _ => 1
  | finished => 0

def Listener.rank : Listener → Nat
  | notStarted => 0
  | listenAndServe => 2
  | send => 1
  | finished => 0

/-- How many steps there may still be. -/
def measure (s : Service) : Nat :=
  if s.app.exited then 0 else s.app.rank + s.httpStart.rank + s.closer.rank + s.listener.rank + 1

variable {s s' : Service} {label : Label}

theorem measure_lt (hstep : system.step s label = some s') : s'.measure < s.measure := by
  obtain ⟨hruns, heffect⟩ := effect_of_step hstep
  cases hruns' : s'.app.exited with
  | true =>
      rw [measure, measure, if_pos hruns', hruns, if_neg nofun]
      exact Nat.succ_pos _
  | false =>
      rw [measure, measure, hruns, hruns', if_neg nofun, if_neg nofun]
      refine Nat.succ_lt_succ ?_
      cases heffect with
      | app hallows hnext =>
          have hlt := (moves_of_next hnext hruns').rank_lt
          exact Nat.add_lt_add_right (Nat.add_lt_add_right (Nat.add_lt_add_right hlt _) _) _
      | start hpc hstart =>
          rw [hstart]
          show s.app.rank + 0 + 2 + 2 < s.app.rank + 5 + s.closer.rank + s.listener.rank
          omega
      | close hpc hcancelled =>
          rw [hpc]
          show s.app.rank + s.httpStart.rank + 1 + s.listener.rank < s.app.rank + s.httpStart.rank + 2 + s.listener.rank
          omega
      | closed hpc hclosed =>
          rw [hpc]
          exact Nat.add_lt_add_left (show 0 < 2 by omega) _
      | failed hpc =>
          rw [hpc]
          exact Nat.add_lt_add_left (show 1 < 2 by omega) _
      | @receiveClose err hpc hstart hsend =>
          have hlt : App.rank { s.app with httpServer := if err then .sendErr else .shutdownLog } < s.app.rank := by
            cases err <;> exact rank_lt_of_httpServer (by simp [hpc, HttpServer.rank])
          rw [hstart, hsend]
          exact Nat.add_lt_add_right (Nat.lt_succ_of_lt hlt) _
      | receiveListen hpc hstart hsend =>
          have hlt : App.rank { s.app with httpServer := .sendErr } < s.app.rank :=
            rank_lt_of_httpServer (by simp [hpc, HttpServer.rank])
          rw [hstart, hsend]
          exact Nat.lt_succ_of_lt (Nat.add_lt_add_right hlt _)

/-- Every step lowers the measure. -/
theorem length_add_measure_le {labels : List Label} (hrun : system.run s labels = some s') :
    labels.length + s'.measure ≤ s.measure := by
  have hle := TransitionSystem.length_le_measure (P := fun _ => True) measure (fun _ => false) 0
    (fun _ _ _ _ _ => trivial) (fun _ _ _ _ hfree => absurd hfree nofun) (fun _ _ _ _ _ _ hstep => measure_lt hstep)
    trivial (fun _ _ => (trivial : True)) hrun
  have hcount : labels.countP (fun _ => false) = 0 := congrFun List.countP_false labels
  omega

/-- A service takes no more than forty steps. -/
theorem length_le (labels : List Label) (hrun : system.run system.start labels = some s) : labels.length ≤ 40 := by
  have hle := length_add_measure_le hrun
  have hstart : measure system.start = 40 := rfl
  omega

theorem measure_le {guard : Service → Label → Prop} (hs : system.ReachableBy guard s) : s.measure ≤ 40 :=
  hs.invariant (P := fun s => s.measure ≤ 40) (Nat.le_refl 40) fun _ _ _ _ ih _ hstep =>
    Nat.le_trans (Nat.le_of_lt (measure_lt hstep)) ih

/-! ### Where the service cannot go on -/

/-- A signal comes, `RunFunc` panics, or a call fails that the service does not go on without. -/
def Label.Trouble : Label → Prop
  | .app .signal => True
  | .app .panic => True
  | .app (.runFunc ok _) => ok = false
  | .close ok => ok = false
  | .listenAndServe serverClosed => serverClosed = false
  | _ => False

/-- The http server fails to serve, or to close. -/
def Label.HttpFails : Label → Prop
  | .close ok => ok = false
  | .listenAndServe serverClosed => serverClosed = false
  | _ => False

/-- Both servers serve, and the others wait for the context or for an error. -/
structure Serving (s : Service) : Prop where
  main : ∃ daemon, s.app.main = .waitQuit daemon
  errChan : s.app.errChan = none
  cancelled : s.app.cancelled = false
  runFunc : s.app.runFunc = .serve
  grpcStop : s.app.grpcStop = .waitCancel
  httpServer : s.app.httpServer = .start
  httpStart : s.httpStart = .receive
  closer : s.closer = .waitCancel
  listener : s.listener = .listenAndServe

/-- The service does nothing by itself, with all calls going well, before the two seconds are over. -/
def Idle (s : Service) : Prop :=
  ∀ label : Label, ¬label.Trouble → label ≠ .app .timeout → system.step s label = none

theorem step_eq (hruns : s.app.exited = false) (label : Label) : system.step s label = s.next label := by
  show (if s.app.exited then none else s.next label) = s.next label
  rw [hruns, if_neg nofun]

theorem Idle.app (h : s.Idle) (label : App.Label) (hruns : s.app.exited = false)
    (hlabel : ¬(Label.app label).Trouble) (htimeout : label ≠ .timeout) (hallows : s.app.allows label = true) :
    s.app.next label = none := by
  have hnone := h (.app label) hlabel (fun heq => htimeout (Label.app.inj heq))
  rw [step_eq hruns, next, if_pos hallows] at hnone
  cases hnext : s.app.next label with
  | none => rfl
  | some app =>
      rw [hnext] at hnone
      cases hnone

theorem Idle.main (h : s.Idle) (hruns : s.app.exited = false) :
    (∃ daemon, s.app.main = .waitQuit daemon ∧ s.app.errChan = none) ∨
      ∃ daemon, s.app.main = .waitDone daemon ∧ s.app.wg ≠ 0 := by
  rcases nextMain_eq_none (h.app (.main true) hruns id nofun rfl) with haction | hrest
  · have hserve := h.app (.serve true) hruns id nofun rfl
    rw [App.next, haction] at hserve
    cases hserve
  · exact hrest

theorem Idle.runFunc (h : s.Idle) (hruns : s.app.exited = false) :
    s.app.runFunc.count = 0 ∨ (s.app.runFunc.Sending ∧ s.app.errChan.isSome) ∨
      (s.app.runFunc = .serve ∧ s.app.grpcStop.called = false) := by
  cases hallows : s.app.allows (.runFunc true 0) with
  | true =>
      have hnone := h.app (.runFunc true 0) hruns nofun nofun hallows
      exact (nextRunFunc_eq_none hnone).imp_right .inl
  | false =>
      rw [allows] at hallows
      split at hallows
      · exact .inr (.inr ⟨‹_›, hallows⟩)
      · cases hallows

theorem Idle.httpServer (h : s.Idle) (hruns : s.app.exited = false) :
    s.app.httpServer.count = 0 ∨ (s.app.httpServer = .sendErr ∧ s.app.errChan.isSome) ∨
      s.app.httpServer = .start := by
  cases hallows : s.app.allows (.httpServer true) with
  | true =>
      have hnone := h.app (.httpServer true) hruns id nofun hallows
      exact (nextHttpServer_eq_none hnone).imp_right .inl
  | false =>
      rw [allows] at hallows
      split at hallows
      · exact .inr (.inr ‹_›)
      · cases hallows

theorem Idle.grpcStop (h : s.Idle) (hruns : s.app.exited = false) :
    s.app.grpcStop = .notStarted ∨ (s.app.grpcStop = .waitCancel ∧ s.app.cancelled = false) ∨
      s.app.grpcStop = .finished :=
  nextGrpcStop_eq_none (h.app .grpcStop hruns id nofun rfl)

/-- In `Start`, what an idle service is waiting for is that the context is cancelled. -/
theorem Idle.start (h : s.Idle) (hruns : s.app.exited = false) (hwired : s.Wired) (hpc : s.app.httpServer = .start) :
    s.app.cancelled = false ∧ s.httpStart = .receive ∧ s.closer = .waitCancel ∧ s.listener = .listenAndServe := by
  have hstart : s.httpStart = .receive := by
    cases hstart : s.httpStart with
    | receive => rfl
    | notCalled =>
        have hnone := h .start id (by simp)
        rw [step_eq hruns, next, hpc, hstart] at hnone
        cases hnone
    | returned =>
        have hleft := hwired.returned hstart
        rw [hpc] at hleft
        exact hleft.elim
  have hcloser : s.closer = .waitCancel := by
    rcases hwired.closing hstart with hwait | ⟨err, hsend⟩
    · exact hwait
    · have hnone := h .receiveClose id (by simp)
      rw [step_eq hruns, next, hpc, hstart, hsend] at hnone
      cases hnone
  have hcancelled : s.app.cancelled = false := by
    cases hcancelled : s.app.cancelled with
    | false => rfl
    | true =>
        have hnone := h (.close true) (by simp [Label.Trouble]) (by simp)
        rw [step_eq hruns, next, hcloser, hcancelled] at hnone
        cases hnone
  refine ⟨hcancelled, hstart, hcloser, ?_⟩
  rcases hwired.listening hstart with hserve | hsend | hclosed
  · exact hserve
  · have hnone := h .receiveListen id (by simp)
    rw [step_eq hruns, next, hpc, hstart, hsend] at hnone
    cases hnone
  · cases hcancelled.symm.trans (hwired.serverClosed hclosed)

/-- The goroutine of the http server has not ended while there is no error and the context is not cancelled. -/
theorem Wired.not_finished (h : s.Wired) (hquit : s.app.main.BeforeQuit) (hnone : s.app.errChan = none) :
    s.app.httpServer ≠ .finished := by
  intro hpc
  cases hstart : s.httpStart with
  | notCalled => exact (h.notCalled hstart).2.2 (hpc ▸ trivial)
  | receive => cases (h.receive hstart).symm.trans hpc
  | returned => cases (h.failed hstart hquit hnone).symm.trans hpc

/-- Idle in the first `select` of `wait`, the service serves. -/
theorem Idle.serving (h : s.Idle) (hruns : s.app.exited = false) (hwired : s.Wired) (hordered : s.app.Ordered)
    {daemon : Bool} (hmain : s.app.main = .waitQuit daemon) (hnone : s.app.errChan = none) : s.Serving := by
  have hquit : s.app.main.BeforeQuit := hmain ▸ trivial
  have hroom : ¬s.app.errChan.isSome := by simp [hnone]
  have hrunFunc : s.app.runFunc = .serve := by
    rcases h.runFunc hruns with hcount | ⟨-, hfull⟩ | ⟨hserve, -⟩
    · rcases RunFunc.eq_of_count hcount with hpc | hpc
      · exact absurd hpc (hordered.started (hmain ▸ trivial))
      · exact absurd (hpc ▸ trivial) (hordered.unsent hquit hnone)
    · exact absurd hfull hroom
    · exact hserve
  have hhttp : s.app.httpServer = .start := by
    rcases h.httpServer hruns with hcount | ⟨-, hfull⟩ | hstart
    · rcases HttpServer.eq_of_count hcount with hpc | hpc
      · exact absurd hpc (hordered.httpStarted (hrunFunc ▸ trivial))
      · exact absurd hpc (hwired.not_finished hquit hnone)
    · exact absurd hfull hroom
    · exact hstart
  obtain ⟨hcancelled, hstart, hcloser, hlistener⟩ := h.start hruns hwired hhttp
  refine ⟨⟨daemon, hmain⟩, hnone, hcancelled, hrunFunc, ?_, hhttp, hstart, hcloser, hlistener⟩
  rcases h.grpcStop hruns with hpc | ⟨hpc, -⟩ | hpc
  · exact absurd hpc (hordered.grpcStarted hrunFunc)
  · exact hpc
  · cases hcancelled.symm.trans (hordered.stopping (hpc ▸ trivial))

/-- In the second one, the wait group is done: the servers come to their ends, and their errors find room. -/
theorem Idle.wg_eq_zero (h : s.Idle) (hruns : s.app.exited = false) (hwired : s.Wired) (hordered : s.app.Ordered)
    (hroom : s.app.Room) {daemon : Bool} (hmain : s.app.main = .waitDone daemon) : s.app.wg = 0 := by
  have hcancelled : s.app.cancelled = true := hordered.cancelled daemon hmain
  have hrunFunc : s.app.runFunc.count = 0 := by
    rcases h.runFunc hruns with hcount | ⟨hsending, hfull⟩ | ⟨hserve, hcalled⟩
    · exact hcount
    · exact absurd hsending (hroom hfull).1
    · rcases h.grpcStop hruns with hpc | ⟨-, hnot⟩ | hpc
      · exact absurd hpc (hordered.grpcStarted hserve)
      · cases hnot.symm.trans hcancelled
      · rw [hpc] at hcalled
        cases hcalled
  have hhttp : s.app.httpServer.count = 0 := by
    rcases h.httpServer hruns with hcount | ⟨hsending, hfull⟩ | hstart
    · exact hcount
    · exact absurd hsending (hroom hfull).2
    · cases (h.start hruns hwired hstart).1.symm.trans hcancelled
  rw [hordered.wg, hrunFunc, hhttp]

theorem Idle.exited_or_serving {guard : Service → Label → Prop} (hs : system.ReachableBy guard s)
    (hroom : s.app.exited = false → s.app.main.Quitting → s.app.Room) (h : s.Idle) :
    s.app.exited = true ∨ s.Serving := by
  cases hruns : s.app.exited with
  | true => exact .inl rfl
  | false =>
      have hordered := ordered_app hs hruns
      have hwired := wired_of_reachable hs hruns
      rcases h.main hruns with ⟨daemon, hmain, hnone⟩ | ⟨daemon, hmain, hwg⟩
      · exact .inr (h.serving hruns hwired hordered hmain hnone)
      · exact absurd (h.wg_eq_zero hruns hwired hordered (hroom hruns (hmain ▸ trivial)) hmain) hwg

/-! ### Where the errors find room -/

theorem httpServer_of_noFailure (hs : system.ReachableBy (fun _ label => ¬label.HttpFails) s) :
    s.closer ≠ .send true ∧ s.listener ≠ .send := by
  refine hs.invariant (P := fun s => s.closer ≠ .send true ∧ s.listener ≠ .send)
    ⟨(nofun : Closer.notStarted ≠ .send true), (nofun : Listener.notStarted ≠ .send)⟩ ?_
  intro s label s' _ ih hlabel hstep
  obtain ⟨-, heffect⟩ := effect_of_step hstep
  cases heffect with
  | app hallows hnext => exact ih
  | start hpc hstart => exact ⟨nofun, nofun⟩
  | @close ok hpc hcancelled =>
      cases ok with
      | true => exact ⟨nofun, ih.2⟩
      | false => exact absurd rfl hlabel
  | closed hpc hclosed => exact ⟨ih.1, nofun⟩
  | failed hpc => exact absurd rfl hlabel
  | receiveClose hpc hstart hsend => exact ⟨nofun, ih.2⟩
  | receiveListen hpc hstart hsend => exact ⟨ih.1, nofun⟩

/-- A run without a signal, or one in which the http server does not fail. -/
theorem room_app (hone : system.ReachableBy (fun _ label => label ≠ .app .signal) s ∨
      system.ReachableBy (fun _ label => ¬label.HttpFails) s)
    (hruns : s.app.exited = false) (hquit : s.app.main.Quitting) : s.app.Room := by
  rcases hone with hs | hs
  · refine room_of_noSignal (hs.mapBy (f := Service.app) rfl fun s label s' _ hlabel hstep => ?_) hruns hquit
    obtain ⟨hruns, heffect⟩ := effect_of_step hstep
    refine (heffect.app_step hruns).imp_right fun ⟨label', hmove, hsame, _⟩ => ⟨label', ?_, hmove⟩
    rintro rfl
    rcases hsame with heq | ⟨ok, heq⟩
    · exact hlabel heq
    · cases heq
  · refine room_of_httpOk (hs.mapBy (f := Service.app) rfl fun s label s' hs _ hstep => ?_) hruns
    obtain ⟨hruns, heffect⟩ := effect_of_step hstep
    obtain ⟨hcloser, hlistener⟩ := httpServer_of_noFailure hs
    refine (heffect.app_step hruns).imp_right fun ⟨label', hmove, _, hreturns⟩ => ⟨label', ?_, hmove⟩
    intro ok heq hpc
    exact (hreturns ok heq hpc).resolve_right fun hfails => hfails.elim hcloser hlistener

/-- Unless the two seconds are over, the goroutines of the wait group have ended before the logger is closed. -/
theorem counts_of_noTimeout (hs : system.ReachableBy (fun _ label => label ≠ .app .timeout) s)
    (hruns : s.app.exited = false) (hleaving : s.app.main.Leaving) :
    s.app.runFunc.count = 0 ∧ s.app.httpServer.count = 0 := by
  refine (ordered_app hs hruns).count_eq_zero (wg_of_noTimeout (hs.mapBy (f := Service.app) rfl ?_) hruns hleaving)
  intro s label s' _ hlabel hstep
  obtain ⟨hruns, heffect⟩ := effect_of_step hstep
  refine (heffect.app_step hruns).imp_right fun ⟨label', hmove, hsame, _⟩ => ⟨label', ?_, hmove⟩
  rintro rfl
  rcases hsame with heq | ⟨ok, heq⟩
  · exact hlabel heq
  · cases heq

/-- A service comes to a halt: it takes no more than forty steps, and when it does nothing more by itself, it has exited
or serves, unless a signal has come and the http server has failed. Without the forced quit, the goroutines of the
wait group have ended before the logger is closed. -/
theorem halts_of_run {labels : List Label} (hrun : system.run system.start labels = some s) :
    labels.length ≤ 40 ∧
      ((∀ label ∈ labels, label ≠ .app .signal) ∨ (∀ label ∈ labels, ¬label.HttpFails) →
        s.Idle → s.app.exited = true ∨ s.Serving) ∧
      ((∀ label ∈ labels, label ≠ .app .timeout) → s.app.exited = false → s.app.main.Leaving →
        s.app.runFunc.count = 0 ∧ s.app.httpServer.count = 0) := by
  refine ⟨length_le labels hrun, fun hone hidle => ?_, fun htimeout => ?_⟩
  · refine hidle.exited_or_serving (TransitionSystem.reachable_of_run hrun) (room_app ?_)
    refine hone.imp (fun hsignal => ?_) fun hfails => ?_
    · exact TransitionSystem.ReachableBy.run .start (fun label hlabel _ => hsignal label hlabel) hrun
    · exact TransitionSystem.ReachableBy.run .start (fun label hlabel _ => hfails label hlabel) hrun
  · exact counts_of_noTimeout
      (TransitionSystem.ReachableBy.run .start (fun label hlabel _ => htimeout label hlabel) hrun)

/-- A signal ends a service whose calls all go well. -/
def quitOnSignal : List Label :=
  [.app (.serve false), .app (.main true)] ++ List.replicate 5 (.app (.runFunc true 0)) ++
    [.app (.httpServer true), .start, .app .signal, .app (.main true), .app (.main true), .close true, .receiveClose,
      .listenAndServe true] ++
    List.replicate 2 (.app (.httpServer true)) ++ List.replicate 4 (.app .grpcStop) ++
    List.replicate 5 (.app (.runFunc true 0)) ++ List.replicate 3 (.app (.main true))

theorem halts_of_run_quitOnSignal :
    ∃ s, system.run system.start quitOnSignal = some s ∧ s.Idle ∧ quitOnSignal.length ≤ 40 ∧
      (s.app.exited = true ∨ s.Serving) := by
  have hhalts := @halts_of_run _ quitOnSignal rfl
  refine ⟨_, rfl, fun _ _ _ => rfl, hhalts.1, hhalts.2.1 (.inr ?_) fun _ _ _ => rfl⟩
  simp [quitOnSignal, Label.HttpFails]

end Service

end ToyBox
