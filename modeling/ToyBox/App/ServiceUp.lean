import ToyBox.App.ServiceEnds

/-! What keeps a service up: from the start of `RunFunc` on it is up until a signal comes, `RunFunc` panics, or a server
fails. And what ends it leaves a line in the log: `wait` does not leave its first `select` with a nil error, since both
servers return one only after the context was cancelled. -/

namespace ToyBox

namespace App

variable {s s' : App} {label : Label}

/-- Before `RunFunc` is started, nothing was sent, and the logger is not closed. -/
theorem fresh_of_reachable (hs : system.Reachable s) (hruns : s.exited = false) :
    (s.runFunc = .notStarted → s.errChan = none ∧ s.grpcStop = .notStarted) ∧
      (s.main.BeforeSpawn → s.closed = false) := by
  revert hruns
  refine hs.invariant
    (P := fun s => s.exited = false → (s.runFunc = .notStarted → s.errChan = none ∧ s.grpcStop = .notStarted) ∧
      (s.main.BeforeSpawn → s.closed = false)) (fun _ => ⟨fun _ => ⟨rfl, rfl⟩, fun _ => rfl⟩) ?_
  intro s label s' hs ih _ hstep hruns'
  obtain ⟨hruns, hnext⟩ := next_of_step hstep
  have hordered := ordered_of_reachable hs hruns
  obtain ⟨hnone, hopen⟩ := ih hruns
  cases moves_of_next hnext hruns' with
  | serve hpc => exact ⟨hnone, fun _ => hopen (hpc ▸ trivial)⟩
  | main hedge => exact ⟨hnone, fun hmain => hopen (hedge.later.beforeSpawn hmain)⟩
  | spawn hpc => exact ⟨nofun, nofun⟩
  | @receive _ daemon err hpc herr => cases err <;> exact ⟨fun hpc' => ⟨rfl, (hnone hpc').2⟩, nofun⟩
  | @waitDone _ daemon hpc hwg => cases daemon <;> exact ⟨hnone, nofun⟩
  | runFunc hedge => exact ⟨fun hpc => absurd hpc (RunFunc.ne_notStarted hedge.later.count'), hopen⟩
  | fatalClose hpc hclosed => exact ⟨nofun, fun hmain => absurd (hpc.symm.trans (hordered.notStarted hmain)) nofun⟩
  | panic hpanics => exact ⟨fun hpc => absurd hpc (RunFunc.ne_notStarted hpanics.later.count'), hopen⟩
  | httpServer hedge => exact ⟨hnone, hopen⟩
  | httpSendErr hpc hroom =>
      refine ⟨fun hpc' => ?_, hopen⟩
      cases hpc.symm.trans (hordered.httpNotStarted (hpc' ▸ trivial))
  | httpWgDone hpc => exact ⟨hnone, hopen⟩
  | grpcStop hedge =>
      refine ⟨fun hpc => ?_, hopen⟩
      rcases hedge.stopping.2 with ⟨hwait, -⟩ | hstopping
      · cases hwait.symm.trans (hnone hpc).2
      · rw [(hnone hpc).2] at hstopping
        exact hstopping.elim
  | initLogger hpc => exact ⟨nofun, hopen⟩
  | spawnHttp hpc => exact ⟨nofun, hopen⟩
  | listen hpc => exact ⟨nofun, hopen⟩
  | sendErr hpc hroom => exact ⟨nofun, hopen⟩
  | panicSendErr hpc hroom => exact ⟨nofun, hopen⟩
  | wgDone hpc => exact ⟨nofun, hopen⟩
  | _ => exact ⟨hnone, nofun⟩

theorem nextMain_runFunc {ok : Bool} (hstep : s.nextMain ok = some s') :
    s'.runFunc = s.runFunc ∨ ∃ daemon, s.main = .spawn daemon ∧
      s' = { s with main := .waitQuit daemon, runFunc := .startLog, wg := s.wg + 1 } := by
  unfold nextMain at hstep
  split at hstep
  case h_6 daemon hpc => exact .inr ⟨daemon, hpc, (Option.some.inj hstep).symm⟩
  case h_7 =>
    split at hstep
    · cases hstep
      exact .inl rfl
    · cases hstep
      exact .inl rfl
    · cases hstep
  case h_10 =>
    split at hstep
    · cases hstep
      exact .inl rfl
    · cases hstep
  case h_17 => cases hstep
  all_goals
    cases hstep
    exact .inl (by simp [App.close])

/-- Only the main goroutine starts the one of `RunFunc`. -/
theorem spawn_of_next (h : s.Ordered) (hnext : s.next label = some s') (hpc : s.runFunc = .notStarted)
    (hpc' : s'.runFunc ≠ .notStarted) :
    ∃ daemon, s.main = .spawn daemon ∧
      s' = { s with main := .waitQuit daemon, runFunc := .startLog, wg := s.wg + 1 } := by
  cases effect_of_next hnext with
  | main hstep => exact (nextMain_runFunc hstep).resolve_left fun hsame => hpc' (hsame.trans hpc)
  | runFunc hstep =>
      rw [nextRunFunc, hpc] at hstep
      cases hstep
  | panic hstep =>
      rw [panicRunFunc, hpc] at hstep
      cases hstep
  | httpServer hstep =>
      rw [nextHttpServer, h.httpNotStarted (hpc ▸ trivial)] at hstep
      cases hstep
  | grpcStop hstep => exact absurd ((nextGrpcStop_frame hstep).2.1.trans hpc) hpc'
  | _ => exact absurd hpc hpc'

/-- The goroutine of `RunFunc` starts the servers, or serves. -/
def RunFunc.Starting : RunFunc → Prop
  | startLog => True
  | initLogger => True
  | spawnHttp => True
  | grpcLog => True
  | listen => True
  | serve => True
  | _ => False

/-- No goroutine but the main one moves it. -/
theorem nextRunFunc_main {ok : Bool} {level : Int} (hstep : s.nextRunFunc ok level = some s') :
    s'.main = s.main := by
  unfold nextRunFunc at hstep
  split at hstep
  case h_1 => cases hstep
  case h_17 => cases hstep
  case h_3 | h_6 => split at hstep <;> cases hstep <;> rfl
  case h_12 | h_15 =>
    split at hstep
    · cases hstep
    · cases hstep
      rfl
  all_goals
    cases hstep
    simp [App.close]

theorem nextHttpServer_main {ok : Bool} (hstep : s.nextHttpServer ok = some s') : s'.main = s.main := by
  unfold nextHttpServer at hstep
  split at hstep
  case h_1 => cases hstep
  case h_7 => cases hstep
  case h_4 =>
    split at hstep
    · cases hstep
    · cases hstep
      rfl
  all_goals
    cases hstep
    simp

/-- The goroutine of `RunFunc` comes to send no error. -/
def RunFunc.ReturnsNil : RunFunc → Prop
  | serverQuitLog err panicking => err = false ∧ panicking = false
  | sendErr err => err = false
  | _ => False

theorem GrpcStop.stopping_of_called {pc : GrpcStop} (h : pc.called = true) : pc.Stopping := by
  cases pc <;> trivial

end App

open App

namespace Service

variable {s s' : Service} {label : Label}

/-- The service starts its servers or serves, and nothing that would end it has happened. -/
structure Up (s : Service) : Prop where
  main : ∃ daemon, s.app.main = .waitQuit daemon
  runs : s.app.exited = false
  isOpen : s.app.closed = false
  errChan : s.app.errChan = none
  cancelled : s.app.cancelled = false
  runFunc : s.app.runFunc.Starting
  grpcStop : ¬s.app.grpcStop.Stopping
  httpServer : ¬s.app.httpServer.Left
  listener : s.listener ≠ .send
  serverClosed : s.serverClosed = false

theorem Up.not_mayExit (h : s.Up) : ¬s.app.MayExit := by
  obtain ⟨daemon, hmain⟩ := h.main
  have hrunFunc := h.runFunc
  rintro (hclosed | hpc | ⟨err, hpc⟩ | hpc)
  · cases hclosed.symm.trans h.isOpen
  · cases hpc.symm.trans hmain
  · cases hpc.symm.trans hmain
  · rw [hpc] at hrunFunc
    exact hrunFunc

theorem Up.moves (h : s.Up) {label : App.Label} {app : App} (hlabel : ¬(Label.app label).Trouble)
    (hallows : s.app.allows label = true) (hmoves : Moves s.app label app) : Up { s with app } := by
  obtain ⟨daemon, hmain⟩ := h.main
  have hrunFunc := h.runFunc
  have hhttp := h.httpServer
  cases hmoves with
  | serve hpc => cases hpc.symm.trans hmain
  | noServeLog hpc => cases hpc.symm.trans hmain
  | noServe hpc => cases hpc.symm.trans hmain
  | signal hpc => exact absurd trivial hlabel
  | timeout hpc => cases hpc.symm.trans hmain
  | main hedge =>
      rw [hmain] at hedge
      cases hedge
  | spawn hpc => cases hpc.symm.trans hmain
  | receive hpc herr => cases herr.symm.trans h.errChan
  | cancel hpc => cases hpc.symm.trans hmain
  | waitDone hpc hwg => cases hpc.symm.trans hmain
  | close hpc hopen => cases hpc.symm.trans hmain
  | @runFunc ok level pc hedge =>
      generalize hpc : s.app.runFunc = pc' at hedge
      rw [hpc] at hrunFunc
      cases hedge with
      | startLog => exact { h with runFunc := trivial }
      | initLoggerErr => exact absurd rfl hlabel
      | grpcLog => exact { h with runFunc := trivial }
      | listenErr => exact absurd rfl hlabel
      | serve =>
          cases ok with
          | false => exact absurd rfl hlabel
          | true =>
              rw [allows, hpc] at hallows
              exact absurd (GrpcStop.stopping_of_called hallows) h.grpcStop
      | _ => exact hrunFunc.elim
  | initLogger hpc => exact { h with runFunc := trivial }
  | spawnHttp hpc => exact { h with runFunc := trivial, httpServer := id }
  | listen hpc => exact { h with runFunc := trivial, grpcStop := id }
  | panic hpanics => exact absurd trivial hlabel
  | httpServer hedge =>
      generalize hpc : s.app.httpServer = pc at hedge
      rw [hpc] at hhttp
      cases hedge with
      | startLog => exact { h with httpServer := id }
      | start =>
          rw [allows, hpc] at hallows
          cases hallows
      | shutdownLog => exact absurd trivial hhttp
  | httpSendErr hpc hroom => exact absurd (hpc ▸ trivial) hhttp
  | httpWgDone hpc => exact absurd (hpc ▸ trivial) hhttp
  | grpcStop hedge =>
      rcases hedge.stopping.2 with ⟨-, hcancelled⟩ | hstopping
      · cases hcancelled.symm.trans h.cancelled
      · exact absurd hstopping h.grpcStop
  | fatalClose hpc hopen =>
      rw [hpc] at hrunFunc
      exact hrunFunc.elim
  | sendErr hpc hroom =>
      rw [hpc] at hrunFunc
      exact hrunFunc.elim
  | panicSendErr hpc hroom =>
      rw [hpc] at hrunFunc
      exact hrunFunc.elim
  | wgDone hpc =>
      rw [hpc] at hrunFunc
      exact hrunFunc.elim

/-- Nothing but trouble takes the service down. -/
theorem Up.effect (h : s.Up) (hwired : s.Wired) (hlabel : ¬label.Trouble) (heffect : Effect s label s') : s'.Up := by
  cases heffect with
  | app hallows hnext =>
      rcases movesOrExits_of_next hnext with hmoves | ⟨-, hexits⟩
      · exact h.moves hlabel hallows hmoves
      · exact absurd hexits h.not_mayExit
  | start hpc hstart => exact { h with listener := nofun }
  | close hpc hcancelled => cases hcancelled.symm.trans h.cancelled
  | closed hpc hclosed => cases hclosed.symm.trans h.serverClosed
  | failed hpc => exact absurd rfl hlabel
  | receiveClose hpc hstart hsend =>
      cases (hwired.closed (hsend ▸ trivial)).symm.trans h.serverClosed
  | receiveListen hpc hstart hsend => exact absurd hsend h.listener

/-- The service is up when `RunFunc` is started. -/
theorem up_of_spawn (hs : system.Reachable s) (hruns : s.app.exited = false) {daemon : Bool}
    (hpc : s.app.main = .spawn daemon) :
    Up { s with app := { s.app with main := .waitQuit daemon, runFunc := .startLog, wg := s.app.wg + 1 } } := by
  have hordered := ordered_app hs hruns
  have hwired := wired_of_reachable hs hruns
  have hmain : s.app.main.BeforeSpawn := hpc ▸ trivial
  have hrunFunc := hordered.notStarted hmain
  have hhttp := hordered.httpNotStarted (hrunFunc ▸ trivial)
  have hcancelled := hordered.notCancelled (hpc ▸ trivial)
  obtain ⟨hnone, hopen⟩ := fresh_of_reachable (reachable_app hs) hruns
  obtain ⟨herr, hgrpc⟩ := hnone hrunFunc
  have hstart : s.httpStart = .notCalled := by
    cases hstart : s.httpStart with
    | notCalled => rfl
    | receive => cases (hwired.receive hstart).symm.trans hhttp
    | returned =>
        have hleft := hwired.returned hstart
        rw [hhttp] at hleft
        exact hleft.elim
  refine ⟨⟨daemon, rfl⟩, hruns, hopen hmain, herr, hcancelled, trivial, ?_, (hwired.notCalled hstart).2.2, ?_, ?_⟩
  · show ¬s.app.grpcStop.Stopping
    rw [hgrpc]
    exact id
  · show s.listener ≠ .send
    rw [(hwired.notCalled hstart).2.1]
    nofun
  · cases hclosed : s.serverClosed with
    | false => rfl
    | true => cases (hwired.serverClosed hclosed).symm.trans hcancelled

theorem up_of_reachable (hs : system.ReachableBy (fun _ label => ¬label.Trouble) s)
    (hstarted : s.app.runFunc ≠ .notStarted) : s.Up := by
  revert hstarted
  refine hs.invariant (P := fun s => s.app.runFunc ≠ .notStarted → s.Up) (fun h => absurd rfl h) ?_
  intro s label s' hs ih hlabel hstep hstarted'
  obtain ⟨hruns, heffect⟩ := effect_of_step hstep
  by_cases hstarted : s.app.runFunc = .notStarted
  · have hordered := ordered_app hs hruns
    cases heffect with
    | app hallows hnext =>
        obtain ⟨daemon, hpc, rfl⟩ := spawn_of_next hordered hnext hstarted hstarted'
        exact up_of_spawn hs.reachable hruns hpc
    | _ => exact absurd hstarted hstarted'
  · exact (ih hstarted).effect (wired_of_reachable hs hruns) hlabel heffect

/-- While it serves, only trouble moves it. -/
theorem Serving.step_eq_none (h : s.Serving) (hwired : s.Wired) (hlabel : ¬label.Trouble) :
    system.step s label = none := by
  obtain ⟨daemon, hmain⟩ := h.main
  have hopen : s.serverClosed = false := by
    cases hclosed : s.serverClosed with
    | false => rfl
    | true => cases (hwired.serverClosed hclosed).symm.trans h.cancelled
  cases hruns : s.app.exited with
  | true =>
      show (if s.app.exited then none else s.next label) = none
      rw [hruns, if_pos rfl]
  | false =>
      rw [step_eq hruns]
      cases label with
      | app label =>
          cases label with
          | serve daemon' => simp [next, allows, App.next, hmain]
          | noServe log err => simp [next, allows, App.next, hmain]
          | main ok => simp [next, allows, App.next, nextMain, hmain, h.errChan]
          | signal => exact absurd trivial hlabel
          | timeout => simp [next, allows, App.next, hmain]
          | runFunc ok level =>
              cases ok with
              | true => simp [next, allows, h.runFunc, h.grpcStop, GrpcStop.called]
              | false => exact absurd rfl hlabel
          | panic => exact absurd trivial hlabel
          | httpServer ok => simp [next, allows, h.httpServer]
          | grpcStop => simp [next, allows, App.next, nextGrpcStop, h.grpcStop, h.cancelled]
      | start => simp [next, h.httpStart]
      | close ok => simp [next, h.closer, h.cancelled]
      | listenAndServe serverClosed =>
          cases serverClosed with
          | true => simp [next, h.listener, hopen]
          | false => exact absurd rfl hlabel
      | receiveClose => simp [next, h.closer]
      | receiveListen => simp [next, h.listener]

/-- A service that is up serves as soon as it has no step left but trouble. -/
theorem Up.serving_iff (h : s.Up) (hs : system.ReachableBy (fun _ label => ¬label.Trouble) s) :
    s.Serving ↔ ∀ label : Label, ¬label.Trouble → system.step s label = none := by
  refine ⟨fun hserving label hlabel => hserving.step_eq_none (wired_of_reachable hs h.runs) hlabel, fun hnone => ?_⟩
  have hidle : s.Idle := fun label hlabel _ => hnone label hlabel
  obtain ⟨daemon, hmain⟩ := h.main
  refine (hidle.exited_or_serving hs fun _ hquit => ?_).resolve_left fun hexited => ?_
  · rw [hmain] at hquit
    exact hquit.elim
  · cases hexited.symm.trans h.runs

theorem Up.run (h : s.Up) (hs : system.ReachableBy (fun _ label => ¬label.Trouble) s) {labels : List Label}
    (hlabels : ∀ label ∈ labels, ¬label.Trouble) (hrun : system.run s labels = some s') : s'.Up := by
  induction labels generalizing s with
  | nil => exact Option.some.inj hrun ▸ h
  | cons label labels ih =>
      obtain ⟨s₁, hstep, hrest⟩ := TransitionSystem.run_cons.mp hrun
      have hlabel := hlabels label List.mem_cons_self
      obtain ⟨hruns, heffect⟩ := effect_of_step hstep
      exact ih (h.effect (wired_of_reachable hs hruns) hlabel heffect) (.step hs hlabel hstep)
        (fun label' hmem => hlabels label' (List.mem_cons_of_mem label hmem)) hrest

/-- A service that is up can go on until it serves. The induction is on the steps it has left. -/
theorem Up.exists_serving (h : s.Up) (hs : system.ReachableBy (fun _ label => ¬label.Trouble) s) :
    ∃ labels s', (∀ label ∈ labels, ¬label.Trouble) ∧ system.run s labels = some s' ∧ s'.Serving := by
  induction hmeasure : s.measure using Nat.strongRecOn generalizing s with
  | ind n ih =>
      by_cases hserving : s.Serving
      · exact ⟨[], s, fun _ hmem => absurd hmem List.not_mem_nil, rfl, hserving⟩
      · rw [h.serving_iff hs] at hserving
        push Not at hserving
        obtain ⟨label, hlabel, hsome⟩ := hserving
        obtain ⟨s₁, hstep⟩ := Option.ne_none_iff_exists'.mp hsome
        obtain ⟨hruns, heffect⟩ := effect_of_step hstep
        have hup := h.effect (wired_of_reachable hs hruns) hlabel heffect
        obtain ⟨labels, s', hlabels, hrun, hserves⟩ :=
          ih s₁.measure (hmeasure ▸ measure_lt hstep) hup (.step hs hlabel hstep) rfl
        refine ⟨label :: labels, s', ?_, TransitionSystem.run_cons.mpr ⟨s₁, hstep, hrun⟩, hserves⟩
        rintro label' (_ | ⟨_, hmem⟩)
        · exact hlabel
        · exact hlabels label' hmem

/-- Without a signal, a panic or a failure of a server, the service is up from the start of `RunFunc` on. It takes no
more than forty steps more, can always go on until it serves, and serves when it has no step left that is not one of
these. -/
theorem up_of_noTrouble (hs : system.ReachableBy (fun _ label => ¬label.Trouble) s)
    (hstarted : s.app.runFunc ≠ .notStarted) :
    s.Up ∧ (s.Serving ↔ ∀ label : Label, ¬label.Trouble → system.step s label = none) ∧
      (∀ labels s', (∀ label ∈ labels, ¬label.Trouble) → system.run s labels = some s' →
        s'.Up ∧ labels.length ≤ 40) ∧
      ∃ labels s', (∀ label ∈ labels, ¬label.Trouble) ∧ system.run s labels = some s' ∧ s'.Serving := by
  have hup := up_of_reachable hs hstarted
  refine ⟨hup, hup.serving_iff hs, fun labels s' hlabels hrun => ⟨hup.run hs hlabels hrun, ?_⟩, hup.exists_serving hs⟩
  have hlength := length_add_measure_le hrun
  have hle := measure_le hs
  omega

/-- The steps that start a service, up to where it serves. -/
def startServers : List Label :=
  [.app (.serve false), .app (.main true)] ++ List.replicate 5 (.app (.runFunc true 0)) ++
    [.app (.httpServer true), .start]

theorem up_of_noTrouble_startServers :
    ∃ s, system.run system.start startServers = some s ∧ s.Up ∧
      (s.Serving ↔ ∀ label : Label, ¬label.Trouble → system.step s label = none) ∧
      ∃ labels s', (∀ label ∈ labels, ¬label.Trouble) ∧ system.run s labels = some s' ∧ s'.Serving := by
  have hlabels : ∀ label ∈ startServers, ∀ _ : Service, ¬label.Trouble := by simp [startServers, Label.Trouble]
  obtain ⟨s, hrun, hpc⟩ : ∃ s, system.run system.start startServers = some s ∧ s.app.runFunc = .serve :=
    ⟨_, rfl, rfl⟩
  obtain ⟨hup, hserving, -, hserves⟩ := up_of_noTrouble (.run .start hlabels hrun) (by simp [hpc])
  exact ⟨s, hrun, hup, hserving, hserves⟩

/-! ### What ends the service -/

/-- No error is sent only after the context was cancelled. -/
theorem cancelled_of_nil (hs : system.Reachable s) (hruns : s.app.exited = false) :
    (s.app.runFunc.ReturnsNil → s.app.cancelled = true) ∧
      (s.app.errChan = some false → s.app.cancelled = true) := by
  revert hruns
  refine hs.invariant
    (P := fun s => s.app.exited = false → (s.app.runFunc.ReturnsNil → s.app.cancelled = true) ∧
      (s.app.errChan = some false → s.app.cancelled = true))
    (fun _ => ⟨False.elim, fun h => by cases h⟩) ?_
  intro s label s' hs ih _ hstep hruns'
  obtain ⟨hruns, heffect⟩ := effect_of_step hstep
  obtain ⟨hreturns, hsent⟩ := ih hruns
  cases heffect with
  | app hallows hnext =>
      cases moves_of_next hnext hruns' with
      | spawn hpc => exact ⟨False.elim, hsent⟩
      | receive hpc herr => exact ⟨hreturns, fun hnil => by cases hnil⟩
      | cancel hpc => exact ⟨fun _ => rfl, fun _ => rfl⟩
      | @runFunc ok level pc hedge =>
          refine ⟨?_, hsent⟩
          generalize hpc : s.app.runFunc = pc' at hedge
          rw [hpc] at hreturns
          cases hedge with
          | serve =>
              rintro ⟨hok, -⟩
              rw [allows, hpc, hok] at hallows
              exact (ordered_app hs hruns).stopping (GrpcStop.stopping_of_called hallows)
          | @serverQuitLog _ err panicking =>
              cases panicking with
              | true => exact False.elim
              | false => exact fun herr => hreturns ⟨herr, rfl⟩
          | initLoggerErr =>
              intro hnil
              cases hnil
          | _ => exact False.elim
      | initLogger hpc => exact ⟨False.elim, hsent⟩
      | spawnHttp hpc => exact ⟨False.elim, hsent⟩
      | listen hpc => exact ⟨False.elim, hsent⟩
      | fatalClose hpc hopen => exact ⟨False.elim, hsent⟩
      | sendErr hpc hroom =>
          refine ⟨False.elim, fun herr => hreturns ?_⟩
          rw [hpc]
          exact Option.some.inj herr
      | panicSendErr hpc hroom => exact ⟨False.elim, fun hnil => by cases hnil⟩
      | wgDone hpc => exact ⟨False.elim, hsent⟩
      | panic hpanics =>
          refine ⟨?_, hsent⟩
          generalize s.app.runFunc = pc' at hpanics
          cases hpanics with
          | serve =>
              rintro ⟨-, hpanicking⟩
              cases hpanicking
          | _ => exact False.elim
      | httpSendErr hpc hroom => exact ⟨hreturns, fun hnil => by cases hnil⟩
      | _ => exact ⟨hreturns, hsent⟩
  | _ => exact ⟨hreturns, hsent⟩

/-- A nil error does not end `wait`, which logs the signal or the error that it leaves its first `select` with. -/
theorem main_of_waitQuit (hs : system.Reachable s) {daemon : Bool} (hmain : s.app.main = .waitQuit daemon)
    (hstep : system.step s label = some s') :
    s'.app.main = .waitQuit daemon ∨ (label = .app .signal ∧ s'.app.main = .quitLog daemon .info) ∨
      (s.app.errChan = some true ∧ s'.app.main = .quitLog daemon .error) := by
  obtain ⟨hruns, heffect⟩ := effect_of_step hstep
  cases heffect with
  | app hallows hnext =>
      cases App.effect_of_next hnext with
      | serve hpc => cases hpc.symm.trans hmain
      | controlLog hpc => cases hpc.symm.trans hmain
      | noServe hpc => cases hpc.symm.trans hmain
      | signal hpc =>
          cases hpc.symm.trans hmain
          exact .inr (.inl ⟨rfl, rfl⟩)
      | timeout hpc => cases hpc.symm.trans hmain
      | main hmoves =>
          rw [nextMain, hmain] at hmoves
          cases herr : s.app.errChan with
          | none =>
              rw [herr] at hmoves
              cases hmoves
          | some err =>
              cases err with
              | true =>
                  rw [herr] at hmoves
                  cases hmoves
                  exact .inr (.inr ⟨rfl, rfl⟩)
              | false =>
                  have hnot := (ordered_app hs hruns).notCancelled (hmain ▸ trivial)
                  cases ((cancelled_of_nil hs hruns).2 herr).symm.trans hnot
      | runFunc hmoves => exact .inl ((nextRunFunc_main hmoves).trans hmain)
      | panic hmoves =>
          obtain ⟨pc, rfl, -⟩ := panicRunFunc_eq hmoves
          exact .inl hmain
      | httpServer hmoves => exact .inl ((nextHttpServer_main hmoves).trans hmain)
      | grpcStop hmoves => exact .inl ((nextGrpcStop_frame hmoves).1.trans hmain)
  | _ => exact .inl hmain

/-- What ends a service has a cause that is logged: a signal, or an error of a server or of `RunFunc`. Both servers
return no error only where the context was cancelled, and the http server only where it was closed. -/
theorem cause_of_reachable (hs : system.Reachable s) :
    (∀ daemon label s', s.app.main = .waitQuit daemon → system.step s label = some s' →
      s'.app.main = .waitQuit daemon ∨ (label = .app .signal ∧ s'.app.main = .quitLog daemon .info) ∨
        (s.app.errChan = some true ∧ s'.app.main = .quitLog daemon .error)) ∧
      (s.app.exited = false → s.app.runFunc.ReturnsNil → s.app.cancelled = true) ∧
      (s.app.exited = false → s.app.httpServer = .shutdownLog →
        s.serverClosed = true ∧ s.app.cancelled = true) := by
  refine ⟨fun daemon label s' hmain hstep => main_of_waitQuit hs hmain hstep,
    fun hruns => (cancelled_of_nil hs hruns).1, fun hruns hpc => ?_⟩
  have hwired := wired_of_reachable hs hruns
  exact ⟨hwired.shutdown hpc, hwired.serverClosed (hwired.shutdown hpc)⟩

theorem cause_of_reachable_startServers :
    ∃ s, system.run system.start startServers = some s ∧ ∀ daemon label s', s.app.main = .waitQuit daemon →
      system.step s label = some s' → s'.app.main = .waitQuit daemon ∨
        (label = .app .signal ∧ s'.app.main = .quitLog daemon .info) ∨
        (s.app.errChan = some true ∧ s'.app.main = .quitLog daemon .error) := by
  have hrun : ∃ s, system.run system.start startServers = some s := ⟨_, rfl⟩
  obtain ⟨s, hs⟩ := hrun
  exact ⟨s, hs, (cause_of_reachable (TransitionSystem.reachable_of_run hs)).1⟩

end Service

end ToyBox
