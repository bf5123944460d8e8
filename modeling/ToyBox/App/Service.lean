import ToyBox.App.Moves
import ToyBox.Library.Simulation

/-! A service with what its two servers are made of. `httpserver.Start` has two goroutines of its own, one that
closes the server when the context is cancelled and one that serves; both send to a channel without room, from
which `Start` receives once. `Serve` of the grpc server returns no error only after `GracefulStop` was called. The
handlers of both servers are left out, and `GracefulStop`, which waits for the calls under way, is taken to come to
its end. Seen without the goroutines of `Start`, it is the service of `App`. -/

namespace ToyBox

open App

namespace Service

/-- Where `httpserver.Start` is. -/
inductive Start
  | notCalled
  | receive
  | returned

/-- Where the goroutine is that closes the http server. -/
inductive Closer
  | notStarted
  | waitCancel
  | send (err : Bool)
  | finished

/-- Where the goroutine is that serves. -/
inductive Listener
  | notStarted
  | listenAndServe
  | send
  | finished

end Service

open Service

/-- The goroutines of a service and of its http server. -/
structure Service where
  app : App := {}
  httpStart : Start := .notCalled
  closer : Closer := .notStarted
  listener : Listener := .notStarted
  /-- `Close` of the http server was called. -/
  serverClosed : Bool := false

namespace App

/-- `GracefulStop` was called. -/
def GrpcStop.called : GrpcStop → Bool
  | gracefulStop => true
  | doneLog => true
  | finished => true
  | _ => false

/-- What the servers leave open: `Serve` returns an error, or `GracefulStop` was called; the goroutine of the http
server is not in `Start`. -/
def allows (s : App) : Label → Bool
  | .runFunc ok _ =>
      match s.runFunc with
      | .serve => !ok || s.grpcStop.called
      | _ => true
  | .httpServer _ =>
      match s.httpServer with
      | .start => false
      | _ => true
  | _ => true

end App

namespace Service

inductive Label
  /-- A step outside of `Start`. -/
  | app (label : App.Label)
  /-- `Start` makes the server and starts its two goroutines. -/
  | start
  /-- The server is closed, with an error or without. -/
  | close (ok : Bool)
  /-- `ListenAndServe` returns, with `ErrServerClosed` or with another error. -/
  | listenAndServe (serverClosed : Bool)
  /-- `Start` receives what closing the server returned. -/
  | receiveClose
  /-- `Start` receives the error of `ListenAndServe`. -/
  | receiveListen

variable (s : Service)

def next : Label → Option Service
  | .app label =>
      if s.app.allows label then
        match s.app.next label with
        | some app => some { s with app }
        | none => none
      else none
  | .start =>
      match s.app.httpServer, s.httpStart with
      | .start, .notCalled =>
          some { s with httpStart := .receive, closer := .waitCancel, listener := .listenAndServe }
      | _, _ => none
  | .close ok =>
      match s.closer with
      | .waitCancel => if s.app.cancelled then some { s with closer := .send (!ok), serverClosed := true } else none
      | _ => none
  | .listenAndServe serverClosed =>
      match s.listener with
      | .listenAndServe =>
          if serverClosed then
            if s.serverClosed then some { s with listener := .finished } else none
          else some { s with listener := .send }
      | _ => none
  | .receiveClose =>
      match s.httpStart, s.closer, s.app.httpServer with
      | .receive, .send err, .start =>
          some { s with
            app := { s.app with httpServer := if err then .sendErr else .shutdownLog }
            httpStart := .returned
            closer := .finished }
      | _, _, _ => none
  | .receiveListen =>
      match s.httpStart, s.listener, s.app.httpServer with
      | .receive, .send, .start =>
          some { s with
            app := { s.app with httpServer := .sendErr }
            httpStart := .returned
            listener := .finished }
      | _, _, _ => none

/-- The service, from the start of the action on. -/
def system : TransitionSystem Service Label where
  start := {}
  step s label := if s.app.exited then none else s.next label

/-- What a step does: one of the service without `Start`, or one of `Start` and its goroutines. -/
inductive Effect (s : Service) : Label → Service → Prop
  | app {label : App.Label} {app : App} (hallows : s.app.allows label = true)
      (hstep : s.app.next label = some app) : Effect s (.app label) { s with app }
  | start (hpc : s.app.httpServer = .start) (hstart : s.httpStart = .notCalled) :
      Effect s .start { s with httpStart := .receive, closer := .waitCancel, listener := .listenAndServe }
  | close {ok : Bool} (hpc : s.closer = .waitCancel) (hcancelled : s.app.cancelled = true) :
      Effect s (.close ok) { s with closer := .send (!ok), serverClosed := true }
  | closed (hpc : s.listener = .listenAndServe) (hclosed : s.serverClosed = true) :
      Effect s (.listenAndServe true) { s with listener := .finished }
  | failed (hpc : s.listener = .listenAndServe) : Effect s (.listenAndServe false) { s with listener := .send }
  | receiveClose {err : Bool} (hpc : s.app.httpServer = .start) (hstart : s.httpStart = .receive)
      (hsend : s.closer = .send err) :
      Effect s .receiveClose
        { s with
          app := { s.app with httpServer := if err then .sendErr else .shutdownLog }
          httpStart := .returned
          closer := .finished }
  | receiveListen (hpc : s.app.httpServer = .start) (hstart : s.httpStart = .receive)
      (hsend : s.listener = .send) :
      Effect s .receiveListen
        { s with app := { s.app with httpServer := .sendErr }, httpStart := .returned, listener := .finished }

variable {s} {s' : Service} {label : Label}

theorem effect_of_next (hstep : s.next label = some s') : Effect s label s' := by
  cases label with
  | app label =>
      simp only [next] at hstep
      split at hstep
      case isTrue hallows =>
        split at hstep
        · cases hstep
          exact .app hallows ‹_›
        · cases hstep
      case isFalse => cases hstep
  | start =>
      simp only [next] at hstep
      split at hstep
      · cases hstep
        exact .start ‹_› ‹_›
      · cases hstep
  | close ok =>
      simp only [next] at hstep
      split at hstep
      case h_1 hpc =>
        split at hstep
        case isTrue hcancelled =>
          cases hstep
          exact .close hpc hcancelled
        case isFalse => cases hstep
      case h_2 => cases hstep
  | listenAndServe serverClosed =>
      simp only [next] at hstep
      split at hstep
      case h_1 hpc =>
        cases serverClosed with
        | true =>
            simp only [if_true] at hstep
            split at hstep
            case isTrue hclosed =>
              cases hstep
              exact .closed hpc hclosed
            case isFalse => cases hstep
        | false =>
            cases hstep
            exact .failed hpc
      case h_2 => cases hstep
  | receiveClose =>
      simp only [next] at hstep
      split at hstep
      · cases hstep
        exact .receiveClose ‹_› ‹_› ‹_›
      · cases hstep
  | receiveListen =>
      simp only [next] at hstep
      split at hstep
      · cases hstep
        exact .receiveListen ‹_› ‹_› ‹_›
      · cases hstep

theorem effect_of_step (hstep : system.step s label = some s') : s.app.exited = false ∧ Effect s label s' := by
  replace hstep : (if s.app.exited then none else s.next label) = some s' := hstep
  split at hstep
  case isTrue => cases hstep
  case isFalse hexited => exact ⟨by simpa using hexited, effect_of_next hstep⟩

/-! ### The service without the goroutines of `Start` -/

/-- A step is the same one of the service without `Start`, or is not seen there, or `Start` returns: with an error only
where it receives one. -/
theorem Effect.app_step (h : Effect s label s') (hruns : s.app.exited = false) :
    s'.app = s.app ∨ ∃ label', App.system.step s.app label' = some s'.app ∧
      (label = .app label' ∨ ∃ ok, label' = .httpServer ok) ∧
      ∀ ok, label' = .httpServer ok → s.app.httpServer = .start → ok = true ∨ s.closer = .send true ∨
        s.listener = .send := by
  have hstep {label' : App.Label} {app : App} (hnext : s.app.next label' = some app) :
      App.system.step s.app label' = some app := by
    show (if s.app.exited then none else s.app.next label') = some app
    rw [hruns]
    exact hnext
  cases h with
  | @app label' app hallows hnext =>
      refine .inr ⟨label', hstep hnext, .inl rfl, ?_⟩
      rintro ok rfl hpc
      rw [allows, hpc] at hallows
      cases hallows
  | start hpc hstart => exact .inl rfl
  | close hpc hcancelled => exact .inl rfl
  | closed hpc hclosed => exact .inl rfl
  | failed hpc => exact .inl rfl
  | @receiveClose err hpc hstart hsend =>
      refine .inr ⟨.httpServer (!err), hstep ?_, .inr ⟨_, rfl⟩, ?_⟩
      · show s.app.nextHttpServer (!err) = _
        rw [nextHttpServer, hpc]
        cases err <;> rfl
      · rintro ok hok -
        cases err with
        | true => exact .inr (.inl hsend)
        | false =>
            cases hok
            exact .inl rfl
  | receiveListen hpc hstart hsend =>
      refine .inr ⟨.httpServer false, hstep ?_, .inr ⟨_, rfl⟩, fun _ _ _ => .inr (.inr hsend)⟩
      show s.app.nextHttpServer false = _
      rw [nextHttpServer, hpc]
      rfl

theorem reachable_app {guard : Service → Label → Prop} (hs : system.ReachableBy guard s) :
    App.system.Reachable s.app := by
  refine hs.map (f := Service.app) rfl fun s label s' _ _ hstep => ?_
  obtain ⟨hruns, heffect⟩ := effect_of_step hstep
  exact (heffect.app_step hruns).imp_right fun ⟨label', hmove, _⟩ => ⟨label', hmove⟩

theorem ordered_app {guard : Service → Label → Prop} (hs : system.ReachableBy guard s)
    (hruns : s.app.exited = false) : s.app.Ordered :=
  ordered_of_reachable (reachable_app hs) hruns

end Service

namespace App

/-! ### What the goroutines outside of `Start` do to it -/

variable {s s' : App} {label : Label}

/-- The goroutine of the http server has left `Start`. -/
def HttpServer.Left : HttpServer → Prop
  | sendErr => True
  | shutdownLog => True
  | wgDone => True
  | finished => True
  | _ => False

/-- What has become of the goroutine of the http server, outside of `Start`. -/
theorem Moves.httpServer_cases (h : s.Ordered) (hmoves : Moves s label s') (hallows : s.allows label = true) :
    s'.httpServer = s.httpServer ∨ (s.httpServer = .notStarted ∧ s'.httpServer = .startLog) ∨
      (s.httpServer = .startLog ∧ s'.httpServer = .start) ∨
      (s.httpServer.Left ∧ (s'.httpServer = .wgDone ∨ s'.httpServer = .finished) ∧
        (s.httpServer = .sendErr → s'.errChan ≠ none)) := by
  cases hmoves with
  | spawnHttp hpc => exact .inr (.inl ⟨h.httpNotStarted (hpc ▸ trivial), rfl⟩)
  | httpServer hnext =>
      generalize hpc : s.httpServer = pc at hnext
      cases hnext with
      | startLog => exact .inr (.inr (.inl ⟨rfl, rfl⟩))
      | start =>
          rw [allows, hpc] at hallows
          cases hallows
      | shutdownLog => exact .inr (.inr (.inr ⟨trivial, .inl rfl, nofun⟩))
  | httpSendErr hpc hroom =>
      rw [hpc]
      exact .inr (.inr (.inr ⟨trivial, .inl rfl, fun _ => nofun⟩))
  | httpWgDone hpc =>
      rw [hpc]
      exact .inr (.inr (.inr ⟨trivial, .inr rfl, nofun⟩))
  | _ => exact .inl rfl

theorem Moves.cancelled (hmoves : Moves s label s') (h : s.cancelled = true) : s'.cancelled = true := by
  cases hmoves with
  | cancel hpc => rfl
  | _ => exact h

/-- Before `wait` leaves its first `select`, an error stays in `errChan`. -/
theorem Moves.beforeQuit (hmoves : Moves s label s') (hquit : s'.main.BeforeQuit) :
    s.main.BeforeQuit ∧ (s'.errChan = none → s.errChan = none) := by
  cases hmoves with
  | serve hpc => exact ⟨hpc ▸ trivial, id⟩
  | noServeLog hpc => exact hquit.elim
  | noServe hpc => exact hquit.elim
  | signal hpc => exact hquit.elim
  | timeout hpc => exact hquit.elim
  | main hnext => exact ⟨hnext.later.beforeQuit hquit, id⟩
  | spawn hpc => exact ⟨hpc ▸ trivial, id⟩
  | @receive _ daemon err hpc herr => cases err <;> exact hquit.elim
  | cancel hpc => exact hquit.elim
  | @waitDone _ daemon hpc hwg => cases daemon <;> exact hquit.elim
  | close hpc hopen => exact hquit.elim
  | sendErr hpc hroom => exact ⟨hquit, nofun⟩
  | panicSendErr hpc hroom => exact ⟨hquit, nofun⟩
  | httpSendErr hpc hroom => exact ⟨hquit, nofun⟩
  | _ => exact ⟨hquit, id⟩

theorem Main.BeforeQuit.beforeCancel {pc : Main} (h : pc.BeforeQuit) : pc.BeforeCancel := by
  cases pc <;> first | exact h | exact trivial

end App

namespace Service

variable {s s' : Service} {label : Label}

/-- The server was closed by the goroutine that does so. -/
def Closer.Closed : Closer → Prop
  | send _ => True
  | finished => True
  | _ => False

/-- How `Start` and its goroutines hang together, while the process runs. -/
structure Wired (s : Service) : Prop where
  notCalled : s.httpStart = .notCalled → s.closer = .notStarted ∧ s.listener = .notStarted ∧ ¬s.app.httpServer.Left
  receive : s.httpStart = .receive → s.app.httpServer = .start
  closing : s.httpStart = .receive → s.closer = .waitCancel ∨ ∃ err, s.closer = .send err
  listening : s.httpStart = .receive → s.listener = .listenAndServe ∨ s.listener = .send ∨ s.serverClosed = true
  returned : s.httpStart = .returned → s.app.httpServer.Left
  closed : s.closer.Closed → s.serverClosed = true
  serverClosed : s.serverClosed = true → s.app.cancelled = true
  shutdown : s.app.httpServer = .shutdownLog → s.serverClosed = true
  failed : s.httpStart = .returned → s.app.main.BeforeQuit → s.app.errChan = none → s.app.httpServer = .sendErr

theorem Wired.start : Wired {} :=
  ⟨fun _ => ⟨rfl, rfl, id⟩, nofun, nofun, nofun, nofun, nofun, nofun, nofun, nofun⟩

theorem Wired.app (h : s.Wired) (hordered : s.app.Ordered) {label : App.Label} {app : App}
    (hallows : s.app.allows label = true) (hmoves : Moves s.app label app) : Wired { s with app } := by
  have hhttp := hmoves.httpServer_cases hordered hallows
  have hleft : app.httpServer.Left ↔ s.app.httpServer.Left := by
    rcases hhttp with hsame | ⟨hpc, hpc'⟩ | ⟨hpc, hpc'⟩ | ⟨hleft, hpc' | hpc', -⟩
    · rw [hsame]
    · rw [hpc, hpc']
      exact Iff.rfl
    · rw [hpc, hpc']
      exact Iff.rfl
    · rw [hpc']
      exact ⟨fun _ => hleft, fun _ => trivial⟩
    · rw [hpc']
      exact ⟨fun _ => hleft, fun _ => trivial⟩
  refine ⟨fun hstart => ?_, fun hstart => ?_, h.closing, h.listening, fun hstart => hleft.mpr (h.returned hstart),
    h.closed, fun hclosed => hmoves.cancelled (h.serverClosed hclosed), fun hshutdown => ?_,
    fun hstart hquit hnone => ?_⟩
  · obtain ⟨hcloser, hlistener, hnot⟩ := h.notCalled hstart
    exact ⟨hcloser, hlistener, fun hleft' => hnot (hleft.mp hleft')⟩
  · replace hstart := h.receive hstart
    rcases hhttp with hsame | ⟨hpc, -⟩ | ⟨hpc, -⟩ | ⟨hleft', -, -⟩
    · exact hsame.trans hstart
    · cases hpc.symm.trans hstart
    · cases hpc.symm.trans hstart
    · rw [hstart] at hleft'
      exact hleft'.elim
  · replace hshutdown : app.httpServer = .shutdownLog := hshutdown
    rcases hhttp with hsame | ⟨-, hpc⟩ | ⟨-, hpc⟩ | ⟨-, hpc | hpc, -⟩
    · exact h.shutdown (hsame.symm.trans hshutdown)
    all_goals cases hpc.symm.trans hshutdown
  · obtain ⟨hquit', hnone'⟩ := hmoves.beforeQuit hquit
    have hpc := h.failed hstart hquit' (hnone' hnone)
    rcases hhttp with hsame | ⟨hpc', -⟩ | ⟨hpc', -⟩ | ⟨-, -, hsent⟩
    · exact hsame.trans hpc
    · cases hpc'.symm.trans hpc
    · cases hpc'.symm.trans hpc
    · exact absurd hnone (hsent hpc)

theorem wired_of_reachable {guard : Service → Label → Prop} (hs : system.ReachableBy guard s)
    (hruns : s.app.exited = false) : s.Wired := by
  revert hruns
  refine hs.invariant (P := fun s => s.app.exited = false → s.Wired) (fun _ => .start) ?_
  intro s label s' hs ih _ hstep hruns'
  obtain ⟨hruns, heffect⟩ := effect_of_step hstep
  have h := ih hruns
  have hordered := ordered_app hs hruns
  cases heffect with
  | app hallows hnext => exact h.app hordered hallows (moves_of_next hnext hruns')
  | start hpc hstart =>
      exact ⟨nofun, fun _ => hpc, fun _ => .inl rfl, fun _ => .inl rfl, nofun, nofun, h.serverClosed, h.shutdown,
        nofun⟩
  | close hpc hcancelled =>
      refine ⟨fun hstart => ?_, h.receive, fun _ => .inr ⟨_, rfl⟩, fun _ => .inr (.inr rfl), h.returned, fun _ => rfl,
        fun _ => hcancelled, fun _ => rfl, h.failed⟩
      cases hpc.symm.trans (h.notCalled hstart).1
  | closed hpc hclosed =>
      refine ⟨fun hstart => ?_, h.receive, h.closing, fun _ => .inr (.inr hclosed), h.returned, h.closed,
        h.serverClosed, h.shutdown, h.failed⟩
      cases hpc.symm.trans (h.notCalled hstart).2.1
  | failed hpc =>
      refine ⟨fun hstart => ?_, h.receive, h.closing, fun _ => .inr (.inl rfl), h.returned, h.closed, h.serverClosed,
        h.shutdown, h.failed⟩
      cases hpc.symm.trans (h.notCalled hstart).2.1
  | @receiveClose err hpc hstart hsend =>
      have hclosed : s.serverClosed = true := h.closed (hsend ▸ trivial)
      refine ⟨nofun, nofun, nofun, nofun, fun _ => ?_, fun _ => hclosed, fun _ => h.serverClosed hclosed,
        fun _ => hclosed, fun _ hquit _ => ?_⟩
      · cases err <;> trivial
      · cases (h.serverClosed hclosed).symm.trans (hordered.notCancelled hquit.beforeCancel)
  | receiveListen hpc hstart hsend =>
      exact ⟨nofun, nofun, nofun, nofun, fun _ => trivial, h.closed, h.serverClosed, nofun, fun _ _ _ => rfl⟩

end Service

end ToyBox
