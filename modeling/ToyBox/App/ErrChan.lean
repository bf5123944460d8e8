import ToyBox.App.QuietClose

/-! When no goroutine of the wait group is left with an error that nobody takes. `errChan` has room for one,
and `wait` receives from it once at most: an error, or a signal in its place. The goroutine of `RunFunc`
sends one, and so does the one of the http server when the server fails. -/

namespace ToyBox

open Logger (LogLevel)

namespace App

/-- `wait` has left its first `select`, or the action goes to its end without it. -/
def Main.PastQuit : Main → Prop
  | quitLog _ _ => True
  | cancel _ => True
  | waitDone _ => True
  | forceQuitLog _ => True
  | deletePidFile _ => True
  | controlLog _ _ => True
  | close _ _ => True
  | returned _ => True
  | _ => False

/-- The goroutine is at a send to `errChan`. -/
def RunFunc.Sending : RunFunc → Prop
  | sendErr _ => True
  | panicSendErr => True
  | _ => False

/-- A goroutine is at a send that does not come to its end: `errChan` is full, and nobody receives any
more. -/
def Stuck (s : App) : Prop :=
  s.main.PastQuit ∧ s.errChan.isSome ∧ (s.runFunc.Sending ∨ s.httpServer = .sendErr)

/-- How often the goroutine will still send. -/
def RunFunc.sends : RunFunc → Nat
  | fatalLog => 0
  | fatalClose => 0
  | fatalExit => 0
  | quitLog => 0
  | wgDone => 0
  | finished => 0
  | _ => 1

/-- How often the goroutine of the http server will send, as far as is decided. -/
def HttpServer.sends : HttpServer → Nat
  | sendErr => 1
  | _ => 0

/-- How often it may still send. -/
def HttpServer.mostSends : HttpServer → Nat
  | shutdownLog => 0
  | wgDone => 0
  | finished => 0
  | _ => 1

/-- What is in `errChan` and what the goroutine of `RunFunc` will still put there. -/
def ownErrors (s : App) : Nat := s.errChan.toList.length + s.runFunc.sends

/-- The steps after which all is well: a signal is taken only where there is one error at most, in
`errChan` or to be sent; after `wait` has left its first `select`, the http server fails only if there is
none. -/
def TakesErrors (s : App) : Label → Prop
  | .signal => s.ownErrors + s.httpServer.sends ≤ 1
  | .httpServer ok => s.main.PastQuit → s.httpServer = .start → ok = false → s.ownErrors = 0
  | _ => True

/-- What holds in every run, and past the first `select` in the runs whose steps are as above. -/
structure Accounted (guarded : Prop) (s : App) : Prop where
  most : s.ownErrors + s.httpServer.mostSends ≤ 2
  past : guarded → s.main.PastQuit → s.ownErrors + s.httpServer.sends ≤ 1
  notStarted : s.main.BeforeSpawn → s.runFunc = .notStarted
  httpNotStarted : s.runFunc.BeforeHttp → s.httpServer = .notStarted

variable {s s' : App} {guarded : Prop}

theorem Main.PastQuit.not_beforeSpawn {pc : Main} (h : pc.PastQuit) : ¬pc.BeforeSpawn := by
  cases pc <;> first | exact id | exact h.elim

theorem RunFunc.Sending.sends {pc : RunFunc} (h : pc.Sending) : pc.sends = 1 := by
  cases pc with
  | sendErr err => rfl
  | panicSendErr => rfl
  | _ => exact h.elim

theorem Accounted.not_stuck (h : s.Accounted True) : ¬s.Stuck := by
  rintro ⟨hpast, hfull, hsends⟩
  have hone := h.past trivial hpast
  obtain ⟨err, herr⟩ := Option.isSome_iff_exists.mp hfull
  rw [ownErrors, herr] at hone
  replace hone : 1 + s.runFunc.sends + s.httpServer.sends ≤ 1 := hone
  rcases hsends with hrunFunc | hhttp
  · rw [hrunFunc.sends] at hone
    omega
  · rw [hhttp] at hone
    replace hone : 1 + s.runFunc.sends + 1 ≤ 1 := hone
    omega

/-! ### What a step leaves alone -/

/-- A line leaves the goroutines and `errChan` alone, also when it panics. -/
theorem log_cases (level : LogLevel) :
    s.log level = s ∨ s.log level = { s with sentAfterClose := true, exited := true } := by
  unfold log
  split
  · exact .inl rfl
  · split
    · exact .inr rfl
    · exact .inl rfl

@[simp] theorem log_main (level : LogLevel) : (s.log level).main = s.main := by
  rcases s.log_cases level with h | h <;> rw [h]

@[simp] theorem log_runFunc (level : LogLevel) : (s.log level).runFunc = s.runFunc := by
  rcases s.log_cases level with h | h <;> rw [h]

@[simp] theorem log_httpServer (level : LogLevel) : (s.log level).httpServer = s.httpServer := by
  rcases s.log_cases level with h | h <;> rw [h]

@[simp] theorem log_errChan (level : LogLevel) : (s.log level).errChan = s.errChan := by
  rcases s.log_cases level with h | h <;> rw [h]

/-- After its first `select` the main goroutine leaves `errChan` alone. -/
theorem nextMain_past {ok : Bool} (hpast : s.main.PastQuit) (hstep : s.nextMain ok = some s') :
    s'.main.PastQuit ∧ s'.runFunc = s.runFunc ∧ s'.httpServer = s.httpServer ∧ s'.errChan = s.errChan := by
  unfold nextMain at hstep
  cases hpc : s.main with
  | quitLog daemon level =>
      simp only [hpc] at hstep
      cases hstep
      exact ⟨trivial, log_runFunc _, log_httpServer _, log_errChan _⟩
  | cancel daemon =>
      simp only [hpc] at hstep
      cases hstep
      exact ⟨trivial, rfl, rfl, rfl⟩
  | waitDone daemon =>
      simp only [hpc] at hstep
      split at hstep
      · cases hstep
        refine ⟨?_, rfl, rfl, rfl⟩
        cases daemon <;> trivial
      · cases hstep
  | forceQuitLog daemon =>
      simp only [hpc] at hstep
      cases hstep
      refine ⟨?_, log_runFunc _, log_httpServer _, log_errChan _⟩
      cases daemon <;> trivial
  | deletePidFile wgDone =>
      simp only [hpc] at hstep
      cases hstep
      exact ⟨trivial, log_runFunc _, log_httpServer _, log_errChan _⟩
  | controlLog level err =>
      simp only [hpc] at hstep
      cases hstep
      exact ⟨trivial, log_runFunc _, log_httpServer _, log_errChan _⟩
  | close wgDone err =>
      simp only [hpc] at hstep
      cases hstep
      exact ⟨trivial, rfl, rfl, rfl⟩
  | returned err =>
      cases err with
      | true =>
          simp only [hpc] at hstep
          cases hstep
          refine ⟨?_, log_runFunc _, log_httpServer _, log_errChan _⟩
          rw [log_main, hpc]
          trivial
      | false =>
          simp only [hpc] at hstep
          cases hstep
          exact ⟨trivial, rfl, rfl, rfl⟩
  | _ =>
      rw [hpc] at hpast
      exact hpast.elim

/-- While `errChan` is full, a goroutine of `RunFunc` that goes on is not at a send. -/
theorem nextRunFunc_full {ok : Bool} {level : Int} (hfull : s.errChan.isSome)
    (hstep : s.nextRunFunc ok level = some s') :
    ¬s.runFunc.Sending ∧ s'.main = s.main ∧ s'.errChan = s.errChan ∧
      (s.runFunc = .spawnHttp ∨ s'.httpServer = s.httpServer) := by
  unfold nextRunFunc at hstep
  cases hpc : s.runFunc with
  | notStarted =>
      simp only [hpc] at hstep
      cases hstep
  | initLogger =>
      simp only [hpc] at hstep
      split at hstep <;> cases hstep <;> exact ⟨id, rfl, rfl, .inr rfl⟩
  | spawnHttp =>
      simp only [hpc] at hstep
      cases hstep
      exact ⟨id, rfl, rfl, .inl rfl⟩
  | listen =>
      simp only [hpc] at hstep
      split at hstep <;> cases hstep <;> exact ⟨id, rfl, rfl, .inr rfl⟩
  | fatalClose =>
      simp only [hpc] at hstep
      cases hstep
      exact ⟨id, rfl, rfl, .inr rfl⟩
  | sendErr err =>
      simp only [hpc, if_pos hfull] at hstep
      cases hstep
  | panicSendErr =>
      simp only [hpc, if_pos hfull] at hstep
      cases hstep
  | finished =>
      simp only [hpc] at hstep
      cases hstep
  | _ =>
      simp only [hpc] at hstep
      cases hstep
      exact ⟨id, by simp, by simp, .inr (by simp)⟩

/-- A panic comes where the error of `RunFunc` is still to be sent, and leaves it to be sent. -/
theorem panicRunFunc_eq (hstep : s.panicRunFunc = some s') :
    ∃ pc, s' = { s with runFunc := pc } ∧ pc.sends = s.runFunc.sends ∧ ¬pc.BeforeHttp ∧
      s.runFunc ≠ .notStarted ∧ ¬s.runFunc.Sending := by
  unfold panicRunFunc at hstep
  split at hstep
  case h_6 => cases hstep
  all_goals
    rename_i hpc
    cases hstep
    rw [hpc]
    exact ⟨_, rfl, rfl, id, nofun, id⟩

/-- And so for the goroutine of the http server. -/
theorem nextHttpServer_full {ok : Bool} (hfull : s.errChan.isSome)
    (hstep : s.nextHttpServer ok = some s') :
    s.httpServer ≠ .sendErr ∧ s'.main = s.main ∧ s'.runFunc = s.runFunc ∧ s'.errChan = s.errChan := by
  unfold nextHttpServer at hstep
  cases hpc : s.httpServer with
  | notStarted =>
      simp only [hpc] at hstep
      cases hstep
  | sendErr =>
      simp only [hpc, if_pos hfull] at hstep
      cases hstep
  | finished =>
      simp only [hpc] at hstep
      cases hstep
  | _ =>
      simp only [hpc] at hstep
      cases hstep
      exact ⟨nofun, by simp, by simp, by simp⟩

theorem nextGrpcStop_frame (hstep : s.nextGrpcStop = some s') :
    s'.main = s.main ∧ s'.runFunc = s.runFunc ∧ s'.httpServer = s.httpServer ∧ s'.errChan = s.errChan := by
  unfold nextGrpcStop at hstep
  cases hpc : s.grpcStop with
  | notStarted =>
      simp only [hpc] at hstep
      cases hstep
  | waitCancel =>
      simp only [hpc] at hstep
      split at hstep
      · cases hstep
        exact ⟨rfl, rfl, rfl, rfl⟩
      · cases hstep
  | finished =>
      simp only [hpc] at hstep
      cases hstep
  | _ =>
      simp only [hpc] at hstep
      cases hstep
      exact ⟨by simp, by simp, by simp, by simp⟩

/-! ### What is accounted for -/

theorem HttpServer.sends_le (pc : HttpServer) : pc.sends ≤ pc.mostSends := by
  cases pc <;> decide

/-- A step of the main goroutine that leaves the others and `errChan` alone. -/
theorem Accounted.setMain {t : App} (h : s.Accounted guarded)
    (hpast : guarded → t.main.PastQuit → s.ownErrors + s.httpServer.sends ≤ 1)
    (hbefore : t.main.BeforeSpawn → s.runFunc = .notStarted) (hrunFunc : t.runFunc = s.runFunc := by simp)
    (hhttp : t.httpServer = s.httpServer := by simp) (herr : t.errChan = s.errChan := by simp) :
    t.Accounted guarded := by
  have hown : t.ownErrors = s.ownErrors := by
    rw [ownErrors, ownErrors, herr, hrunFunc]
  refine ⟨?_, ?_, ?_, ?_⟩
  · rw [hown, hhttp]
    exact h.most
  · rw [hown, hhttp]
    exact hpast
  · rw [hrunFunc]
    exact hbefore
  · rw [hrunFunc, hhttp]
    exact h.httpNotStarted

/-- A step of the goroutine of `RunFunc`. -/
theorem Accounted.setRunFunc {t : App} (h : s.Accounted guarded) {pc : RunFunc} (hpc : s.runFunc = pc)
    (hstarted : pc ≠ .notStarted) (hown : t.ownErrors ≤ s.ownErrors)
    (hbefore : t.runFunc.BeforeHttp → pc.BeforeHttp) (hmain : t.main = s.main := by simp)
    (hhttp : t.httpServer = s.httpServer := by simp) : t.Accounted guarded := by
  refine ⟨?_, ?_, ?_, ?_⟩
  · rw [hhttp]
    exact Nat.le_trans (Nat.add_le_add_right hown _) h.most
  · rw [hhttp, hmain]
    exact fun hguarded hpast => Nat.le_trans (Nat.add_le_add_right hown _) (h.past hguarded hpast)
  · rw [hmain]
    exact fun hspawn => absurd (hpc.symm.trans (h.notStarted hspawn)) hstarted
  · rw [hhttp]
    exact fun hhttp' => h.httpNotStarted (hpc ▸ hbefore hhttp')

/-- Before the main goroutine has started the others, only the one error of `RunFunc` is to come. -/
theorem Accounted.le_of_beforeSpawn (h : s.Accounted guarded) (hmain : s.main.BeforeSpawn) :
    s.ownErrors + s.httpServer.sends ≤ 1 := by
  have hhttp : s.httpServer = .notStarted := h.httpNotStarted (h.notStarted hmain ▸ trivial)
  have hmost := h.most
  rw [hhttp] at hmost ⊢
  replace hmost : s.ownErrors + 1 ≤ 2 := hmost
  show s.ownErrors + 0 ≤ 1
  omega

/-- `wait` receives what is in `errChan`. -/
theorem Accounted.receive (h : s.Accounted guarded) {err : Bool} (herr : s.errChan = some err) {main : Main}
    (hmain : ¬main.BeforeSpawn) : Accounted guarded { s with main, errChan := none } := by
  have hmost := h.most
  have hsends := s.httpServer.sends_le
  have hown : s.ownErrors = 1 + s.runFunc.sends := by
    rw [ownErrors, herr]
    rfl
  have hown' : ownErrors { s with main, errChan := none } = s.runFunc.sends := Nat.zero_add _
  refine ⟨?_, fun _ _ => ?_, fun hbefore => absurd hbefore hmain, h.httpNotStarted⟩
  · rw [hown']
    show s.runFunc.sends + s.httpServer.mostSends ≤ 2
    omega
  · rw [hown']
    show s.runFunc.sends + s.httpServer.sends ≤ 1
    omega

theorem Accounted.main (h : s.Accounted guarded) {ok : Bool} (hstep : s.nextMain ok = some s') :
    s'.Accounted guarded := by
  have hspawn := h.le_of_beforeSpawn
  have hpast := h.past
  have hstarted := h.notStarted
  unfold nextMain at hstep
  cases hpc : s.main with
  | action =>
      simp only [hpc] at hstep
      cases hstep
  | daemonLog =>
      simp only [hpc] at hstep
      cases hstep
      exact h.setMain (fun _ => nofun) fun _ => hstarted (hpc ▸ trivial)
  | writeServicePid =>
      simp only [hpc] at hstep
      cases hstep
      exact h.setMain (fun _ _ => hspawn (hpc ▸ trivial)) fun _ => hstarted (hpc ▸ trivial)
  | pidErrorLog =>
      simp only [hpc] at hstep
      cases hstep
      refine h.setMain ?_ ?_
      · rw [log_main, hpc]
        exact fun _ => nofun
      · exact fun _ => hstarted (hpc ▸ trivial)
  | redirect =>
      simp only [hpc] at hstep
      cases hstep
      exact h.setMain (fun _ _ => hspawn (hpc ▸ trivial)) fun _ => hstarted (hpc ▸ trivial)
  | redirectErrorLog =>
      simp only [hpc] at hstep
      cases hstep
      exact h.setMain (fun _ => nofun) fun _ => hstarted (hpc ▸ trivial)
  | spawn daemon =>
      have hnotStarted : s.runFunc = .notStarted := hstarted (hpc ▸ trivial)
      simp only [hpc] at hstep
      cases hstep
      have hmost := h.most
      rw [ownErrors, hnotStarted] at hmost
      exact ⟨hmost, fun _ => nofun, nofun, fun _ => h.httpNotStarted (hnotStarted ▸ trivial)⟩
  | waitQuit daemon =>
      simp only [hpc] at hstep
      split at hstep
      · cases hstep
        exact h.receive ‹_› nofun
      · cases hstep
        exact h.receive ‹_› nofun
      · cases hstep
  | _ =>
      have hpastQuit : s.main.PastQuit := hpc ▸ trivial
      obtain ⟨hpast', hrunFunc, hhttp, herr⟩ := nextMain_past hpastQuit hstep
      exact h.setMain (fun hguarded _ => hpast hguarded hpastQuit)
        (fun hbefore => absurd hbefore hpast'.not_beforeSpawn) hrunFunc hhttp herr

/-- The goroutine goes on without a send. -/
theorem ownErrors_le {t : App} {pc : RunFunc} (hpc : s.runFunc = pc) (herr : t.errChan = s.errChan)
    (hsends : t.runFunc.sends ≤ pc.sends) : t.ownErrors ≤ s.ownErrors := by
  rw [ownErrors, ownErrors, herr, hpc]
  exact Nat.add_le_add_left hsends _

/-- An error goes from the goroutine into `errChan`. -/
theorem ownErrors_of_send {t : App} {pc : RunFunc} (hpc : s.runFunc = pc) (hsends : pc.sends = 1)
    (hroom : ¬s.errChan.isSome) (hdone : t.runFunc.sends = 0) : t.ownErrors ≤ s.ownErrors := by
  have hnone : s.errChan = none := Option.not_isSome_iff_eq_none.mp hroom
  rw [ownErrors, ownErrors, hnone, hpc, hsends, hdone]
  cases t.errChan with
  | none => exact Nat.zero_le _
  | some err => exact Nat.le.refl

theorem Accounted.runFunc (h : s.Accounted guarded) {ok : Bool} {level : Int}
    (hstep : s.nextRunFunc ok level = some s') : s'.Accounted guarded := by
  unfold nextRunFunc at hstep
  cases hpc : s.runFunc with
  | notStarted =>
      simp only [hpc] at hstep
      cases hstep
  | startLog =>
      simp only [hpc] at hstep
      cases hstep
      exact h.setRunFunc hpc nofun (ownErrors_le hpc (by simp) Nat.le.refl) fun _ => trivial
  | initLogger =>
      simp only [hpc] at hstep
      split at hstep
      · cases hstep
        exact h.setRunFunc hpc nofun (ownErrors_le hpc rfl Nat.le.refl) fun _ => trivial
      · cases hstep
        exact h.setRunFunc hpc nofun (ownErrors_le hpc rfl Nat.le.refl) nofun
  | spawnHttp =>
      have hhttp : s.httpServer = .notStarted := h.httpNotStarted (hpc ▸ trivial)
      have hmost := h.most
      have hpast := h.past
      rw [ownErrors, hpc, hhttp] at hmost hpast
      simp only [hpc] at hstep
      cases hstep
      exact ⟨hmost, hpast, fun hbefore => absurd (hpc.symm.trans (h.notStarted hbefore)) nofun, nofun⟩
  | grpcLog =>
      simp only [hpc] at hstep
      cases hstep
      exact h.setRunFunc hpc nofun (ownErrors_le hpc (by simp) Nat.le.refl) nofun
  | listen =>
      simp only [hpc] at hstep
      split at hstep
      · cases hstep
        exact h.setRunFunc hpc nofun (ownErrors_le hpc rfl Nat.le.refl) nofun
      · cases hstep
        exact h.setRunFunc hpc nofun (ownErrors_le hpc rfl (Nat.zero_le _)) nofun
  | fatalLog =>
      simp only [hpc] at hstep
      cases hstep
      exact h.setRunFunc hpc nofun (ownErrors_le hpc (by simp) (Nat.zero_le _)) nofun
  | fatalClose =>
      simp only [hpc] at hstep
      cases hstep
      exact h.setRunFunc hpc nofun (ownErrors_le hpc rfl (Nat.zero_le _)) nofun rfl rfl
  | fatalExit =>
      simp only [hpc] at hstep
      cases hstep
      exact h.setRunFunc hpc nofun (ownErrors_le hpc rfl (Nat.zero_le _)) nofun
  | serve =>
      simp only [hpc] at hstep
      cases hstep
      exact h.setRunFunc hpc nofun (ownErrors_le hpc rfl Nat.le.refl) nofun
  | serverQuitLog err panicking =>
      simp only [hpc] at hstep
      cases hstep
      refine h.setRunFunc hpc nofun (ownErrors_le hpc (by simp) ?_) ?_
      · cases panicking <;> exact Nat.le.refl
      · cases panicking <;> nofun
  | sendErr err =>
      simp only [hpc] at hstep
      split at hstep
      · cases hstep
      · cases hstep
        exact h.setRunFunc hpc nofun (ownErrors_of_send hpc rfl ‹_› rfl) nofun
  | quitLog =>
      simp only [hpc] at hstep
      cases hstep
      exact h.setRunFunc hpc nofun (ownErrors_le hpc (by simp) (Nat.zero_le _)) nofun
  | panicLog =>
      simp only [hpc] at hstep
      cases hstep
      exact h.setRunFunc hpc nofun (ownErrors_le hpc (by simp) Nat.le.refl) nofun
  | panicSendErr =>
      simp only [hpc] at hstep
      split at hstep
      · cases hstep
      · cases hstep
        exact h.setRunFunc hpc nofun (ownErrors_of_send hpc rfl ‹_› rfl) nofun
  | wgDone =>
      simp only [hpc] at hstep
      cases hstep
      exact h.setRunFunc hpc nofun (ownErrors_le hpc rfl (Nat.zero_le _)) nofun
  | finished =>
      simp only [hpc] at hstep
      cases hstep

theorem Accounted.panic (h : s.Accounted guarded) (hstep : s.panicRunFunc = some s') :
    s'.Accounted guarded := by
  obtain ⟨pc, rfl, hsends, hbefore, hstarted, -⟩ := panicRunFunc_eq hstep
  exact h.setRunFunc rfl hstarted (ownErrors_le rfl rfl (Nat.le_of_eq hsends)) fun hpc => absurd hpc hbefore

/-- A step of the goroutine of the http server. -/
theorem Accounted.setHttpServer {t : App} (h : s.Accounted guarded) (hstarted : s.httpServer ≠ .notStarted)
    (hmost : t.ownErrors + t.httpServer.mostSends ≤ s.ownErrors + s.httpServer.mostSends)
    (hsends : guarded → s.main.PastQuit → t.ownErrors + t.httpServer.sends ≤ 1)
    (hmain : t.main = s.main := by simp) (hrunFunc : t.runFunc = s.runFunc := by simp) : t.Accounted guarded := by
  refine ⟨Nat.le_trans hmost h.most, ?_, ?_, ?_⟩
  · rw [hmain]
    exact hsends
  · rw [hmain, hrunFunc]
    exact h.notStarted
  · rw [hrunFunc]
    exact fun hbefore => absurd (h.httpNotStarted hbefore) hstarted

/-- A log call of the http server sends nothing. -/
theorem Accounted.logHttpServer (h : s.Accounted guarded) (hstarted : s.httpServer ≠ .notStarted) {pc : HttpServer}
    (hmost : pc.mostSends = s.httpServer.mostSends) (hsends : pc.sends = s.httpServer.sends) :
    Accounted guarded { s.log .info with httpServer := pc } := by
  have hown : ownErrors { s.log .info with httpServer := pc } = s.ownErrors := by
    rw [ownErrors, ownErrors, log_errChan, log_runFunc]
  refine h.setHttpServer hstarted (Nat.le_of_eq ?_) ?_
  · rw [hown, hmost]
  · rw [hown, hsends]
    exact h.past

theorem Accounted.httpServer (h : s.Accounted guarded) {ok : Bool}
    (hguard : guarded → s.TakesErrors (.httpServer ok))
    (hstep : s.nextHttpServer ok = some s') : s'.Accounted guarded := by
  have hpast := h.past
  unfold nextHttpServer at hstep
  cases hpc : s.httpServer with
  | notStarted =>
      simp only [hpc] at hstep
      cases hstep
  | startLog =>
      simp only [hpc] at hstep
      cases hstep
      exact h.logHttpServer (hpc ▸ nofun) (hpc ▸ rfl) (hpc ▸ rfl)
  | start =>
      simp only [hpc] at hstep
      cases hstep
      rw [hpc] at hpast
      refine h.setHttpServer (hpc ▸ nofun) ?_ fun hguarded hmain => ?_
      · rw [hpc]
        cases ok with
        | true => exact Nat.le_succ _
        | false => exact Nat.le.refl
      · cases ok with
        | true => exact hpast hguarded hmain
        | false =>
            have hnone : s.ownErrors = 0 := hguard hguarded hmain hpc rfl
            show s.ownErrors + 1 ≤ 1
            omega
  | sendErr =>
      simp only [hpc] at hstep
      split at hstep
      · cases hstep
      · rename_i hroom
        cases hstep
        have hnone : s.errChan = none := Option.not_isSome_iff_eq_none.mp hroom
        have hown : s.ownErrors = s.runFunc.sends := by
          rw [ownErrors, hnone]
          exact Nat.zero_add _
        rw [hpc, hown] at hpast
        refine h.setHttpServer (hpc ▸ nofun) ?_ fun hguarded hmain => ?_
        · rw [hown, hpc]
          show 1 + s.runFunc.sends + 0 ≤ s.runFunc.sends + 1
          omega
        · have hone : s.runFunc.sends + 1 ≤ 1 := hpast hguarded hmain
          show 1 + s.runFunc.sends + 0 ≤ 1
          omega
  | shutdownLog =>
      simp only [hpc] at hstep
      cases hstep
      exact h.logHttpServer (hpc ▸ nofun) (hpc ▸ rfl) (hpc ▸ rfl)
  | wgDone =>
      simp only [hpc] at hstep
      cases hstep
      rw [hpc] at hpast
      refine h.setHttpServer (hpc ▸ nofun) ?_ hpast
      rw [hpc]
      exact Nat.le.refl
  | finished =>
      simp only [hpc] at hstep
      cases hstep

theorem Accounted.grpcStop (h : s.Accounted guarded) (hstep : s.nextGrpcStop = some s') :
    s'.Accounted guarded := by
  obtain ⟨hmain, hrunFunc, hhttp, herr⟩ := nextGrpcStop_frame hstep
  refine h.setMain ?_ ?_ hrunFunc hhttp herr
  · rw [hmain]
    exact h.past
  · rw [hmain]
    exact h.notStarted

/-- Every step that meets the guard keeps what is accounted for. -/
theorem Accounted.effect (h : s.Accounted guarded) {label : Label} (hguard : guarded → s.TakesErrors label)
    (heffect : Effect s label s') : s'.Accounted guarded := by
  cases heffect with
  | serve hpc => exact h.setMain (fun _ _ => h.le_of_beforeSpawn (hpc ▸ trivial)) fun _ => h.notStarted (hpc ▸ trivial)
  | controlLog hpc => exact h.setMain (fun _ _ => h.le_of_beforeSpawn (hpc ▸ trivial)) nofun
  | noServe hpc => exact h.setMain (fun _ _ => h.le_of_beforeSpawn (hpc ▸ trivial)) nofun
  | signal hpc => exact h.setMain (fun hguarded _ => hguard hguarded) nofun
  | timeout hpc => exact h.setMain (fun hguarded _ => h.past hguarded (hpc ▸ trivial)) nofun
  | main hstep => exact h.main hstep
  | runFunc hstep => exact h.runFunc hstep
  | panic hstep => exact h.panic hstep
  | httpServer hstep => exact h.httpServer hguard hstep
  | grpcStop hstep => exact h.grpcStop hstep

theorem Accounted.start : Accounted guarded {} := ⟨Nat.le.refl, fun _ => nofun, fun _ => rfl, fun _ => rfl⟩

theorem Accounted.step (h : s.Accounted guarded) {label : Label} (hguard : guarded → s.TakesErrors label)
    (hstep : system.step s label = some s') : s'.Accounted guarded :=
  h.effect hguard (effect_of_step hstep).2

/-- A goroutine that finds no room for its error after the first `select` of `wait` waits for ever. -/
theorem Stuck.effect (h : s.Stuck) (hacc : s.Accounted False) {label : Label}
    (heffect : Effect s label s') : s'.Stuck := by
  obtain ⟨hpast, hfull, hsends⟩ := h
  have hframe : s'.main.PastQuit → s'.runFunc = s.runFunc → s'.httpServer = s.httpServer →
      s'.errChan = s.errChan → s'.Stuck := by
    intro hmain hrunFunc hhttp herr
    exact ⟨hmain, herr ▸ hfull, hrunFunc ▸ hhttp ▸ hsends⟩
  cases heffect with
  | serve hpc => exact (hpc ▸ hpast : Main.PastQuit .action).elim
  | controlLog hpc => exact (hpc ▸ hpast : Main.PastQuit .action).elim
  | noServe hpc => exact (hpc ▸ hpast : Main.PastQuit .action).elim
  | @signal daemon hpc => exact (hpc ▸ hpast : Main.PastQuit (.waitQuit daemon)).elim
  | timeout hpc => exact hframe trivial rfl rfl rfl
  | main hstep =>
      obtain ⟨hmain, hrunFunc, hhttp, herr⟩ := nextMain_past hpast hstep
      exact hframe hmain hrunFunc hhttp herr
  | runFunc hstep =>
      obtain ⟨hnot, hmain, herr, hhttp⟩ := nextRunFunc_full hfull hstep
      have hsend : s.httpServer = .sendErr := hsends.resolve_left hnot
      have hhttp' : s'.httpServer = s.httpServer := by
        rcases hhttp with hspawn | hsame
        · rw [hacc.httpNotStarted (hspawn ▸ trivial)] at hsend
          cases hsend
        · exact hsame
      exact ⟨hmain ▸ hpast, herr ▸ hfull, .inr (hhttp'.trans hsend)⟩
  | panic hstep =>
      obtain ⟨pc, rfl, -, -, -, hnot⟩ := panicRunFunc_eq hstep
      exact ⟨hpast, hfull, .inr (hsends.resolve_left hnot)⟩
  | httpServer hstep =>
      obtain ⟨hnot, hmain, hrunFunc, herr⟩ := nextHttpServer_full hfull hstep
      have hsend : s.runFunc.Sending := hsends.resolve_right hnot
      exact ⟨hmain ▸ hpast, herr ▸ hfull, .inl (hrunFunc ▸ hsend)⟩
  | grpcStop hstep =>
      obtain ⟨hmain, hrunFunc, hhttp, herr⟩ := nextGrpcStop_frame hstep
      exact hframe (hmain ▸ hpast) hrunFunc hhttp herr

/-- No run leads on from there to the end of the send. -/
theorem stuck_of_run (hs : system.Reachable s) (h : s.Stuck) {labels : List Label}
    (hrun : system.run s labels = some s') : s'.Stuck := by
  have hacc : s.Accounted False := hs.invariant Accounted.start fun _ _ _ _ ih _ hstep =>
    ih.step nofun hstep
  induction labels generalizing s with
  | nil => exact Option.some.inj hrun ▸ h
  | cons label labels ih =>
      obtain ⟨s₁, hstep, hrest⟩ := TransitionSystem.run_cons.mp hrun
      exact ih (.step hs trivial hstep) (h.effect hacc (effect_of_step hstep).2) hrest (hacc.step nofun hstep)

/-- In every run whose steps all meet the guard, no goroutine is left with an error. -/
theorem not_stuck_of_takesErrors (hs : system.ReachableBy TakesErrors s) : ¬s.Stuck := by
  have hacc : s.Accounted True := hs.invariant Accounted.start fun _ _ _ _ ih hguard hstep =>
    ih.step (fun _ => hguard) hstep
  exact hacc.not_stuck

/-- `InitLogger` fails after the signal is taken; its error stays in `errChan`. -/
theorem not_stuck_of_takesErrors_initLogger :
    ∃ s, system.ReachableBy TakesErrors s ∧ s.main = .quitLog false .info ∧ s.errChan = some true ∧
      ¬s.Stuck := by
  have hserve : system.ReachableBy TakesErrors _ := .step (a := .serve false) .start trivial rfl
  have hspawn : system.ReachableBy TakesErrors _ := hserve.step (a := .main true) trivial rfl
  have hstart : system.ReachableBy TakesErrors _ := hspawn.step (a := .runFunc true 0) trivial rfl
  have hsignal : system.ReachableBy TakesErrors _ := hstart.step (a := .signal) Nat.le.refl rfl
  have hfail : system.ReachableBy TakesErrors _ := hsignal.step (a := .runFunc false 0) trivial rfl
  have hsend : system.ReachableBy TakesErrors _ := hfail.step (a := .runFunc true 0) trivial rfl
  exact ⟨_, hsend, rfl, rfl, not_stuck_of_takesErrors hsend⟩

/-- The http server fails, and its error is in `errChan` when `wait` takes a signal. After the grpc server
has stopped, the result of `RunFunc` finds no room there. -/
def signalBesideError : List Label :=
  [.serve false, .main true,
    .runFunc true 0, .runFunc true 0, .runFunc true 0,
    .httpServer true, .httpServer false, .httpServer true,
    .runFunc true 0, .runFunc true 0,
    .signal, .main true, .main true,
    .grpcStop, .grpcStop, .grpcStop,
    .runFunc true 0, .runFunc true 0]

theorem stuck_signalBesideError : ¬∀ s, system.Reachable s → ¬s.Stuck := by
  intro hnever
  obtain ⟨s, hrun, hmain, hfull, hsend⟩ : ∃ s, system.run system.start signalBesideError = some s ∧
      s.main = .waitDone false ∧ s.errChan = some true ∧ s.runFunc = .sendErr false :=
    ⟨_, rfl, rfl, rfl, rfl⟩
  refine hnever s (TransitionSystem.reachable_of_run hrun) ⟨?_, ?_, ?_⟩
  · rw [hmain]
    trivial
  · rw [hfull]
    rfl
  · rw [hsend]
    exact .inl trivial

end App

end ToyBox
