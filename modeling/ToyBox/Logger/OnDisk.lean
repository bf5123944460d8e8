import ToyBox.Logger.Pipeline

/-! What a configured program has on its disk when `Close` has returned: every record it logged is in the file of its
level, as a whole and once, behind what was there before. -/

namespace ToyBox.Logger

/-- What a configuration can register a writer for. -/
inductive Part
  | info
  | wf
  | console
  deriving DecidableEq

namespace LoggerConfig

variable (conf : LoggerConfig)

def writer : Part → Writer
  | .info => .file conf.infoWriter
  | .wf => .file conf.wfWriter
  | .console => .console { color := conf.getEnableColor, level := conf.getConsoleLogLevel - 1 }

/-- What `initLoggerWithConf` registers a writer for, in its order. -/
def parts : List Part :=
  (if conf.fileWriterConfig.isSome ∧ conf.getInfoLogPath.length > 0 then [.info] else []) ++
    (if conf.fileWriterConfig.isSome ∧ conf.getWfLogPath.length > 0 then [.wf] else []) ++
    if conf.getConsoleEnable then [.console] else []

/-- The writers by what they are registered for. -/
def setup (w : { part // part ∈ conf.parts }) : Writer := conf.writer w.1

variable {conf}

end LoggerConfig

/-! ### A program that configures its logger first -/

namespace Pipeline

variable {ι : Type} [DecidableEq ι] {conf : LoggerConfig}

/-- `initLoggerWithConf` registers the writers, in its order, before the first log call and before `Close`. -/
structure ConfiguredFirst (conf : LoggerConfig) (s : Pipeline ι { part // part ∈ conf.parts })
    (step : Label ι { part // part ∈ conf.parts } × Hour) : Prop where
  orderly : Orderly s step
  registers : ∀ w ∈ step.1.registers, s.logger.writers ++ [w] <+: conf.parts.attach
  deliver : ∀ p call, step.1 = .deliver p call → s.logger.writers = conf.parts.attach
  close : step.1 = .close → s.logger.writers = conf.parts.attach

/-- Where the configuration is: nothing is logged until it is complete. -/
structure Configuring (s : Pipeline ι { part // part ∈ conf.parts }) : Prop where
  complete : s.logger.writers = conf.parts.attach ∨ ∀ p, s.logger.accepted p = []
  since : ∀ w, s.since w = 0
  closing : s.logger.closer ≠ .notCalled →
    s.logger.writers = conf.parts.attach ∧ s.logger.registeredAtClose = conf.parts.attach

end Pipeline

section

variable {ι ω : Type} [DecidableEq ι] {s s' : Logger ι ω} {label : Label ι ω} {isFlusher : ω → Bool}

/-- Only a log call is accepted. -/
theorem accepted_of_effect (h : Effect isFlusher s label s') :
    s'.accepted = s.accepted ∨ ∃ p call, label = .deliver p call := by
  cases h with
  | @deliver p call hlevel hidle => exact .inr ⟨p, call, rfl⟩
  | _ => exact .inl rfl

/-- Only `Close` closes. -/
theorem closer_of_effect (h : Effect isFlusher s label s') :
    (s'.registeredAtClose = s.registeredAtClose ∧ (s.closer = .notCalled → s'.closer = .notCalled)) ∨
      label = .close ∧ s'.registeredAtClose = s.writers := by
  cases h with
  | close hcloser => exact .inr ⟨rfl, rfl⟩
  | closeReceive hcloser hc => exact .inl ⟨rfl, fun hnot => absurd (hcloser.symm.trans hnot) (by nofun)⟩
  | closeFlush hcloser => exact .inl ⟨rfl, fun hnot => absurd (hcloser.symm.trans hnot) (by nofun)⟩
  | closeEnd hcloser => exact .inl ⟨rfl, fun hnot => absurd (hcloser.symm.trans hnot) (by nofun)⟩
  | _ => exact .inl ⟨rfl, id⟩

/-- Where no call was accepted nothing has come to a writer. -/
theorem ranged_eq_nil (hintact : s.Intact) (hdelivered : s.Delivered) (haccepted : s.Accepted)
    (hnone : ∀ p, s.accepted p = []) : s.ranged = [] := by
  have hentered : s.entered = [] := by
    rw [List.eq_nil_iff_forall_not_mem]
    rintro ⟨p, r⟩ hmem
    have hempty := (haccepted p).symm.trans (hnone p)
    rw [List.append_eq_nil_iff, callsEntered, List.map_eq_nil_iff, List.filter_eq_nil_iff] at hempty
    exact hempty.1 (p, r) hmem (by simp)
  have hrecords : s.records = [] := by rw [records, hentered]; rfl
  have hle := ranged_le hintact hdelivered
  rw [hrecords] at hle
  exact List.eq_nil_of_length_eq_zero (Nat.le_zero.mp hle)

end

namespace Pipeline

variable {ι : Type} [DecidableEq ι] {conf : LoggerConfig} {fs₀ : FileSystem} {start : Hour}
  {s s' : Pipeline ι { part // part ∈ conf.parts }}

theorem Configuring.next (h : Configuring s) (hkept : Kept conf.setup fs₀ start s)
    {label : Label ι { part // part ∈ conf.parts }} {now : Hour} (hguard : ConfiguredFirst conf s (label, now))
    (hnext : s.next conf.setup label now = some s') : Configuring s' := by
  obtain ⟨logger, hlogger, hnext⟩ := Option.bind_eq_some_iff.mp hnext
  obtain ⟨sinks₁, -, hnext⟩ := Option.bind_eq_some_iff.mp hnext
  obtain ⟨sinks₂, -, hnext⟩ := Option.bind_eq_some_iff.mp hnext
  cases hnext
  have hmoves := moves_of_next hlogger
  have heffect := effect_of_next hlogger
  -- no writer is registered any more once all are
  have hlast : s.logger.writers = conf.parts.attach → label.registers = [] := by
    intro hall
    rw [List.eq_nil_iff_forall_not_mem]
    intro w hw
    have hlength := (hguard.registers w hw).length_le
    rw [hall, List.length_append, List.length_singleton] at hlength
    exact absurd hlength (Nat.not_succ_le_self _)
  have hstays : s.logger.writers = conf.parts.attach → logger.writers = conf.parts.attach := by
    intro hall
    rw [hmoves.writers, hlast hall, List.append_nil, hall]
  refine ⟨?_, ?_, ?_⟩
  · show logger.writers = _ ∨ ∀ p, logger.accepted p = []
    rcases h.complete with hall | hnone
    · exact .inl (hstays hall)
    · rcases accepted_of_effect heffect with hsame | ⟨p, call, rfl⟩
      · rw [hsame]
        exact .inr hnone
      · exact .inl (hstays (hguard.deliver p call rfl))
  · intro w
    show sinceAfter s.logger label s.since w = 0
    rcases h.complete with hall | hnone
    · rw [sinceAfter, hlast hall]
      exact h.since w
    · by_cases hw : w ∈ label.registers
      · rw [sinceAfter_of_registers hw,
          ranged_eq_nil hkept.logger.intact hkept.logger.delivered hkept.logger.accepted hnone]
        rfl
      · rw [sinceAfter_of_not_registers hw]
        exact h.since w
  · intro hcalled
    show logger.writers = _ ∧ logger.registeredAtClose = _
    rcases closer_of_effect heffect with ⟨hsame, hcloser⟩ | ⟨rfl, hregistered⟩
    · obtain ⟨hall, hatClose⟩ := h.closing (mt hcloser hcalled)
      exact ⟨hstays hall, hsame.trans hatClose⟩
    · have hall := hguard.close rfl
      exact ⟨hstays hall, hregistered.trans hall⟩

end Pipeline

end ToyBox.Logger
