import ToyBox.Library.Bytes

/-! A record of the logger and the hour that names a rotated file. -/

namespace ToyBox.Logger

inductive LogLevel
  | debug
  | info
  | warn
  | error
  | fatal
  deriving DecidableEq, Repr

namespace LogLevel

def toInt : LogLevel → Int
  | debug => 0
  | info => 1
  | warn => 2
  | error => 3
  | fatal => 4

def toBytes : LogLevel → Bytes
  | debug => ascii "DEBUG"
  | info => ascii "INFO "
  | warn => ascii "WARN "
  | error => ascii "ERROR"
  | fatal => ascii "FATAL"

end LogLevel

structure Record where
  timestamp : Bytes
  codeLine : Bytes
  message : Bytes
  logLevel : LogLevel
  deriving DecidableEq, Repr

/-- `[level] [timestamp] [codeLine] message` and a newline. -/
def Record.string (r : Record) : Bytes :=
  ascii "[" ++ r.logLevel.toBytes ++ ascii "] [" ++ r.timestamp ++ ascii "] [" ++ r.codeLine ++
    ascii "] " ++ r.message ++ [newline]

/-- A clock reading, down to the hour. -/
structure Hour where
  year : Nat
  month : Nat
  day : Nat
  hour : Nat
  month_le : month ≤ 12 := by decide
  day_le : day ≤ 31 := by decide
  hour_lt : hour < 24 := by decide

namespace Hour

/-- An hour of 1 May 2024, counted modulo 24. -/
def mayFirst (hour : Nat) : Hour :=
  { year := 2024, month := 5, day := 1, hour := hour % 24, hour_lt := Nat.mod_lt hour (by decide) }

instance : LE Hour where
  le t t' := t.year < t'.year ∨ t.year = t'.year ∧ (t.month < t'.month ∨ t.month = t'.month ∧
    (t.day < t'.day ∨ t.day = t'.day ∧ t.hour ≤ t'.hour))

/-- The digits `YYYYmmddHH` read as a number. -/
def genCurrentFileSuffix (t : Hour) : Nat :=
  ((t.year * 100 + t.month) * 100 + t.day) * 100 + t.hour

/-- Suffixes are ordered as the hours are. -/
theorem genCurrentFileSuffix_le {t t' : Hour} :
    t.genCurrentFileSuffix ≤ t'.genCurrentFileSuffix ↔ t ≤ t' := by
  have h := t.month_le; have h' := t'.month_le
  have hd := t.day_le; have hd' := t'.day_le
  have hh := t.hour_lt; have hh' := t'.hour_lt
  show _ ↔ _ ∨ _
  unfold genCurrentFileSuffix
  omega

end Hour

end ToyBox.Logger
