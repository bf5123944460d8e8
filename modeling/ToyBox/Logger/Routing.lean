import ToyBox.Logger.Config
import ToyBox.Logger.Delivery

/-! Which records the configured writers get. The configuration documents a routing; `initLoggerWithConf` does
not ask whether the file writers are enabled, and makes the level of the files the level of the logger, which a
record has to reach before any writer is asked. -/

namespace ToyBox.Logger

/-! ### What a writer makes of a record -/

namespace ConsoleWriter

/-- The colour of a level. -/
def levelColor : LogLevel → Bytes
  | .debug => ascii "34"
  | .info => ascii "32"
  | .warn => ascii "33"
  | .error => ascii "31"
  | .fatal => ascii "35"

/-- A text between the escape sequences of a colour. -/
def paint (color text : Bytes) : Bytes := [27] ++ ascii "[" ++ color ++ ascii "m" ++ text ++ [27] ++ ascii "[0m"

/-- `colorRecord.String`. -/
def colorString (r : Record) : Bytes :=
  ascii "[" ++ paint (ascii "36") r.timestamp ++ ascii "] [" ++ paint (levelColor r.logLevel) r.logLevel.toBytes ++
    ascii "] [" ++ paint (ascii "47;30") r.codeLine ++ ascii "] " ++ r.message ++ [newline]

def text (cw : ConsoleWriter) (r : Record) : Bytes := if cw.color then colorString r else r.string

/-- What `Write` prints. -/
def write (cw : ConsoleWriter) (r : Record) : Option Bytes :=
  if r.logLevel.toInt < cw.level then none else some (cw.text r)

end ConsoleWriter

/-- What `Write` hands to the buffered writer of the file. -/
def FileWriter.handed (fa : FileWriter) (r : Record) : Option Bytes :=
  if fa.Accepts r then some r.string else none

/-- Where a writer writes to. Each file writer has a buffer of its own, so that two logs of one path, the one up to
the level of information and the one from warnings on, are two sinks. -/
inductive Sink
  | file (path : Bytes) (floor : Int)
  | console
  deriving DecidableEq

namespace Writer

def sink : Writer → Sink
  | file fa => .file fa.fileName fa.logLevelFloor
  | console _ => .console

def write : Writer → Record → Option Bytes
  | file fa, r => fa.handed r
  | console cw, r => cw.write r

/-- What a sink gets of a record through a writer. -/
def writeTo (sink : Sink) (r : Record) (w : Writer) : Option Bytes := if w.sink = sink then w.write r else none

end Writer

namespace DefaultLogger

variable (l : DefaultLogger)

/-- The records of the log calls that `deliverRecord2Writer` does not drop. -/
def delivered (calls : List Record) : List Record := calls.filter fun r => ¬r.logLevel.toInt < l.level

/-- What a sink gets over a sequence of log calls: each record goes once to each of the writers. -/
def received (calls : List Record) (sink : Sink) : List Bytes :=
  (deliveries ((l.delivered calls).map fun _ => l.writers) (l.delivered calls)).filterMap
    fun (w, r) => w.writeTo sink r

end DefaultLogger

/-! ### What the configuration documents -/

/-- The number of a level in the configuration. -/
def LogLevel.number (level : LogLevel) : Int := level.toInt + 1

namespace LogLevel

theorem number_le_number {a b : LogLevel} : a.toInt ≤ b.toInt ↔ a.number ≤ b.number := by
  unfold number
  omega

theorem toInt_lt_iff {a : LogLevel} {level : Int} : a.toInt < level - 1 ↔ ¬level ≤ a.number := by
  unfold number
  omega

theorem number_le_fatal (a : LogLevel) : a.number ≤ fatal.number := by
  cases a <;> decide

end LogLevel

namespace LoggerConfig

variable (conf : LoggerConfig)

/-- `enable` of the file writers, which `initLoggerWithConf` does not read. -/
def getFileEnable : Bool := (conf.fileWriterConfig.bind (·.enable)).getD false

/-- The path of the log that a record belongs to. -/
def route (r : Record) : Bytes :=
  if LogLevel.warn.toInt ≤ r.logLevel.toInt ∧ conf.getWfLogPath ≠ [] then conf.getWfLogPath
  else conf.getInfoLogPath

/-- The level at which the log that a record belongs to begins. -/
def routeFloor (r : Record) : Int :=
  if LogLevel.warn.toInt ≤ r.logLevel.toInt ∧ conf.getWfLogPath ≠ [] then LogLevel.warn.toInt
  else LogLevel.debug.toInt

/-- The log that a record belongs to. There is no file of an empty path. -/
def Filed (path : Bytes) (floor : Int) (r : Record) : Prop :=
  path ≠ [] ∧ conf.route r = path ∧ conf.routeFloor r = floor

instance (path : Bytes) (floor : Int) (r : Record) : Decidable (conf.Filed path floor r) :=
  inferInstanceAs (Decidable (_ ∧ _ ∧ _))

/-- What a sink is to get of a record. -/
def documented : Sink → Record → Option Bytes
  | .file path floor, r =>
      if conf.getFileEnable = true ∧ conf.getFileLogLevel ≤ r.logLevel.number ∧ conf.Filed path floor r then
        some r.string
      else none
  | .console, r =>
      if conf.getConsoleEnable = true ∧ conf.getConsoleLogLevel ≤ r.logLevel.number then
        some (if conf.getEnableColor then ConsoleWriter.colorString r else r.string)
      else none

/-- Over any sequence of log calls every sink gets what is documented, in the order of the calls. -/
def Routed (l : DefaultLogger) : Prop :=
  ∀ calls sink, l.received calls sink = calls.filterMap (conf.documented sink)

/-- No file writer is configured without being enabled, unless it has no path, and the level of the files does
not keep records from the console. -/
structure Unmixed : Prop where
  files : conf.fileWriterConfig.isSome = true →
    conf.getFileEnable = true ∨ conf.getInfoLogPath = [] ∧ conf.getWfLogPath = []
  console : conf.getConsoleEnable = true → conf.getFileLogLevel ≤ conf.getConsoleLogLevel

end LoggerConfig

/-! ### What is registered -/

theorem head?_of_string2logLevel {name : Bytes} {level : LogLevel} (h : string2logLevel name = some level) :
    name.head? = some 76 := by
  by_contra hne
  have hkey : ∀ key : Bytes, key.head? = some 76 → (name == key) = false := by
    intro key hhead
    rw [beq_eq_false_iff_ne]
    rintro rfl
    exact hne hhead
  simp [string2logLevel, List.lookup_cons, hkey (ascii "LOG_LEVEL_DEBUG") (by decide),
    hkey (ascii "LOG_LEVEL_INFO") (by decide), hkey (ascii "LOG_LEVEL_WARNING") (by decide),
    hkey (ascii "LOG_LEVEL_ERROR") (by decide), hkey (ascii "LOG_LEVEL_FATAL") (by decide)] at h

/-- The digits of a number are the name of no level. -/
theorem head?_decimal_ne (n : Nat) : (decimal n).head? ≠ some 76 := by
  intro h
  have hdigit := (isDigit_of_mem_decimal (List.mem_of_head? h)).2
  exact absurd hdigit (by decide)

/-- A number that is accepted is that of a level. -/
theorem number_of_string2logLevel {level : ConfigLevel} {logLevel : LogLevel}
    (h : string2logLevel level.string = some logLevel) : level = logLevel.number := by
  unfold ConfigLevel.string at h
  split_ifs at h with hdebug hinfo hwarn herror hfatal hnegative
  · obtain rfl : LogLevel.debug = logLevel := Option.some.inj h
    exact hdebug
  · obtain rfl : LogLevel.info = logLevel := Option.some.inj h
    exact hinfo
  · obtain rfl : LogLevel.warn = logLevel := Option.some.inj h
    exact hwarn
  · obtain rfl : LogLevel.error = logLevel := Option.some.inj h
    exact herror
  · obtain rfl : LogLevel.fatal = logLevel := Option.some.inj h
    exact hfatal
  · exact absurd (head?_of_string2logLevel h) (by simp [ascii])
  · exact absurd (head?_of_string2logLevel h) (head?_decimal_ne _)

/-- A file writer is registered with the filter and the path that were set. -/
theorem writers_of_registerFile {fa : FileWriter} {calls : InitCalls} {l l' : DefaultLogger} {fs fs' : FileSystem}
    (h : registerFile fa calls l fs = .ok (l', fs')) (sink : Sink) (r : Record) :
    l'.writers.filterMap (Writer.writeTo sink r) =
      (l.writers ++ [Writer.file fa]).filterMap (Writer.writeTo sink r) := by
  unfold registerFile FileWriter.init FileWriter.crateFile at h
  split at h
  · cases h
  · rename_i fa' fs₁ hcreate
    split_ifs at hcreate
    cases hcreate
    cases h
    show (l.writers ++ [_]).filterMap _ = _
    rw [List.filterMap_append, List.filterMap_append]
    rfl

/-- A part that registers a file writer, if it is configured. -/
theorem writers_of_registerFile_ite {registered : Prop} [Decidable registered] {fa : FileWriter} {calls : InitCalls}
    {l l' : DefaultLogger} {fs fs' : FileSystem}
    (h : (if registered then registerFile fa calls l fs else .ok (l, fs)) = .ok (l', fs')) (sink : Sink) (r : Record) :
    l'.writers.filterMap (Writer.writeTo sink r) = l.writers.filterMap (Writer.writeTo sink r) ++
      (if registered then [Writer.file fa] else []).filterMap (Writer.writeTo sink r) := by
  split_ifs at h ⊢ with hregistered
  · rw [writers_of_registerFile h, List.filterMap_append]
  · cases h
    rw [List.filterMap_nil, List.append_nil]

namespace LoggerConfig

/-- The writers that a configuration stands for. -/
def writers (conf : LoggerConfig) : List Writer :=
  (if conf.fileWriterConfig.isSome ∧ conf.getInfoLogPath.length > 0 then [.file conf.infoWriter] else []) ++
    (if conf.fileWriterConfig.isSome ∧ conf.getWfLogPath.length > 0 then [.file conf.wfWriter] else []) ++
    if conf.getConsoleEnable then
      [.console { color := conf.getEnableColor, level := conf.getConsoleLogLevel - 1 }]
    else []

/-- The logger has the writers of the configuration, as far as routing goes, and the level of the files. -/
structure Registered (conf : LoggerConfig) (l : DefaultLogger) : Prop where
  level : ∃ level : LogLevel, conf.getFileLogLevel = level.number ∧ l.level = level.toInt
  console : conf.getConsoleEnable = true → ∃ level : LogLevel, conf.getConsoleLogLevel = level.number
  writers : ∀ sink r, l.writers.filterMap (Writer.writeTo sink r) =
    conf.writers.filterMap (Writer.writeTo sink r)

variable {conf : LoggerConfig} {info wf : InitCalls} {fs₀ fs : FileSystem} {l : DefaultLogger}

theorem writers_of_registerConsole {l' : DefaultLogger} {fs' : FileSystem}
    (h : conf.registerConsole l fs = .ok (l', fs')) :
    (conf.getConsoleEnable = true → ∃ level : LogLevel, conf.getConsoleLogLevel = level.number) ∧
      l'.writers = l.writers ++ if conf.getConsoleEnable then
        [.console { color := conf.getEnableColor, level := conf.getConsoleLogLevel - 1 }] else [] := by
  unfold registerConsole at h
  split_ifs at h ⊢ with henable
  · split at h
    · cases h
    · rename_i level hname
      cases h
      have hnumber := number_of_string2logLevel hname
      refine ⟨fun _ => ⟨level, hnumber⟩, ?_⟩
      rw [hnumber, LogLevel.number, Int.add_sub_cancel]
      rfl
  · cases h
    exact ⟨fun h => absurd h henable, (List.append_nil _).symm⟩

theorem level_of_setFileLogLevel {l' : DefaultLogger} {fs' : FileSystem}
    (h : conf.setFileLogLevel l fs = .ok (l', fs')) :
    l'.writers = l.writers ∧ ∃ level : LogLevel, conf.getFileLogLevel = level.number ∧ l'.level = level.toInt := by
  unfold setFileLogLevel at h
  split at h
  · cases h
  · rename_i level hname
    cases h
    exact ⟨rfl, level, number_of_string2logLevel hname, rfl⟩

theorem registered_of_initLoggerWithConf (haccept : conf.initLoggerWithConf info wf {} fs₀ = .ok (l, fs)) :
    Registered conf l := by
  obtain ⟨⟨l₁, fs₁⟩, hinfo, haccept⟩ := Checked.bind_eq_ok_iff.mp haccept
  obtain ⟨⟨l₂, fs₂⟩, hwf, haccept⟩ := Checked.bind_eq_ok_iff.mp haccept
  obtain ⟨⟨l₃, fs₃⟩, hconsole, haccept⟩ := Checked.bind_eq_ok_iff.mp haccept
  obtain ⟨hnumber, hwriters₃⟩ := writers_of_registerConsole hconsole
  obtain ⟨hwriters, hlevel⟩ := level_of_setFileLogLevel haccept
  refine ⟨hlevel, hnumber, fun sink r => ?_⟩
  rw [hwriters, hwriters₃, List.filterMap_append, writers_of_registerFile_ite hwf, writers_of_registerFile_ite hinfo,
    LoggerConfig.writers, List.filterMap_append, List.filterMap_append]
  rfl

/-! ### Record by record -/

theorem deliveries_map_const {ω : Type} (writers : List ω) (records : List Record) :
    deliveries (records.map fun _ => writers) records = records.flatMap fun r => writers.map fun w => (w, r) := by
  induction records with
  | nil => rfl
  | cons r records ih => rw [List.map_cons, deliveries_cons, ih, List.flatMap_cons]

theorem received_eq_flatMap (l : DefaultLogger) (calls : List Record) (sink : Sink) :
    l.received calls sink = calls.flatMap fun r =>
      if l.level ≤ r.logLevel.toInt then l.writers.filterMap (Writer.writeTo sink r) else [] := by
  unfold DefaultLogger.received
  rw [deliveries_map_const, List.filterMap_flatMap]
  induction calls with
  | nil => rfl
  | cons r calls ih =>
      rw [List.flatMap_cons, ← ih, DefaultLogger.delivered, List.filter_cons]
      by_cases hlevel : l.level ≤ r.logLevel.toInt
      · rw [if_pos hlevel, if_pos (by simpa using hlevel), List.flatMap_cons, List.filterMap_map]
        rfl
      · rw [if_neg hlevel, if_neg (by simpa using hlevel), List.nil_append]
        rfl

theorem accepts_infoWriter_iff (r : Record) :
    conf.infoWriter.Accepts r ↔ conf.getWfLogPath = [] ∨ ¬LogLevel.warn.toInt ≤ r.logLevel.toInt := by
  have hfloor : conf.infoWriter.logLevelFloor = 0 := rfl
  have hceiling : conf.infoWriter.logLevelCeiling =
      if conf.getWfLogPath.length > 0 then LogLevel.info.toInt else LogLevel.fatal.toInt := rfl
  unfold FileWriter.Accepts
  rw [hfloor, hceiling, ← List.length_eq_zero_iff]
  cases r.logLevel <;> simp only [LogLevel.toInt] <;> split_ifs <;> omega

theorem accepts_wfWriter_iff (r : Record) :
    conf.wfWriter.Accepts r ↔ LogLevel.warn.toInt ≤ r.logLevel.toInt := by
  have hfloor : conf.wfWriter.logLevelFloor = LogLevel.warn.toInt := rfl
  have hceiling : conf.wfWriter.logLevelCeiling = LogLevel.fatal.toInt := rfl
  unfold FileWriter.Accepts
  rw [hfloor, hceiling]
  cases r.logLevel <;> decide

/-- A file writer, if it is registered, takes the records it accepts for its sink. -/
theorem filterMap_file (registered : Prop) [Decidable registered] (fa : FileWriter) (path : Bytes) (floor : Int)
    (r : Record) :
    (if registered then [Writer.file fa] else []).filterMap (Writer.writeTo (.file path floor) r) =
      if registered ∧ fa.fileName = path ∧ fa.logLevelFloor = floor ∧ fa.Accepts r then [r.string] else [] := by
  by_cases hregistered : registered
  · by_cases hsink : fa.fileName = path ∧ fa.logLevelFloor = floor
    · by_cases haccepts : fa.Accepts r <;>
        simp [hregistered, hsink, haccepts, Writer.writeTo, Writer.sink, Writer.write, FileWriter.handed]
    · have hother : ¬(registered ∧ fa.fileName = path ∧ fa.logLevelFloor = floor ∧ fa.Accepts r) :=
        fun h => hsink ⟨h.2.1, h.2.2.1⟩
      rw [if_neg hother]
      simp [hregistered, hsink, Writer.writeTo, Writer.sink]
  · simp [hregistered]

/-- Of the file writers one at most takes a record, that of the log it belongs to. -/
theorem writers_file (conf : LoggerConfig) (path : Bytes) (floor : Int) (r : Record) :
    conf.writers.filterMap (Writer.writeTo (.file path floor) r) =
      if conf.fileWriterConfig.isSome = true ∧ conf.Filed path floor r then [r.string] else [] := by
  have hconsole : (if conf.getConsoleEnable then
      [Writer.console { color := conf.getEnableColor, level := conf.getConsoleLogLevel - 1 }]
      else []).filterMap (Writer.writeTo (.file path floor) r) = [] := by
    split <;> simp [Writer.writeTo, Writer.sink]
  have hinfoName : conf.infoWriter.fileName = conf.getInfoLogPath := rfl
  have hwfName : conf.wfWriter.fileName = conf.getWfLogPath := rfl
  have hinfoFloor : conf.infoWriter.logLevelFloor = LogLevel.debug.toInt := rfl
  have hwfFloor : conf.wfWriter.logLevelFloor = LogLevel.warn.toInt := rfl
  rw [LoggerConfig.writers, List.filterMap_append, List.filterMap_append, hconsole, List.append_nil]
  simp only [filterMap_file, accepts_infoWriter_iff, accepts_wfWriter_iff, hinfoName, hwfName, hinfoFloor, hwfFloor,
    Filed, route, routeFloor, gt_iff_lt, List.length_pos_iff]
  have hregistered : ∀ (name : Bytes) (level : Int),
      ((conf.fileWriterConfig.isSome = true ∧ name ≠ []) ∧ name = path ∧ level = floor) ↔
        conf.fileWriterConfig.isSome = true ∧ path ≠ [] ∧ name = path ∧ level = floor := by
    intro name level
    constructor
    · rintro ⟨⟨hsome, hne⟩, rfl, rfl⟩
      exact ⟨hsome, hne, rfl, rfl⟩
    · rintro ⟨hsome, hne, rfl, rfl⟩
      exact ⟨⟨hsome, hne⟩, rfl, rfl⟩
  by_cases hwf : conf.getWfLogPath = []
  · -- one log for all records
    simp [hwf, ← hregistered]
  · by_cases hwarn : LogLevel.warn.toInt ≤ r.logLevel.toInt
    · simp [hwf, hwarn, ← hregistered]
    · simp [hwf, hwarn, ← hregistered]

theorem writers_console (conf : LoggerConfig) (r : Record) :
    conf.writers.filterMap (Writer.writeTo .console r) =
      if conf.getConsoleEnable = true ∧ conf.getConsoleLogLevel ≤ r.logLevel.number then
        [if conf.getEnableColor then ConsoleWriter.colorString r else r.string]
      else [] := by
  have hfile : ∀ (registered : Prop) [Decidable registered] (fa : FileWriter),
      (if registered then [Writer.file fa] else []).filterMap (Writer.writeTo .console r) = [] := by
    intro registered _ fa
    split <;> simp [Writer.writeTo, Writer.sink]
  rw [LoggerConfig.writers, List.filterMap_append, List.filterMap_append, hfile, hfile, List.append_nil,
    List.nil_append]
  have hlevel : r.logLevel.toInt < conf.getConsoleLogLevel - 1 ↔ ¬conf.getConsoleLogLevel ≤ r.logLevel.number :=
    LogLevel.toInt_lt_iff
  by_cases henable : conf.getConsoleEnable = true
  · by_cases hreached : conf.getConsoleLogLevel ≤ r.logLevel.number <;>
      simp [henable, hlevel, hreached, Writer.writeTo, Writer.sink, Writer.write, ConsoleWriter.write,
        ConsoleWriter.text]
  · simp [henable]

/-- What is received and what is documented are compared record by record. -/
theorem routed_iff_forall (h : Registered conf l) :
    conf.Routed l ↔ ∀ sink r,
      (if conf.getFileLogLevel ≤ r.logLevel.number then conf.writers.filterMap (Writer.writeTo sink r) else []) =
        (conf.documented sink r).toList := by
  have hlevel : ∀ r : Record, l.level ≤ r.logLevel.toInt ↔ conf.getFileLogLevel ≤ r.logLevel.number := by
    intro r
    obtain ⟨level, hfile, hlevel⟩ := h.level
    rw [hfile, hlevel, LogLevel.number_le_number]
  unfold Routed
  simp only [received_eq_flatMap, h.writers, hlevel, List.filterMap_eq_flatMap_toList]
  constructor
  · intro hrouted sink r
    have hone := hrouted [r] sink
    rwa [List.flatMap_singleton, List.flatMap_singleton] at hone
  · intro hrecord calls sink
    exact List.flatMap_congr fun r _ => hrecord sink r

/-- A record of some level. -/
def plainRecord (logLevel : LogLevel) : Record := ⟨[], [], [], logLevel⟩

/-- A fatal record has a path, if there is one at all. -/
theorem route_fatal_ne_nil (hpaths : ¬(conf.getInfoLogPath = [] ∧ conf.getWfLogPath = [])) :
    conf.route (plainRecord .fatal) ≠ [] := by
  intro hempty
  unfold route at hempty
  split_ifs at hempty with hwf
  · exact hwf.2 hempty
  · exact hpaths ⟨hempty, by_contra fun hne => hwf ⟨by decide, hne⟩⟩

theorem getFileEnable_ne_true (hnone : conf.fileWriterConfig.isSome = false) : conf.getFileEnable ≠ true := by
  have habsent : conf.fileWriterConfig = none := by simpa using hnone
  rw [getFileEnable, habsent]
  exact Bool.false_ne_true

/-- Where the files are enabled or have no paths, the writers and the documentation send a record to the same
of them. -/
theorem filed_iff_documented
    (hfiles : conf.fileWriterConfig.isSome = true →
      conf.getFileEnable = true ∨ conf.getInfoLogPath = [] ∧ conf.getWfLogPath = []) (path : Bytes) (floor : Int)
    (r : Record) :
    conf.fileWriterConfig.isSome = true ∧ conf.Filed path floor r ↔
      conf.getFileEnable = true ∧ conf.Filed path floor r := by
  constructor
  · rintro ⟨hsome, hpath, hroute, hfloor⟩
    rcases hfiles hsome with henable | ⟨hinfo, hwf⟩
    · exact ⟨henable, hpath, hroute, hfloor⟩
    · -- there is no path to route to
      have hempty : conf.route r = [] := by simp [route, hinfo, hwf]
      exact absurd (hroute.symm.trans hempty) hpath
  · rintro ⟨henable, hfiled⟩
    refine ⟨?_, hfiled⟩
    by_contra hnone
    exact getFileEnable_ne_true (by simpa using hnone) henable

/-- The files get what is documented exactly if they are enabled or there are none. -/
theorem routed_files_iff (h : Registered conf l) :
    (∀ path floor r, (if conf.getFileLogLevel ≤ r.logLevel.number then
        conf.writers.filterMap (Writer.writeTo (.file path floor) r) else []) =
        (conf.documented (.file path floor) r).toList) ↔
      (conf.fileWriterConfig.isSome = true →
        conf.getFileEnable = true ∨ conf.getInfoLogPath = [] ∧ conf.getWfLogPath = []) := by
  simp only [writers_file, documented]
  constructor
  · intro hrouted hsome
    by_contra hnot
    rw [not_or] at hnot
    have hpath := route_fatal_ne_nil hnot.2
    obtain ⟨level, hfile, -⟩ := h.level
    have hreached : conf.getFileLogLevel ≤ (plainRecord .fatal).logLevel.number := hfile ▸ level.number_le_fatal
    have hfatal := hrouted (conf.route (plainRecord .fatal)) (conf.routeFloor (plainRecord .fatal)) (plainRecord .fatal)
    rw [if_pos hreached, if_pos ⟨hsome, hpath, rfl, rfl⟩, if_neg (fun hdocumented => hnot.1 hdocumented.1)] at hfatal
    cases hfatal
  · intro hfiles path floor r
    simp only [filed_iff_documented hfiles path floor r]
    by_cases hreached : conf.getFileLogLevel ≤ r.logLevel.number
    · by_cases hfiled : conf.getFileEnable = true ∧ conf.Filed path floor r
      · rw [if_pos hreached, if_pos hfiled, if_pos ⟨hfiled.1, hreached, hfiled.2⟩]
        rfl
      · rw [if_pos hreached, if_neg hfiled, if_neg (fun h => hfiled ⟨h.1, h.2.2⟩)]
        rfl
    · rw [if_neg hreached, if_neg (fun hdocumented => hreached hdocumented.2.1)]
      rfl

theorem routed_console_iff (h : Registered conf l) :
    (∀ r, (if conf.getFileLogLevel ≤ r.logLevel.number then
        conf.writers.filterMap (Writer.writeTo .console r) else []) =
        (conf.documented .console r).toList) ↔
      (conf.getConsoleEnable = true → conf.getFileLogLevel ≤ conf.getConsoleLogLevel) := by
  simp only [writers_console, documented]
  constructor
  · intro hrouted henable
    obtain ⟨level, hconsole⟩ := h.console henable
    by_contra hnot
    have hone := hrouted (plainRecord level)
    rw [if_neg (hconsole ▸ hnot), if_pos ⟨henable, Int.le_of_eq hconsole⟩] at hone
    cases hone
  · intro hle r
    by_cases hprints : conf.getConsoleEnable = true ∧ conf.getConsoleLogLevel ≤ r.logLevel.number
    · rw [if_pos hprints, if_pos hprints, if_pos (Int.le_trans (hle hprints.1) hprints.2)]
      rfl
    · rw [if_neg hprints, if_neg hprints, ite_self]
      rfl

/-- A configuration routes as documented exactly if its files are enabled, or have no paths, and the level of
the files is none that the console would have to stay below. -/
theorem routed_iff (conf : LoggerConfig) (info wf : InitCalls) (fs₀ : FileSystem) {l : DefaultLogger}
    {fs : FileSystem} (haccept : conf.initLoggerWithConf info wf {} fs₀ = .ok (l, fs)) :
    conf.Routed l ↔ conf.Unmixed := by
  have h := registered_of_initLoggerWithConf haccept
  rw [routed_iff_forall h]
  constructor
  · intro hrouted
    exact ⟨(routed_files_iff h).mp fun path floor => hrouted (.file path floor),
      (routed_console_iff h).mp (hrouted .console)⟩
  · rintro ⟨hfiles, hconsole⟩ (⟨path, floor⟩ | _)
    · exact (routed_files_iff h).mpr hfiles path floor
    · exact (routed_console_iff h).mpr hconsole

def atNoon : InitCalls := { now := .mayFirst 12 }

/-- Files that are enabled, and everything else by default. -/
def enabledFiles : LoggerConfig := { fileWriterConfig := some { enable := some true } }

theorem routed_enabledFiles :
    ∃ l fs, enabledFiles.initLoggerWithConf atNoon atNoon {} FileSystem.empty = .ok (l, fs) ∧
      enabledFiles.Routed l := by
  have haccept : ∃ l fs, enabledFiles.initLoggerWithConf atNoon atNoon {} FileSystem.empty = .ok (l, fs) :=
    ⟨_, _, rfl⟩
  obtain ⟨l, fs, haccept⟩ := haccept
  exact ⟨l, fs, haccept, (routed_iff enabledFiles atNoon atNoon _ haccept).mpr ⟨by decide, by decide⟩⟩

/-- The configuration of `InitLoggerDefault`. -/
def defaultConfig : LoggerConfig := { fileWriterConfig := some {}, consoleWriterConfig := some {} }

/-- Files for errors only, and a console. -/
def errorFiles : LoggerConfig := { fileWriterConfig := some { enable := some true, logLevel := some 4 } }

/-- The files are not enabled by default and get the records all the same; a level of the files above that of
the console keeps records from the console. -/
theorem not_routed_defaultConfig :
    (∃ l fs, defaultConfig.initLoggerWithConf atNoon atNoon {} FileSystem.empty = .ok (l, fs) ∧
      l.received [plainRecord .info] (.file (ascii "logs/log.info") LogLevel.debug.toInt) =
        [(plainRecord .info).string] ∧
      ¬defaultConfig.Routed l) ∧
    ∃ l fs, errorFiles.initLoggerWithConf atNoon atNoon {} FileSystem.empty = .ok (l, fs) ∧
      l.received [plainRecord .info] .console = [] ∧ ¬errorFiles.Routed l := by
  have hdefault : ∃ l fs, defaultConfig.initLoggerWithConf atNoon atNoon {} FileSystem.empty = .ok (l, fs) ∧
      l.received [plainRecord .info] (.file (ascii "logs/log.info") LogLevel.debug.toInt) =
        [(plainRecord .info).string] :=
    ⟨_, _, rfl, by decide +kernel⟩
  have herror : ∃ l fs, errorFiles.initLoggerWithConf atNoon atNoon {} FileSystem.empty = .ok (l, fs) ∧
      l.received [plainRecord .info] .console = [] :=
    ⟨_, _, rfl, by decide +kernel⟩
  obtain ⟨l, fs, haccept, hreceived⟩ := hdefault
  obtain ⟨l', fs', haccept', hreceived'⟩ := herror
  refine ⟨⟨l, fs, haccept, hreceived, fun hrouted => ?_⟩, l', fs', haccept', hreceived', fun hrouted => ?_⟩
  · rw [hrouted] at hreceived
    exact absurd hreceived (by decide +kernel)
  · rw [hrouted] at hreceived'
    exact absurd hreceived' (by decide +kernel)

end LoggerConfig

end ToyBox.Logger
