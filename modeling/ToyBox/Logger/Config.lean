import ToyBox.Logger.FileWriter

/-! The configuration of the logger, and the writers it registers. An absent message or field reads as its
default. -/

namespace ToyBox.Logger

/-- The numbers of the levels in the configuration; others are read too. -/
abbrev ConfigLevel := Int

structure FileWriterConfig where
  enable : Option Bool := none
  logLevel : Option ConfigLevel := none
  infoLogPath : Option Bytes := none
  wfLogPath : Option Bytes := none
  retainHours : Option Int := none

structure ConsoleWriterConfig where
  enable : Option Bool := none
  logLevel : Option ConfigLevel := none
  enableColor : Option Bool := none

structure LoggerConfig where
  fileWriterConfig : Option FileWriterConfig := none
  consoleWriterConfig : Option ConsoleWriterConfig := none

namespace LoggerConfig

variable (conf : LoggerConfig)

def getFileLogLevel : ConfigLevel := (conf.fileWriterConfig.bind (·.logLevel)).getD 1

def getInfoLogPath : Bytes := (conf.fileWriterConfig.bind (·.infoLogPath)).getD (ascii "logs/log.info")

def getWfLogPath : Bytes := (conf.fileWriterConfig.bind (·.wfLogPath)).getD (ascii "logs/log.wf")

def getRetainHours : Int := (conf.fileWriterConfig.bind (·.retainHours)).getD 48

def getConsoleEnable : Bool := (conf.consoleWriterConfig.bind (·.enable)).getD true

def getConsoleLogLevel : ConfigLevel := (conf.consoleWriterConfig.bind (·.logLevel)).getD 2

def getEnableColor : Bool := (conf.consoleWriterConfig.bind (·.enableColor)).getD true

end LoggerConfig

/-- The name of a level, or the digits of a number that has none. -/
def ConfigLevel.string (level : ConfigLevel) : Bytes :=
  if level = 1 then ascii "LOG_LEVEL_DEBUG"
  else if level = 2 then ascii "LOG_LEVEL_INFO"
  else if level = 3 then ascii "LOG_LEVEL_WARNING"
  else if level = 4 then ascii "LOG_LEVEL_ERROR"
  else if level = 5 then ascii "LOG_LEVEL_FATAL"
  else if level < 0 then ascii "-" ++ decimal level.natAbs
  else decimal level.natAbs

def string2logLevel (name : Bytes) : Option LogLevel :=
  [(ascii "LOG_LEVEL_DEBUG", LogLevel.debug), (ascii "LOG_LEVEL_INFO", .info),
    (ascii "LOG_LEVEL_WARNING", .warn), (ascii "LOG_LEVEL_ERROR", .error),
    (ascii "LOG_LEVEL_FATAL", .fatal)].lookup name

structure ConsoleWriter where
  color : Bool := false
  level : Int := 0

inductive Writer
  | file (fa : FileWriter)
  | console (cw : ConsoleWriter)

/-- The part of the default logger that is configured. -/
structure DefaultLogger where
  writers : List Writer := []
  level : Int := LogLevel.debug.toInt

namespace DefaultLogger

/-- The writers that keep files. -/
def fileWriters (l : DefaultLogger) : List FileWriter :=
  l.writers.filterMap fun
    | .file fa => some fa
    | .console _ => none

def addWriter (l : DefaultLogger) (w : Writer) : DefaultLogger := { l with writers := l.writers ++ [w] }

end DefaultLogger

/-- Why the configuration is not accepted. -/
inductive ConfigFailure
  | error (message : Bytes) (l : DefaultLogger) (fs : FileSystem)
  | panic

/-- The hour at which a writer is initialised, and the calls that fail. -/
structure InitCalls where
  now : Hour
  faults : Faults := {}

/-- A file writer is initialised and added to the writers. -/
def registerFile (fa : FileWriter) (calls : InitCalls) (l : DefaultLogger) (fs : FileSystem) :
    Except ConfigFailure (DefaultLogger × FileSystem) :=
  match fa.init calls.faults calls.now fs with
  | .error _ => .error .panic
  | .ok (fa, fs) => .ok (l.addWriter (.file fa), fs)

namespace LoggerConfig

variable (conf : LoggerConfig)

/-- The writer of the log up to the level of information, or of all of it. -/
def infoWriter : FileWriter :=
  FileWriter.newFileWriter
    |>.setFileName conf.getInfoLogPath
    |>.setLogLevelFloor LogLevel.debug.toInt
    |>.setLogLevelCeiling (if conf.getWfLogPath.length > 0 then LogLevel.info.toInt else LogLevel.fatal.toInt)
    |>.setRetainHours conf.getRetainHours

/-- The writer of the log from the level of warnings on. -/
def wfWriter : FileWriter :=
  FileWriter.newFileWriter
    |>.setFileName conf.getWfLogPath
    |>.setLogLevelFloor LogLevel.warn.toInt
    |>.setLogLevelCeiling LogLevel.fatal.toInt
    |>.setRetainHours conf.getRetainHours

def invalidLogLevel (level : ConfigLevel) : Bytes := ascii "invalid log level: " ++ level.string

/-- The part of `initLoggerWithConf` for the log of information. -/
def registerInfo (info : InitCalls) (l : DefaultLogger) (fs : FileSystem) :
    Except ConfigFailure (DefaultLogger × FileSystem) :=
  if conf.fileWriterConfig.isSome ∧ conf.getInfoLogPath.length > 0 then registerFile conf.infoWriter info l fs
  else .ok (l, fs)

/-- The part for the log of warnings. -/
def registerWf (wf : InitCalls) (l : DefaultLogger) (fs : FileSystem) :
    Except ConfigFailure (DefaultLogger × FileSystem) :=
  if conf.fileWriterConfig.isSome ∧ conf.getWfLogPath.length > 0 then registerFile conf.wfWriter wf l fs
  else .ok (l, fs)

/-- The part for the console. -/
def registerConsole (l : DefaultLogger) (fs : FileSystem) :
    Except ConfigFailure (DefaultLogger × FileSystem) :=
  if conf.getConsoleEnable then
    match string2logLevel conf.getConsoleLogLevel.string with
    | none => .error (.error (invalidLogLevel conf.getConsoleLogLevel) l fs)
    | some level =>
        .ok (l.addWriter (.console { color := conf.getEnableColor, level := level.toInt }), fs)
  else .ok (l, fs)

/-- The level of the logger is the one of the files. -/
def setFileLogLevel (l : DefaultLogger) (fs : FileSystem) :
    Except ConfigFailure (DefaultLogger × FileSystem) :=
  match string2logLevel conf.getFileLogLevel.string with
  | none => .error (.error (invalidLogLevel conf.getFileLogLevel) l fs)
  | some level => .ok ({ l with level := level.toInt }, fs)

def initLoggerWithConf (info wf : InitCalls) (l : DefaultLogger) (fs : FileSystem) :
    Except ConfigFailure (DefaultLogger × FileSystem) := do
  let (l, fs) ← conf.registerInfo info l fs
  let (l, fs) ← conf.registerWf wf l fs
  let (l, fs) ← conf.registerConsole l fs
  conf.setFileLogLevel l fs

end LoggerConfig

end ToyBox.Logger
