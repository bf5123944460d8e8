import ToyBox.Cxx.Number

/-! The pid file of a service. A function takes the file and the running processes as it finds them, all
of them at one moment. -/

namespace ToyBox.App

/-- `strconv.Atoi` where `int` has 64 bits. -/
def atoi (s : Bytes) : Option Int :=
  let (negative, digits) := Cxx.sign s
  if digits = [] ∨ ¬digits.all Cxx.isDigit then none
  else
    let value : Int := Cxx.digitsValue 10 digits
    let value := if negative then -value else value
    if Cxx.kLongMin ≤ value ∧ value ≤ Cxx.kLongMax then some value else none

/-- The pid file as a process finds it. -/
inductive PidFile
  | missing
  /-- `ReadFile` fails; the file exists, or `Stat` fails with another error than `ErrNotExist`. -/
  | unreadable
  | content (bytes : Bytes)

/-- What a call finds: the file, and the pids for which `kill` with signal 0 succeeds. -/
structure Found where
  pidFile : PidFile
  kill : Int → Bool

/-- Why a function of the pid file fails. -/
inductive PidError
  | notExist
  | readFile
  | atoi
  | pidNotExist (pid : Int)
  | pidExist (pid : Int)
  | openFile
  | writeString
  deriving DecidableEq

/-- `process.Signal(syscall.Signal(0)) == nil`. The pids 0 and -1 are refused before any call. -/
def Found.signalZero (found : Found) (pid : Int) : Bool := pid ≠ -1 && pid ≠ 0 && found.kill pid

def isPidFileExist (found : Found) : Bool :=
  match found.pidFile with
  | .missing => false
  | .unreadable | .content _ => true

/-- The `ret` of the function and its error. A process comes with no error only, and it has that pid. -/
def findServicePid (found : Found) : Int × Option PidError :=
  match found.pidFile with
  | .missing => (-1, some .notExist)
  | .unreadable => (-2, some .readFile)
  | .content bytes =>
      match atoi bytes with
      | none => (-2, some .atoi)
      | some originalPid =>
          if found.signalZero originalPid then (originalPid, none)
          else (-3, some (.pidNotExist originalPid))

/-- The outcome of the calls that write the file. A failing `WriteString` may have written something. -/
inductive WriteCalls
  | openFails
  | writeFails (written : Bytes)
  | succeed

/-- The file afterwards, and the error. A `ret` of -2 or -3 can also be the pid of a process group, which
is taken for the code of an error. -/
def writeServicePid (found : Found) (calls : WriteCalls) (getpid : Nat) : PidFile × Option PidError :=
  let (pid, err) := findServicePid found
  if pid = -2 then (found.pidFile, err)
  else if pid = -1 ∨ pid = -3 then
    match calls with
    | .openFails => (found.pidFile, some .openFile)
    | .writeFails written => (.content written, some .writeString)
    | .succeed => (.content (decimal getpid), none)
  else (found.pidFile, some (.pidExist pid))

end ToyBox.App
