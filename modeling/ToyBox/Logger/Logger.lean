import Mathlib.Logic.Function.Basic
import ToyBox.Library.TransitionSystem
import ToyBox.Logger.Record

/-! The asynchronous logger: producers that fill records from a pool and send them through a channel, the
goroutine that takes them out and writes them, and `Close`. Each step is one action on shared state of one
goroutine; the label says which, and fixes what the runtime chooses. -/

namespace ToyBox

namespace Logger

/-- The address of a record. -/
abbrev Addr := Nat

/-- What one call of the logger is asked to log. The message is what `fmt` made of the format. -/
structure Call where
  level : LogLevel
  message : Bytes
  codeLine : Bytes
  deriving DecidableEq

/-- The record a call stands for, once the clock has been read. -/
def Call.record (call : Call) (timestamp : Bytes) : Record where
  timestamp
  codeLine := call.codeLine
  message := call.message
  logLevel := call.level

/-- The call a record stands for. -/
def Record.call (r : Record) : Call where
  level := r.logLevel
  message := r.message
  codeLine := r.codeLine

/-- Where a goroutine is in `deliverRecord2Writer`, by what it does next. -/
inductive Producer
  | idle
  | get (call : Call)
  | setMessage (r : Addr) (call : Call)
  | setCodeLine (r : Addr) (call : Call)
  | setTimestamp (r : Addr) (call : Call)
  | setLogLevel (r : Addr) (call : Call) (timestamp : Bytes)
  | send (r : Addr) (call : Call) (timestamp : Bytes)

/-- Where the goroutine of `boostrapLogWriter` is, by what it does next. -/
inductive LogWriter (ω : Type)
  /-- It waits for the first record. -/
  | first
  /-- It has a record and comes to the loop over the writers. -/
  | range (r : Addr) (first : Bool)
  | write (r : Addr) (first : Bool) (writers : List ω)
  | put (r : Addr)
  | select
  | flush (writers : List ω)
  | rotate (writers : List ω)
  | done

/-- Where `Close` is. -/
inductive Closer (ω : Type)
  | notCalled
  /-- It waits for `l.c`. -/
  | waiting
  | flush (writers : List ω)
  | returned

/-- What a writer sees. -/
inductive Event (ω : Type)
  | write (w : ω) (r : Record)
  | flush (w : ω)
  | rotate (w : ω)

end Logger

open Logger

/-- The logger with its goroutines, and what happened to it. -/
structure Logger (ι ω : Type) where
  writers : List ω := []
  recordChan : List Addr := []
  /-- `recordChan` is closed. -/
  closed : Bool := false
  level : Int := LogLevel.debug.toInt
  /-- The value in `l.c`. -/
  c : Bool := false
  recordPool : List Addr := []
  heap : Addr → Record
  /-- The records allocated so far are those below. -/
  nextAddr : Addr := 0
  producers : ι → Producer := fun _ => .idle
  logWriter : LogWriter ω := .first
  closer : Closer ω := .notCalled
  /-- The calls that were made, each with the level that was set then. -/
  calls : ι → List (Call × Int) := fun _ => []
  /-- The calls that passed the level check. -/
  accepted : ι → List Call := fun _ => []
  /-- What producers sent, as they set it, in the order in which it entered the channel. -/
  entered : List (ι × Record) := []
  /-- The writers registered when a record was taken out, for each record taken out. -/
  dequeued : List (List ω) := []
  /-- The writers of the loop over the writers, for each record that came to it. -/
  ranged : List (List ω) := []
  events : List (Event ω) := []
  /-- The writers registered when `Close` was called. -/
  registeredAtClose : List ω := []

namespace Logger

variable {ι ω : Type}

def chanCapacity : Nat := 1024

/-- A step of the system. -/
inductive Label (ι ω : Type)
  /-- `RegisterWriter`, with a writer whose `Init` succeeded. -/
  | registerWriter (w : ω)
  | setLevel (level : Int)
  /-- `deliverRecord2Writer` is called. -/
  | deliver (p : ι) (call : Call)
  /-- `recordPool.Get` gives a record of the pool or a new one. -/
  | get (p : ι) (pooled : Option Addr)
  /-- The next field of the record is set; the clock may be read. -/
  | set (p : ι) (timestamp : Bytes)
  | send (p : ι)
  /-- The pool drops a record. -/
  | drop (r : Addr)
  | receive
  | range
  /-- The next writer, or the end of the loop over the writers. -/
  | write
  | put
  | flushTimer
  | flush
  | rotateTimer
  | rotate
  | close
  /-- `Close` receives from `l.c`. -/
  | closeReceive
  /-- `Close` comes to the next writer, or returns. -/
  | closeFlush

variable [DecidableEq ι] (isFlusher isRotater : ω → Bool) (s : Logger ι ω)

def setProducer (p : ι) (producer : Producer) : Logger ι ω :=
  { s with producers := Function.update s.producers p producer }

def setRecord (r : Addr) (f : Record → Record) : Logger ι ω :=
  { s with heap := Function.update s.heap r (f (s.heap r)) }

/-- A writer gets a call, if it has the method. -/
def event (has : Bool) (e : Event ω) : Logger ι ω := if has then { s with events := s.events ++ [e] } else s

/-- A call is made, whatever becomes of it. -/
def called (p : ι) (call : Call) : Logger ι ω :=
  { s with calls := Function.update s.calls p (s.calls p ++ [(call, s.level)]) }

def deliverRecord2Writer (p : ι) (call : Call) : Option (Logger ι ω) :=
  match s.producers p with
  | .idle =>
      if call.level.toInt < s.level then some s
      else some { s.setProducer p (.get call) with
        accepted := Function.update s.accepted p (s.accepted p ++ [call]) }
  | _ => none

def getRecord (p : ι) (pooled : Option Addr) : Option (Logger ι ω) :=
  match s.producers p, pooled with
  | .get call, none =>
      some { s.setProducer p (.setMessage s.nextAddr call) with
        heap := Function.update s.heap s.nextAddr ⟨[], [], [], .debug⟩
        nextAddr := s.nextAddr + 1 }
  | .get call, some r =>
      if r ∈ s.recordPool then
        some { s.setProducer p (.setMessage r call) with recordPool := s.recordPool.erase r }
      else none
  | _, _ => none

def setField (p : ι) (timestamp : Bytes) : Option (Logger ι ω) :=
  match s.producers p with
  | .setMessage r call =>
      some ((s.setProducer p (.setCodeLine r call)).setRecord r ({ · with message := call.message }))
  | .setCodeLine r call =>
      some ((s.setProducer p (.setTimestamp r call)).setRecord r ({ · with codeLine := call.codeLine }))
  | .setTimestamp r call =>
      some ((s.setProducer p (.setLogLevel r call timestamp)).setRecord r ({ · with timestamp }))
  | .setLogLevel r call timestamp =>
      some ((s.setProducer p (.send r call timestamp)).setRecord r ({ · with logLevel := call.level }))
  | _ => none

/-- `l.recordChan <- r`, which blocks while the channel is full. There is no step for the panic of a send
on the closed channel. -/
def sendRecord (p : ι) : Option (Logger ι ω) :=
  match s.producers p with
  | .send r call timestamp =>
      if s.recordChan.length < chanCapacity ∧ s.closed = false then
        some { s.setProducer p .idle with
          recordChan := s.recordChan ++ [r]
          entered := s.entered ++ [(p, call.record timestamp)] }
      else none
  | _ => none

/-- `<-logger.recordChan`: the next record, or the end once the channel is closed and empty. -/
def takeRecord (first : Bool) : Option (Logger ι ω) :=
  match s.recordChan with
  | r :: rest =>
      some { s with
        recordChan := rest
        logWriter := .range r first
        dequeued := s.dequeued ++ [s.writers] }
  | [] => if s.closed then some { s with c := true, logWriter := .done } else none

/-- The first record is waited for before the loop. -/
def receive : Option (Logger ι ω) :=
  match s.logWriter with
  | .first => s.takeRecord true
  | .select => s.takeRecord false
  | _ => none

def range : Option (Logger ι ω) :=
  match s.logWriter with
  | .range r first =>
      some { s with logWriter := .write r first s.writers, ranged := s.ranged ++ [s.writers] }
  | _ => none

/-- One round of the loop over the writers, or what follows it: the first record is not put back. -/
def write : Option (Logger ι ω) :=
  match s.logWriter with
  | .write r first (w :: writers) =>
      some { s.event true (.write w (s.heap r)) with logWriter := .write r first writers }
  | .write r first [] => some { s with logWriter := if first then .select else .put r }
  | _ => none

def put : Option (Logger ι ω) :=
  match s.logWriter with
  | .put r => some { s with logWriter := .select, recordPool := r :: s.recordPool }
  | _ => none

def flushTimer : Option (Logger ι ω) :=
  match s.logWriter with
  | .select => some { s with logWriter := .flush s.writers }
  | _ => none

def flush : Option (Logger ι ω) :=
  match s.logWriter with
  | .flush (w :: writers) =>
      some { s.event (isFlusher w) (.flush w) with logWriter := .flush writers }
  | .flush [] => some { s with logWriter := .select }
  | _ => none

def rotateTimer : Option (Logger ι ω) :=
  match s.logWriter with
  | .select => some { s with logWriter := .rotate s.writers }
  | _ => none

def rotate : Option (Logger ι ω) :=
  match s.logWriter with
  | .rotate (w :: writers) =>
      some { s.event (isRotater w) (.rotate w) with logWriter := .rotate writers }
  | .rotate [] => some { s with logWriter := .select }
  | _ => none

def close : Option (Logger ι ω) :=
  match s.closer with
  | .notCalled =>
      some { s with closed := true, closer := .waiting, registeredAtClose := s.writers }
  | _ => none

def closeReceive : Option (Logger ι ω) :=
  match s.closer with
  | .waiting => if s.c then some { s with c := false, closer := .flush s.writers } else none
  | _ => none

def closeFlush : Option (Logger ι ω) :=
  match s.closer with
  | .flush (w :: writers) =>
      some { s.event (isFlusher w) (.flush w) with closer := .flush writers }
  | .flush [] => some { s with closer := .returned }
  | _ => none

/-- What a label does. -/
def next : Label ι ω → Option (Logger ι ω)
  | .registerWriter w => some { s with writers := s.writers ++ [w] }
  | .setLevel level => some { s with level }
  | .deliver p call => (s.called p call).deliverRecord2Writer p call
  | .get p pooled => s.getRecord p pooled
  | .set p timestamp => s.setField p timestamp
  | .send p => s.sendRecord p
  | .drop r => some { s with recordPool := s.recordPool.erase r }
  | .receive => s.receive
  | .range => s.range
  | .write => s.write
  | .put => s.put
  | .flushTimer => s.flushTimer
  | .flush => s.flush isFlusher
  | .rotateTimer => s.rotateTimer
  | .rotate => s.rotate isRotater
  | .close => s.close
  | .closeReceive => s.closeReceive
  | .closeFlush => s.closeFlush isFlusher

/-- A new logger, whatever the memory holds. -/
def system (heap : Addr → Record) : TransitionSystem (Logger ι ω) (Label ι ω) where
  start := { heap }
  step s label := s.next isFlusher isRotater label

/-- `Close` comes after all producers have returned, and none logs after it. -/
def ClosesLast (s : Logger ι ω) : Label ι ω → Prop
  | .deliver _ _ => s.closer = .notCalled
  | .close => ∀ p, s.producers p = .idle
  | _ => True

end Logger

end ToyBox
