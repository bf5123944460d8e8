import ToyBox.Logger.Logger

/-! What a step of the logger does: one case per kind of step, with the state it leaves in closed form. -/

namespace ToyBox.Logger

variable {ι ω : Type}

namespace Producer

/-- The record a producer has. -/
def held : Producer → Option Addr
  | idle => none
  | get _ => none
  | setMessage r _ => some r
  | setCodeLine r _ => some r
  | setTimestamp r _ => some r
  | setLogLevel r _ _ => some r
  | send r _ _ => some r

/-- The call a producer is in. -/
def call : Producer → Option Call
  | idle => none
  | get call => some call
  | setMessage _ call => some call
  | setCodeLine _ call => some call
  | setTimestamp _ call => some call
  | setLogLevel _ call _ => some call
  | send _ call _ => some call

/-- The fields that a producer has set. -/
def Filled : Producer → Record → Prop
  | idle, _ => True
  | get _, _ => True
  | setMessage _ _, _ => True
  | setCodeLine _ call, record => record.message = call.message
  | setTimestamp _ call, record => record.message = call.message ∧ record.codeLine = call.codeLine
  | setLogLevel _ call timestamp, record =>
      record.message = call.message ∧ record.codeLine = call.codeLine ∧ record.timestamp = timestamp
  | send _ call timestamp, record => record = call.record timestamp

end Producer

namespace LogWriter

/-- The record the goroutine has and will use again. -/
def held : LogWriter ω → Option Addr
  | first => none
  | range r _ => some r
  | write r _ _ => some r
  | put r => some r
  | select => none
  | flush _ => none
  | rotate _ => none
  | done => none

/-- The goroutine is between two records. -/
def Between : LogWriter ω → Prop
  | select => True
  | flush _ => True
  | rotate _ => True
  | _ => False

theorem Between.held {pc : LogWriter ω} (h : pc.Between) : pc.held = none := by
  cases pc with
  | select => rfl
  | flush => rfl
  | rotate => rfl
  | first => exact h.elim
  | range => exact h.elim
  | write => exact h.elim
  | put => exact h.elim
  | done => exact h.elim

end LogWriter

/-- The calls of `Write` among the events. -/
def Event.isWrite : Event ω → Bool
  | .write _ _ => true
  | _ => false

/-- The steps of the logger. -/
inductive Effect [DecidableEq ι] (isFlusher : ω → Bool) (s : Logger ι ω) :
    Label ι ω → Logger ι ω → Prop
  | registerWriter (w : ω) : Effect isFlusher s (.registerWriter w) { s with writers := s.writers ++ [w] }
  | setLevel (level : Int) : Effect isFlusher s (.setLevel level) { s with level }
  | filtered {p : ι} {call : Call} (hlevel : call.level.toInt < s.level) :
      Effect isFlusher s (.deliver p call) (s.called p call)
  | deliver {p : ι} {call : Call} (hlevel : s.level ≤ call.level.toInt) (hidle : s.producers p = .idle) :
      Effect isFlusher s (.deliver p call) { (s.called p call).setProducer p (.get call) with
        accepted := Function.update s.accepted p (s.accepted p ++ [call]) }
  | getNew {p : ι} {call : Call} (hget : s.producers p = .get call) :
      Effect isFlusher s (.get p none) { s.setProducer p (.setMessage s.nextAddr call) with
        heap := Function.update s.heap s.nextAddr ⟨[], [], [], .debug⟩
        nextAddr := s.nextAddr + 1 }
  | getPooled {p : ι} {call : Call} {r : Addr} (hget : s.producers p = .get call)
      (hpool : r ∈ s.recordPool) :
      Effect isFlusher s (.get p (some r))
        { s.setProducer p (.setMessage r call) with recordPool := s.recordPool.erase r }
  | set {p : ι} {r : Addr} {pc : Producer} (timestamp : Bytes) (f : Record → Record)
      (hheld : (s.producers p).held = some r) (hheld' : pc.held = some r)
      (hcall : pc.call = (s.producers p).call)
      (hfilled : ∀ record, (s.producers p).Filled record → pc.Filled (f record)) :
      Effect isFlusher s (.set p timestamp) ((s.setProducer p pc).setRecord r f)
  | send {p : ι} {r : Addr} {call : Call} {timestamp : Bytes}
      (hsend : s.producers p = .send r call timestamp) (hclosed : s.closed = false) :
      Effect isFlusher s (.send p) { s.setProducer p .idle with
        recordChan := s.recordChan ++ [r]
        entered := s.entered ++ [(p, call.record timestamp)] }
  | drop (r : Addr) : Effect isFlusher s (.drop r) { s with recordPool := s.recordPool.erase r }
  | receive {r : Addr} {rest : List Addr} {first : Bool}
      (hpc : s.logWriter = if first then .first else .select) (hchan : s.recordChan = r :: rest) :
      Effect isFlusher s .receive { s with
        recordChan := rest
        logWriter := .range r first
        dequeued := s.dequeued ++ [s.writers] }
  | stop {first : Bool} (hpc : s.logWriter = if first then .first else .select)
      (hchan : s.recordChan = []) (hclosed : s.closed = true) :
      Effect isFlusher s .receive { s with c := true, logWriter := .done }
  | range {r : Addr} {first : Bool} (hpc : s.logWriter = .range r first) :
      Effect isFlusher s .range
        { s with logWriter := .write r first s.writers, ranged := s.ranged ++ [s.writers] }
  | write {r : Addr} {first : Bool} {w : ω} {writers : List ω}
      (hpc : s.logWriter = .write r first (w :: writers)) :
      Effect isFlusher s .write { s with
        events := s.events ++ [.write w (s.heap r)]
        logWriter := .write r first writers }
  | writeEnd {r : Addr} {first : Bool} (hpc : s.logWriter = .write r first []) :
      Effect isFlusher s .write { s with logWriter := if first then .select else .put r }
  | put {r : Addr} (hpc : s.logWriter = .put r) :
      Effect isFlusher s .put { s with logWriter := .select, recordPool := r :: s.recordPool }
  | timer {label : Label ι ω} {pc : LogWriter ω} {events : List (Event ω)}
      (hbetween : s.logWriter.Between) (hbetween' : pc.Between) (hevents : ∀ e ∈ events, e.isWrite = false) :
      Effect isFlusher s label { s with logWriter := pc, events := s.events ++ events }
  | close (hcloser : s.closer = .notCalled) :
      Effect isFlusher s .close
        { s with closed := true, closer := .waiting, registeredAtClose := s.writers }
  | closeReceive (hcloser : s.closer = .waiting) (hc : s.c = true) :
      Effect isFlusher s .closeReceive { s with c := false, closer := .flush s.writers }
  | closeFlush {w : ω} {writers : List ω} (hcloser : s.closer = .flush (w :: writers)) :
      Effect isFlusher s .closeFlush { s with
        events := s.events ++ if isFlusher w then [.flush w] else []
        closer := .flush writers }
  | closeEnd (hcloser : s.closer = .flush []) : Effect isFlusher s .closeFlush { s with closer := .returned }

theorem event_eq (s : Logger ι ω) (has : Bool) (e : Event ω) :
    s.event has e = { s with events := s.events ++ if has then [e] else [] } := by
  cases has with
  | true => rfl
  | false =>
      rw [event, if_neg Bool.false_ne_true, if_neg Bool.false_ne_true, List.append_nil]

variable [DecidableEq ι] {isFlusher isRotater : ω → Bool} {s s' : Logger ι ω}

theorem effect_of_deliver {p : ι} {call : Call} (h : (s.called p call).deliverRecord2Writer p call = some s') :
    Effect isFlusher s (.deliver p call) s' := by
  unfold deliverRecord2Writer at h
  split at h
  · rename_i hidle
    split at h
    · rename_i hlevel
      cases h
      exact .filtered hlevel
    · rename_i hlevel
      cases h
      exact .deliver (Int.not_lt.mp hlevel) hidle
  · cases h

theorem effect_of_get {p : ι} {pooled : Option Addr} (h : s.getRecord p pooled = some s') :
    Effect isFlusher s (.get p pooled) s' := by
  unfold getRecord at h
  split at h
  · rename_i hget
    cases h
    exact .getNew hget
  · rename_i hget
    split at h
    · rename_i hpool
      cases h
      exact .getPooled hget hpool
    · cases h
  · cases h

theorem effect_of_set {p : ι} {timestamp : Bytes} (h : s.setField p timestamp = some s') :
    Effect isFlusher s (.set p timestamp) s' := by
  unfold setField at h
  split at h
  · rename_i hpc
    cases h
    exact .set timestamp _ (by rw [hpc]; rfl) rfl (by rw [hpc]; rfl) (fun _ _ => rfl)
  · rename_i hpc
    cases h
    exact .set timestamp _ (by rw [hpc]; rfl) rfl (by rw [hpc]; rfl)
      (by rw [hpc]; exact fun _ hmessage => ⟨hmessage, rfl⟩)
  · rename_i hpc
    cases h
    exact .set timestamp _ (by rw [hpc]; rfl) rfl (by rw [hpc]; rfl)
      (by rw [hpc]; exact fun _ hfields => ⟨hfields.1, hfields.2, rfl⟩)
  · rename_i hpc
    cases h
    refine .set timestamp _ (by rw [hpc]; rfl) rfl (by rw [hpc]; rfl) ?_
    rw [hpc]
    rintro record ⟨hmessage, hcodeLine, htimestamp⟩
    simp only [Producer.Filled, Call.record, hmessage, hcodeLine, htimestamp]
  · cases h

theorem effect_of_send {p : ι} (h : s.sendRecord p = some s') : Effect isFlusher s (.send p) s' := by
  unfold sendRecord at h
  split at h
  · rename_i hsend
    split at h
    · rename_i hopen
      cases h
      exact .send hsend hopen.2
    · cases h
  · cases h

theorem effect_of_takeRecord (first : Bool) (hpc : s.logWriter = if first then .first else .select)
    (h : s.takeRecord first = some s') : Effect isFlusher s .receive s' := by
  unfold takeRecord at h
  split at h
  · rename_i hchan
    exact Option.some.inj h ▸ .receive hpc hchan
  · rename_i hchan
    split at h
    · rename_i hclosed
      exact Option.some.inj h ▸ .stop hpc hchan hclosed
    · cases h

theorem effect_of_receive (h : s.receive = some s') : Effect isFlusher s .receive s' := by
  unfold receive at h
  split at h
  · rename_i hpc
    exact effect_of_takeRecord true hpc h
  · rename_i hpc
    exact effect_of_takeRecord false hpc h
  · cases h

theorem effect_of_range (h : s.range = some s') : Effect isFlusher s .range s' := by
  unfold range at h
  split at h
  · rename_i hpc
    exact Option.some.inj h ▸ .range hpc
  · cases h

theorem effect_of_write (h : s.write = some s') : Effect isFlusher s .write s' := by
  unfold write at h
  split at h
  · rename_i hpc
    cases h
    exact .write hpc
  · rename_i hpc
    cases h
    exact .writeEnd hpc
  · cases h

theorem effect_of_put (h : s.put = some s') : Effect isFlusher s .put s' := by
  unfold put at h
  split at h
  · rename_i hpc
    exact Option.some.inj h ▸ .put hpc
  · cases h

/-- A timer step that gives no event. -/
theorem effect_of_between {label : Label ι ω} {pc : LogWriter ω} (h : s.logWriter.Between)
    (h' : pc.Between) : Effect isFlusher s label { s with logWriter := pc } := by
  have heffect : Effect isFlusher s label { s with logWriter := pc, events := s.events ++ [] } :=
    .timer h h' fun e he => absurd he List.not_mem_nil
  rwa [List.append_nil] at heffect

/-- A step of a loop over the writers that a timer has started. -/
theorem effect_of_timer_event {label : Label ι ω} {pc : LogWriter ω} {has : Bool} {e : Event ω}
    (h : s.logWriter.Between) (h' : pc.Between) (he : e.isWrite = false) :
    Effect isFlusher s label { s.event has e with logWriter := pc } := by
  rw [event_eq]
  apply Effect.timer h h'
  intro e' he'
  cases has with
  | true => exact (List.mem_singleton.mp he') ▸ he
  | false => exact absurd he' List.not_mem_nil

theorem effect_of_flushTimer (h : s.flushTimer = some s') : Effect isFlusher s .flushTimer s' := by
  unfold flushTimer at h
  split at h
  · rename_i hpc
    exact Option.some.inj h ▸ effect_of_between (hpc ▸ trivial) trivial
  · cases h

theorem effect_of_rotateTimer (h : s.rotateTimer = some s') : Effect isFlusher s .rotateTimer s' := by
  unfold rotateTimer at h
  split at h
  · rename_i hpc
    exact Option.some.inj h ▸ effect_of_between (hpc ▸ trivial) trivial
  · cases h

theorem effect_of_flush (h : s.flush isFlusher = some s') : Effect isFlusher s .flush s' := by
  unfold flush at h
  split at h
  · rename_i hpc
    cases h
    exact effect_of_timer_event (hpc ▸ trivial) trivial rfl
  · rename_i hpc
    cases h
    exact effect_of_between (hpc ▸ trivial) trivial
  · cases h

theorem effect_of_rotate (h : s.rotate isRotater = some s') : Effect isFlusher s .rotate s' := by
  unfold rotate at h
  split at h
  · rename_i hpc
    cases h
    exact effect_of_timer_event (hpc ▸ trivial) trivial rfl
  · rename_i hpc
    cases h
    exact effect_of_between (hpc ▸ trivial) trivial
  · cases h

theorem effect_of_close (h : s.close = some s') : Effect isFlusher s .close s' := by
  unfold close at h
  split at h
  · rename_i hcloser
    exact Option.some.inj h ▸ .close hcloser
  · cases h

theorem effect_of_closeReceive (h : s.closeReceive = some s') :
    Effect isFlusher s .closeReceive s' := by
  unfold closeReceive at h
  split at h
  · rename_i hcloser
    split at h
    · rename_i hc
      exact Option.some.inj h ▸ .closeReceive hcloser hc
    · cases h
  · cases h

theorem effect_of_closeFlush (h : s.closeFlush isFlusher = some s') :
    Effect isFlusher s .closeFlush s' := by
  unfold closeFlush at h
  split at h
  · rename_i hcloser
    cases h
    rw [event_eq]
    exact .closeFlush hcloser
  · rename_i hcloser
    cases h
    exact .closeEnd hcloser
  · cases h

theorem effect_of_next {label : Label ι ω} (h : s.next isFlusher isRotater label = some s') :
    Effect isFlusher s label s' := by
  cases label with
  | registerWriter w => exact Option.some.inj h ▸ .registerWriter w
  | setLevel level => exact Option.some.inj h ▸ .setLevel level
  | deliver p call => exact effect_of_deliver h
  | get p pooled => exact effect_of_get h
  | set p timestamp => exact effect_of_set h
  | send p => exact effect_of_send h
  | drop r => exact Option.some.inj h ▸ .drop r
  | receive => exact effect_of_receive h
  | range => exact effect_of_range h
  | write => exact effect_of_write h
  | put => exact effect_of_put h
  | flushTimer => exact effect_of_flushTimer h
  | flush => exact effect_of_flush h
  | rotateTimer => exact effect_of_rotateTimer h
  | rotate => exact effect_of_rotate h
  | close => exact effect_of_close h
  | closeReceive => exact effect_of_closeReceive h
  | closeFlush => exact effect_of_closeFlush h

end ToyBox.Logger
