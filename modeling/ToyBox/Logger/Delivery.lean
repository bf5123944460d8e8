import Mathlib.Data.List.Forall2
import ToyBox.Logger.Ownership

/-! What the logger delivers. The records reach the writers as the producers set them, in the order in which
they entered the channel, and `Close` returns when all of them are written and the writers are flushed. -/

namespace ToyBox.Logger

variable {ι ω : Type}

/-- The calls of `Write` among the events. -/
def writes (events : List (Event ω)) : List (ω × Record) :=
  events.filterMap fun
    | .write w r => some (w, r)
    | _ => none

/-- What the writers are to get when each record goes once to each of its writers. -/
def deliveries (ranged : List (List ω)) (records : List Record) : List (ω × Record) :=
  (ranged.zip records).flatMap fun (writers, r) => writers.map fun w => (w, r)

/-- The records that entered the channel. -/
def records (s : Logger ι ω) : List Record := s.entered.map Prod.snd

theorem writes_append (a b : List (Event ω)) : writes (a ++ b) = writes a ++ writes b :=
  List.filterMap_append

theorem writes_of_isWrite {events : List (Event ω)} (h : ∀ e ∈ events, e.isWrite = false) :
    writes events = [] := by
  rw [writes, List.filterMap_eq_nil_iff]
  intro e he
  cases e with
  | write w r => cases h _ he
  | flush w => rfl
  | rotate w => rfl

/-- `Close` flushes and does not write. -/
theorem isWrite_of_closeFlush (isFlusher : ω → Bool) (w : ω) :
    ∀ e ∈ if isFlusher w then [Event.flush w] else [], e.isWrite = false := by
  intro e he
  split at he
  · obtain rfl := List.mem_singleton.mp he
    rfl
  · exact absurd he List.not_mem_nil

theorem deliveries_cons (writers : List ω) (ranged : List (List ω)) (r : Record)
    (records : List Record) :
    deliveries (writers :: ranged) (r :: records) =
      (writers.map fun w => (w, r)) ++ deliveries ranged records := rfl

/-- A record that comes to the end of the channel concerns no loop over the writers yet. -/
theorem deliveries_enter {ranged : List (List ω)} {records : List Record}
    (h : ranged.length ≤ records.length) (r : Record) :
    deliveries ranged (records ++ [r]) = deliveries ranged records := by
  induction ranged generalizing records with
  | nil => rfl
  | cons writers ranged ih =>
      cases records with
      | nil => exact absurd h (Nat.not_succ_le_zero _)
      | cons r' records =>
          rw [List.cons_append, deliveries_cons, deliveries_cons, ih (Nat.le_of_succ_le_succ h)]

/-- The next record goes to the writers of its loop. -/
theorem deliveries_range {ranged : List (List ω)} {records : List Record} {r : Record}
    (h : records[ranged.length]? = some r) (writers : List ω) :
    deliveries (ranged ++ [writers]) records =
      deliveries ranged records ++ writers.map fun w => (w, r) := by
  induction ranged generalizing records with
  | nil =>
      cases records with
      | nil => cases h
      | cons r' records =>
          obtain rfl : r' = r := Option.some.inj h
          exact List.append_nil _
  | cons writers' ranged ih =>
      cases records with
      | nil => cases h
      | cons r' records =>
          rw [List.cons_append, deliveries_cons, deliveries_cons, ih h, List.append_assoc]

namespace LogWriter

/-- The calls of `Write` that are left of the loop over the writers. -/
def remaining (heap : Addr → Record) : LogWriter ω → List (ω × Record)
  | write r _ writers => writers.map fun w => (w, heap r)
  | _ => []

/-- The records that are out of the channel and have not come to the loop over the writers. -/
def ahead : LogWriter ω → Nat
  | range _ _ => 1
  | _ => 0

theorem remaining_congr {pc : LogWriter ω} {heap heap' : Addr → Record}
    (h : ∀ r, pc.held = some r → heap' r = heap r) : pc.remaining heap' = pc.remaining heap := by
  cases pc with
  | write r first writers => rw [remaining, remaining, h r rfl]
  | first => rfl
  | range => rfl
  | put => rfl
  | select => rfl
  | flush => rfl
  | rotate => rfl
  | done => rfl

theorem Between.ahead {pc : LogWriter ω} (h : pc.Between) : pc.ahead = 0 := by
  cases pc with
  | range => exact h.elim
  | _ => rfl

theorem Between.remaining {pc : LogWriter ω} (h : pc.Between) (heap : Addr → Record) :
    pc.remaining heap = [] := by
  cases pc with
  | write => exact h.elim
  | _ => rfl

end LogWriter

/-- The records that producers, the channel and the goroutine have are as the producers set them. -/
structure Intact (s : Logger ι ω) : Prop where
  filled : ∀ p r, (s.producers p).held = some r → (s.producers p).Filled (s.heap r)
  dequeued_le : s.dequeued.length ≤ s.records.length
  pending : s.records.drop s.dequeued.length = s.recordChan.map s.heap
  current : ∀ r, s.logWriter.held = some r →
    ∃ n, s.dequeued.length = n + 1 ∧ s.records[n]? = some (s.heap r)

/-- The writers got what the loops over them have come to: one record after the other, and each goes to
the writers that were registered when it was taken out, and to those that came before its loop. -/
structure Delivered (s : Logger ι ω) : Prop where
  length_eq : s.dequeued.length = s.ranged.length + s.logWriter.ahead
  registered : ∀ (i : Nat) (registered : List ω), s.dequeued[i]? = some registered →
    registered <+: (s.ranged[i]?).getD s.writers
  written : writes s.events ++ s.logWriter.remaining s.heap = deliveries s.ranged s.records

/-- The calls of a producer whose record entered the channel. -/
def callsEntered [DecidableEq ι] (entered : List (ι × Record)) (p : ι) : List Call :=
  (entered.filter fun e => e.1 = p).map fun e => e.2.call

/-- The calls of a producer that are not below the level that was set when they were made. -/
def passed (s : Logger ι ω) (p : ι) : List Call := ((s.calls p).filter fun c => c.2 ≤ c.1.level.toInt).map Prod.fst

/-- The level check lets these calls through and no others. -/
def LevelChecked (s : Logger ι ω) : Prop := ∀ p, s.accepted p = s.passed p

/-- The calls that passed the level check are those whose record entered and the one under way. -/
def Accepted [DecidableEq ι] (s : Logger ι ω) : Prop :=
  ∀ p, s.accepted p = callsEntered s.entered p ++ (s.producers p).call.toList

variable {s s' : Logger ι ω}

/-! ### The records stay as they were set -/

/-- A record that none of these has can change. -/
theorem Intact.setHeap (h : Intact s) {r : Addr} (record : Record)
    (hproducers : ∀ p, (s.producers p).held ≠ some r) (hchan : r ∉ s.recordChan)
    (hwriter : s.logWriter.held ≠ some r) :
    Intact { s with heap := Function.update s.heap r record } where
  filled p r' hr' := by
    have hne : r' ≠ r := fun heq => hproducers p (heq ▸ hr')
    show (s.producers p).Filled (Function.update s.heap r record r')
    rw [Function.update_of_ne hne]
    exact h.filled p r' hr'
  dequeued_le := h.dequeued_le
  pending := by
    calc
      s.records.drop s.dequeued.length = s.recordChan.map s.heap := h.pending
      _ = s.recordChan.map (Function.update s.heap r record) := by
        apply List.map_congr_left
        intro r' hr'
        have hne : r' ≠ r := fun heq => hchan (heq ▸ hr')
        rw [Function.update_of_ne hne]
  current r' hr' := by
    have hne : r' ≠ r := fun heq => hwriter (heq ▸ hr')
    show ∃ n, _ ∧ _ = some (Function.update s.heap r record r')
    rw [Function.update_of_ne hne]
    exact h.current r' hr'

/-- What the invariant does not speak of. -/
theorem Intact.congr {t : Logger ι ω} (h : Intact s)
    (hpc : ∀ r, t.logWriter.held = some r → s.logWriter.held = some r)
    (hproducers : t.producers = s.producers := by rfl) (hheap : t.heap = s.heap := by rfl)
    (hchan : t.recordChan = s.recordChan := by rfl) (hentered : t.entered = s.entered := by rfl)
    (hdequeued : t.dequeued = s.dequeued := by rfl) : Intact t := by
  have hrecords : t.records = s.records := congrArg (List.map Prod.snd) hentered
  refine ⟨?_, ?_, ?_, ?_⟩
  · rw [hproducers, hheap]
    exact h.filled
  · rw [hrecords, hdequeued]
    exact h.dequeued_le
  · rw [hrecords, hdequeued, hchan, hheap]
    exact h.pending
  · intro r hr
    rw [hrecords, hdequeued, hheap]
    exact h.current r (hpc r hr)

/-- A record enters the channel. -/
theorem Intact.enter (h : Intact s) (p : ι) (r : Addr) :
    Intact { s with
      recordChan := s.recordChan ++ [r]
      entered := s.entered ++ [(p, s.heap r)] } := by
  have hrecords : records { s with
      recordChan := s.recordChan ++ [r]
      entered := s.entered ++ [(p, s.heap r)] } = s.records ++ [s.heap r] := List.map_append
  refine ⟨h.filled, ?_, ?_, ?_⟩
  · rw [hrecords, List.length_append]
    exact Nat.le_succ_of_le h.dequeued_le
  · rw [hrecords, List.drop_append_of_le_length h.dequeued_le, h.pending, List.map_append]
    rfl
  · intro r' hr'
    obtain ⟨n, hn, hcurrent⟩ := h.current r' hr'
    have hlt : n < s.records.length := by
      have := h.dequeued_le
      omega
    refine ⟨n, hn, ?_⟩
    rw [hrecords, List.getElem?_append_left hlt]
    exact hcurrent

/-- The goroutine takes a record out of the channel. -/
theorem Intact.take (h : Intact s) {r : Addr} {rest : List Addr} (hchan : s.recordChan = r :: rest)
    {pc : LogWriter ω} (hheld : pc.held = some r) :
    Intact { s with recordChan := rest, logWriter := pc, dequeued := s.dequeued ++ [s.writers] } := by
  have hdrop : s.records.drop s.dequeued.length = s.heap r :: rest.map s.heap := by
    rw [h.pending, hchan, List.map_cons]
  have hlength : (s.dequeued ++ [s.writers]).length = s.dequeued.length + 1 := by
    rw [List.length_append, List.length_singleton]
  have hget : s.records[s.dequeued.length]? = some (s.heap r) := by
    have := congrArg List.head? hdrop
    rwa [List.head?_drop] at this
  refine ⟨h.filled, ?_, ?_, ?_⟩
  · show (s.dequeued ++ [s.writers]).length ≤ s.records.length
    rw [hlength]
    obtain ⟨hlt, _⟩ := List.getElem?_eq_some_iff.mp hget
    exact hlt
  · show s.records.drop (s.dequeued ++ [s.writers]).length = rest.map s.heap
    rw [hlength, ← List.tail_drop, hdrop, List.tail_cons]
  · intro r' hr'
    obtain rfl : r = r' := Option.some.inj (hheld.symm.trans hr')
    exact ⟨s.dequeued.length, hlength, hget⟩

variable [DecidableEq ι]

/-- A producer goes on. -/
theorem Intact.setProducer (h : Intact s) (p : ι) (pc : Producer)
    (hfilled : ∀ r, pc.held = some r → pc.Filled (s.heap r)) : Intact (s.setProducer p pc) where
  filled q r hr := by
    by_cases hq : q = p
    · subst hq
      have hpc : (s.setProducer q pc).producers q = pc := Function.update_self _ _ _
      rw [hpc] at hr ⊢
      exact hfilled r hr
    · have hpc : (s.setProducer p pc).producers q = s.producers q := Function.update_of_ne hq _ _
      rw [hpc] at hr ⊢
      exact h.filled q r hr
  dequeued_le := h.dequeued_le
  pending := h.pending
  current := h.current

theorem Intact.effect {isFlusher : ω → Bool} {label : Label ι ω} (h : Intact s)
    (hexclusive : Exclusive s) (he : Effect isFlusher s label s') : Intact s' := by
  cases he with
  | registerWriter w => exact h.congr fun _ => id
  | setLevel level => exact h.congr fun _ => id
  | filtered hlevel => exact h.congr fun _ => id
  | @deliver p call hlevel hidle =>
      exact (h.setProducer p (.get call) nofun).congr fun _ => id
  | @getNew p call hget =>
      have hnew (holder : Holder ι) : ¬s.Holds holder s.nextAddr := fun hr =>
        Nat.lt_irrefl _ (hexclusive.allocated _ _ hr)
      have hheap := h.setHeap ⟨[], [], [], .debug⟩ (fun q => hnew (.producer q)) (hnew .channel)
        (hnew .logWriter)
      exact (hheap.setProducer p (.setMessage s.nextAddr call) fun _ _ => trivial).congr
        fun _ => id
  | @getPooled p call r hget hpool =>
      exact (h.setProducer p (.setMessage r call) fun _ _ => trivial).congr
        fun _ => id
  | @set p r pc timestamp f hheld hheld' hcall hfilled =>
      -- while the producer is taken for idle, nobody has the record
      have hidle := h.setProducer p .idle nofun
      have hheap := hidle.setHeap (f (s.heap r))
        (by
          intro q hq
          rcases held_update hq with ⟨_, hq⟩ | ⟨hne, hq⟩
          · cases hq
          · exact hne (Holder.producer.inj (hexclusive.unique (.producer q) (.producer p) r hq hheld)))
        (fun hr => nomatch hexclusive.unique .channel (.producer p) r hr hheld)
        (fun hr => nomatch hexclusive.unique .logWriter (.producer p) r hr hheld)
      refine (hheap.setProducer p pc fun r' hr' => ?_).congr (fun _ => id) ?_
      · obtain rfl := Option.some.inj (hheld'.symm.trans hr')
        show pc.Filled (Function.update s.heap r (f (s.heap r)) r)
        rw [Function.update_self]
        exact hfilled _ (h.filled p r hheld)
      · exact (Function.update_idem _ _ _).symm
  | @send p r call timestamp hsend hclosed =>
      have hidle := h.setProducer p .idle nofun
      have hrecord : s.heap r = call.record timestamp := by
        have := h.filled p r (by rw [hsend]; rfl)
        rwa [hsend] at this
      have henter := hidle.enter p r
      rw [show (s.setProducer p .idle).heap r = call.record timestamp from hrecord] at henter
      exact henter
  | drop r => exact h.congr fun _ => id
  | receive hpc hchan => exact h.take hchan rfl
  | stop hpc hchan hclosed => exact h.congr nofun
  | range hpc => exact h.congr fun r hr => by rw [hpc]; exact hr
  | write hpc => exact h.congr fun r hr => by rw [hpc]; exact hr
  | @writeEnd r first hpc =>
      refine h.congr fun r' hr => ?_
      cases first with
      | true => cases hr
      | false => rw [hpc]; exact hr
  | put hpc => exact h.congr nofun
  | timer hbetween hbetween' hevents =>
      refine h.congr fun r hr => ?_
      rw [hbetween'.held] at hr
      cases hr
  | close hcloser => exact h.congr fun _ => id
  | closeReceive hcloser hc => exact h.congr fun _ => id
  | closeFlush hcloser => exact h.congr fun _ => id
  | closeEnd hcloser => exact h.congr fun _ => id

/-! ### The writers get the records -/

omit [DecidableEq ι] in
/-- A step that changes nothing of this. -/
theorem Delivered.congr {t : Logger ι ω} (h : Delivered s)
    (hahead : t.logWriter.ahead = s.logWriter.ahead := by rfl)
    (hremaining : t.logWriter.remaining t.heap = s.logWriter.remaining s.heap := by rfl)
    (hwrites : writes t.events = writes s.events := by rfl)
    (hdeliveries : deliveries s.ranged t.records = deliveries s.ranged s.records := by rfl)
    (hwriters : s.writers <+: t.writers := by exact List.prefix_refl _)
    (hdequeued : t.dequeued = s.dequeued := by rfl) (hranged : t.ranged = s.ranged := by rfl) :
    Delivered t where
  length_eq := by rw [hdequeued, hranged, hahead, h.length_eq]
  registered i registered hi := by
    rw [hdequeued] at hi
    rw [hranged]
    have hprefix := h.registered i registered hi
    cases hget : s.ranged[i]? with
    | none =>
        rw [hget] at hprefix
        exact hprefix.trans hwriters
    | some writers =>
        rw [hget] at hprefix
        exact hprefix
  written := by rw [hwrites, hremaining, hranged, hdeliveries, h.written]

theorem Delivered.effect {isFlusher : ω → Bool} {label : Label ι ω} (h : Delivered s)
    (hintact : Intact s) (hexclusive : Exclusive s) (he : Effect isFlusher s label s') :
    Delivered s' := by
  have hlength : s.ranged.length ≤ s.records.length := by
    have := h.length_eq
    have := hintact.dequeued_le
    omega
  cases he with
  | registerWriter w => exact h.congr rfl rfl rfl rfl (List.prefix_append _ _)
  | setLevel level => exact h.congr
  | filtered hlevel => exact h.congr
  | deliver hlevel hidle => exact h.congr
  | getNew hget =>
      refine h.congr rfl (LogWriter.remaining_congr fun r hr => ?_)
      exact Function.update_of_ne (Nat.ne_of_lt (hexclusive.allocated .logWriter r hr)) _ _
  | getPooled hget hpool => exact h.congr
  | @set p r pc timestamp f hheld hheld' hcall hfilled =>
      refine h.congr rfl (LogWriter.remaining_congr fun r' hr' => ?_)
      have hne : r' ≠ r := by
        rintro rfl
        exact nomatch hexclusive.unique .logWriter (.producer p) r' hr' hheld
      exact Function.update_of_ne hne _ _
  | @send p r call timestamp hsend hclosed =>
      refine h.congr rfl rfl rfl ?_
      show deliveries s.ranged ((s.entered ++ [(p, call.record timestamp)]).map Prod.snd) = _
      rw [List.map_append]
      exact deliveries_enter hlength _
  | drop r => exact h.congr
  | @receive r rest first hpc hchan =>
      have hahead : s.logWriter.ahead = 0 := by
        rw [hpc]
        cases first <;> rfl
      have hremaining : s.logWriter.remaining s.heap = [] := by
        rw [hpc]
        cases first <;> rfl
      refine ⟨?_, ?_, ?_⟩
      · show (s.dequeued ++ [s.writers]).length = s.ranged.length + 1
        rw [List.length_append, h.length_eq, hahead]
        rfl
      · intro i registered hi
        rcases Nat.lt_or_ge i s.dequeued.length with hlt | hge
        · rw [List.getElem?_append_left hlt] at hi
          exact h.registered i registered hi
        · have hnone : s.ranged[i]? = none := by
            rw [List.getElem?_eq_none_iff]
            have := h.length_eq
            omega
          rw [List.getElem?_append_right hge, List.getElem?_singleton] at hi
          show registered <+: (s.ranged[i]?).getD s.writers
          rw [hnone]
          split at hi
          · exact Option.some.inj hi ▸ List.prefix_refl _
          · cases hi
      · have hwritten := h.written
        rw [hremaining] at hwritten
        exact hwritten
  | @stop first hpc hchan hclosed =>
      refine h.congr ?_ ?_
      · rw [hpc]
        cases first <;> rfl
      · rw [hpc]
        cases first <;> rfl
  | @range r first hpc =>
      obtain ⟨n, hn, hcurrent⟩ := hintact.current r (by rw [hpc]; rfl)
      have hranged : s.ranged.length = n := by
        have := h.length_eq
        rw [hpc, hn] at this
        exact (Nat.succ.inj this).symm
      refine ⟨?_, ?_, ?_⟩
      · show s.dequeued.length = (s.ranged ++ [s.writers]).length + 0
        rw [hn, List.length_append, hranged]
        rfl
      · intro i registered hi
        have hprefix := h.registered i registered hi
        show registered <+: ((s.ranged ++ [s.writers])[i]?).getD s.writers
        rcases Nat.lt_or_ge i s.ranged.length with hlt | hge
        · rwa [List.getElem?_append_left hlt]
        · rw [List.getElem?_eq_none_iff.mpr hge] at hprefix
          rw [List.getElem?_append_right hge, List.getElem?_singleton]
          split
          · exact hprefix
          · exact hprefix
      · have hwritten : writes s.events = deliveries s.ranged s.records := by
          have := h.written
          rw [hpc] at this
          exact (List.append_nil _).symm.trans this
        show writes s.events ++ (s.writers.map fun w => (w, s.heap r)) =
          deliveries (s.ranged ++ [s.writers]) s.records
        rw [deliveries_range (hranged ▸ hcurrent), hwritten]
  | @write r first w writers hpc =>
      have hwritten := h.written
      rw [hpc] at hwritten
      have hlengthEq := h.length_eq
      rw [hpc] at hlengthEq
      refine ⟨hlengthEq, h.registered, ?_⟩
      show writes (s.events ++ [.write w (s.heap r)]) ++ (writers.map fun w => (w, s.heap r)) = _
      rw [writes_append, List.append_assoc]
      exact hwritten
  | @writeEnd r first hpc =>
      refine h.congr ?_ ?_
      · rw [hpc]
        cases first <;> rfl
      · rw [hpc]
        cases first <;> rfl
  | put hpc => exact h.congr (by rw [hpc]; rfl) (by rw [hpc]; rfl)
  | timer hbetween hbetween' hevents =>
      refine h.congr ?_ ?_ ?_
      · rw [hbetween.ahead]
        exact hbetween'.ahead
      · rw [hbetween.remaining]
        exact hbetween'.remaining _
      · show writes (s.events ++ _) = _
        rw [writes_append, writes_of_isWrite hevents, List.append_nil]
  | close hcloser => exact h.congr
  | closeReceive hcloser hc => exact h.congr
  | @closeFlush w writers hcloser =>
      refine h.congr rfl rfl ?_
      show writes (s.events ++ _) = _
      rw [writes_append, writes_of_isWrite (isWrite_of_closeFlush isFlusher w), List.append_nil]
  | closeEnd hcloser => exact h.congr

/-! ### The level check -/

theorem passed_called (s : Logger ι ω) (p q : ι) (call : Call) :
    (s.called p call).passed q =
      s.passed q ++ if q = p ∧ s.level ≤ call.level.toInt then [call] else [] := by
  by_cases hq : q = p
  · subst hq
    show ((Function.update s.calls q (s.calls q ++ [(call, s.level)]) q).filter _).map Prod.fst = _
    rw [Function.update_self, List.filter_append, List.map_append]
    by_cases hlevel : s.level ≤ call.level.toInt
    · simp [passed, hlevel]
    · simp [passed, hlevel]
  · rw [if_neg fun h => hq h.1, List.append_nil, passed, passed, called]
    dsimp only
    rw [Function.update_of_ne hq]

omit [DecidableEq ι] in
theorem LevelChecked.congr {t : Logger ι ω} (h : LevelChecked s) (haccepted : t.accepted = s.accepted := by rfl)
    (hcalls : t.calls = s.calls := by rfl) : LevelChecked t := by
  intro p
  rw [haccepted, passed, hcalls]
  exact h p

theorem LevelChecked.effect {isFlusher : ω → Bool} {label : Label ι ω} (h : LevelChecked s)
    (he : Effect isFlusher s label s') : LevelChecked s' := by
  cases he with
  | @filtered p call hlevel =>
      intro q
      rw [passed_called, if_neg fun hq => absurd hq.2 (Int.not_le.mpr hlevel), List.append_nil]
      exact h q
  | @deliver p call hlevel hidle =>
      intro q
      show Function.update s.accepted p (s.accepted p ++ [call]) q = (s.called p call).passed q
      rw [passed_called]
      by_cases hq : q = p
      · rw [if_pos ⟨hq, hlevel⟩, hq, Function.update_self, h p]
      · rw [if_neg fun hpq => hq hpq.1, List.append_nil, Function.update_of_ne hq, h q]
  | _ => exact h.congr

/-! ### Every accepted call enters the channel -/

theorem Accepted.congr {t : Logger ι ω} (h : Accepted s)
    (hcall : ∀ p, (t.producers p).call = (s.producers p).call := by exact fun _ => rfl)
    (haccepted : t.accepted = s.accepted := by rfl) (hentered : t.entered = s.entered := by rfl) :
    Accepted t := by
  intro p
  rw [haccepted, hentered, hcall]
  exact h p

theorem callsEntered_append (entered : List (ι × Record)) (p q : ι) (r : Record) :
    callsEntered (entered ++ [(p, r)]) q =
      callsEntered entered q ++ if p = q then [r.call] else [] := by
  rw [callsEntered, List.filter_append, List.map_append, callsEntered]
  by_cases hq : p = q
  · simp [hq]
  · simp [hq]

/-- The call of one producer changes. -/
theorem call_update (producers : ι → Producer) (p q : ι) (pc : Producer) :
    (Function.update producers p pc q).call = if q = p then pc.call else (producers q).call := by
  by_cases hq : q = p
  · rw [if_pos hq, hq, Function.update_self]
  · rw [if_neg hq, Function.update_of_ne hq]

/-- A producer that stays in its call. -/
theorem call_update_of_eq {producers : ι → Producer} {p : ι} {pc : Producer}
    (h : pc.call = (producers p).call) (q : ι) :
    (Function.update producers p pc q).call = (producers q).call := by
  rw [call_update]
  split
  · rename_i hq
    rw [h, hq]
  · rfl

theorem Accepted.effect {isFlusher : ω → Bool} {label : Label ι ω} (h : Accepted s)
    (he : Effect isFlusher s label s') : Accepted s' := by
  cases he with
  | registerWriter w => exact h.congr
  | setLevel level => exact h.congr
  | filtered hlevel => exact h.congr
  | @deliver p call hlevel hidle =>
      intro q
      show Function.update s.accepted p (s.accepted p ++ [call]) q = callsEntered s.entered q ++
        (Function.update s.producers p (.get call) q).call.toList
      rw [call_update]
      by_cases hq : q = p
      · rw [if_pos hq, hq, Function.update_self, h p, hidle, List.append_assoc]
        rfl
      · rw [if_neg hq, Function.update_of_ne hq, h q]
  | getNew hget => exact h.congr (call_update_of_eq (by rw [hget]; rfl))
  | getPooled hget hpool => exact h.congr (call_update_of_eq (by rw [hget]; rfl))
  | set timestamp f hheld hheld' hcall hfilled => exact h.congr (call_update_of_eq hcall)
  | @send p r call timestamp hsend hclosed =>
      intro q
      show s.accepted q = callsEntered (s.entered ++ [(p, call.record timestamp)]) q ++
        (Function.update s.producers p .idle q).call.toList
      rw [call_update, callsEntered_append, h q]
      by_cases hq : q = p
      · rw [if_pos hq, hq, if_pos rfl, hsend, List.append_assoc]
        rfl
      · rw [if_neg hq, if_neg (Ne.symm hq), List.append_nil]
  | drop r => exact h.congr
  | receive hpc hchan => exact h.congr
  | stop hpc hchan hclosed => exact h.congr
  | range hpc => exact h.congr
  | write hpc => exact h.congr
  | writeEnd hpc => exact h.congr
  | put hpc => exact h.congr
  | timer hbetween hbetween' hevents => exact h.congr
  | close hcloser => exact h.congr
  | closeReceive hcloser hc => exact h.congr
  | closeFlush hcloser => exact h.congr
  | closeEnd hcloser => exact h.congr

end ToyBox.Logger
