import ToyBox.Logger.Sinks

/-! The logger together with its writers: what the goroutine and `Close` call is carried out on files and consoles. From
a log call to the disk nothing is lost, reordered or doubled. -/

namespace ToyBox.Logger

variable {ι ω : Type}

/-! ### Which writers are called -/

namespace LogWriter

/-- The writers left of a loop over them. -/
def left : LogWriter ω → List ω
  | write _ _ writers => writers
  | flush writers => writers
  | rotate writers => writers
  | _ => []

end LogWriter

namespace Closer

def left : Closer ω → List ω
  | flush writers => writers
  | _ => []

end Closer

/-- The writer that is registered. -/
def Label.registers : Label ι ω → List ω
  | .registerWriter w => [w]
  | _ => []

/-- What a step of the logger does to the writers: those it calls are left of a loop over them. -/
structure Moves (s : Logger ι ω) (label : Label ι ω) (s' : Logger ι ω) : Prop where
  events : ∃ calls, s'.events = s.events ++ calls ∧
    ∀ e ∈ calls, e.writer ∈ s.logWriter.left ∨ e.writer ∈ s.closer.left
  writers : s'.writers = s.writers ++ label.registers
  logWriter : s'.logWriter.left <:+ s.logWriter.left ∨ s'.logWriter.left = s.writers
  closer : s'.closer.left <:+ s.closer.left ∨ s'.closer.left = s.writers
  recordChan : s'.recordChan.length ≤ max s.recordChan.length chanCapacity

variable {s s' : Logger ι ω} {label : Label ι ω} {isFlusher isRotater : ω → Bool}

/-- A step that calls no writer. -/
theorem Moves.of_silent (hevents : s'.events = s.events)
    (hlogWriter : s'.logWriter.left <:+ s.logWriter.left ∨ s'.logWriter.left = s.writers)
    (hcloser : s'.closer.left <:+ s.closer.left ∨ s'.closer.left = s.writers)
    (hchan : s'.recordChan.length ≤ max s.recordChan.length chanCapacity)
    (hwriters : s'.writers = s.writers ++ label.registers) : Moves s label s' where
  events := ⟨[], hevents.trans (List.append_nil _).symm, fun _ he => absurd he List.not_mem_nil⟩
  writers := hwriters
  logWriter := hlogWriter
  closer := hcloser
  recordChan := hchan

/-- A step that calls a writer, if that has the method. -/
theorem Moves.of_event (label : Label ι ω) {has : Bool} {e : Event ω} {pc : LogWriter ω} {closer : Closer ω}
    (he : e.writer ∈ s.logWriter.left ∨ e.writer ∈ s.closer.left)
    (hlogWriter : pc.left <:+ s.logWriter.left) (hcloser : closer.left <:+ s.closer.left)
    (hlabel : label.registers = []) :
    Moves s label { s with events := s.events ++ if has then [e] else [], logWriter := pc, closer } := by
  refine ⟨⟨_, rfl, ?_⟩, ?_, .inl hlogWriter, .inl hcloser, Nat.le_max_left _ _⟩
  · intro e' he'
    cases has with
    | true => exact List.mem_singleton.mp he' ▸ he
    | false => exact absurd he' List.not_mem_nil
  · rw [hlabel, List.append_nil]

theorem chan_le (s : Logger ι ω) : s.recordChan.length ≤ max s.recordChan.length chanCapacity := Nat.le_max_left _ _

variable [DecidableEq ι]

theorem moves_of_deliver {p : ι} {call : Call} (h : (s.called p call).deliverRecord2Writer p call = some s') :
    Moves s (.deliver p call) s' := by
  have hwriters : s.writers = s.writers ++ (Label.deliver p call : Label ι ω).registers := (List.append_nil _).symm
  unfold deliverRecord2Writer at h
  split at h
  · split at h
    · cases h
      exact .of_silent rfl (.inl List.suffix_rfl) (.inl List.suffix_rfl) (chan_le s) hwriters
    · cases h
      exact .of_silent rfl (.inl List.suffix_rfl) (.inl List.suffix_rfl) (chan_le s) hwriters
  · cases h

theorem moves_of_get {p : ι} {pooled : Option Addr} (h : s.getRecord p pooled = some s') :
    Moves s (.get p pooled) s' := by
  have hwriters : s.writers = s.writers ++ (Label.get p pooled : Label ι ω).registers := (List.append_nil _).symm
  unfold getRecord at h
  split at h
  · cases h
    exact .of_silent rfl (.inl List.suffix_rfl) (.inl List.suffix_rfl) (chan_le s) hwriters
  · split at h
    · cases h
      exact .of_silent rfl (.inl List.suffix_rfl) (.inl List.suffix_rfl) (chan_le s) hwriters
    · cases h
  · cases h

theorem moves_of_set {p : ι} {timestamp : Bytes} (h : s.setField p timestamp = some s') :
    Moves s (.set p timestamp) s' := by
  have hwriters : s.writers = s.writers ++ (Label.set p timestamp : Label ι ω).registers := (List.append_nil _).symm
  unfold setField at h
  split at h
  case h_5 => cases h
  all_goals
    cases h
    exact .of_silent rfl (.inl List.suffix_rfl) (.inl List.suffix_rfl) (chan_le s) hwriters

/-- The channel takes no record beyond its capacity. -/
theorem moves_of_send {p : ι} (h : s.sendRecord p = some s') : Moves s (.send p) s' := by
  have hwriters : s.writers = s.writers ++ (Label.send p : Label ι ω).registers := (List.append_nil _).symm
  unfold sendRecord at h
  split at h
  · split at h
    · rename_i hroom
      cases h
      refine .of_silent rfl (.inl List.suffix_rfl) (.inl List.suffix_rfl) ?_ hwriters
      show (s.recordChan ++ [_]).length ≤ _
      rw [List.length_append, List.length_singleton]
      exact Nat.le_trans hroom.1 (Nat.le_max_right _ _)
    · cases h
  · cases h

omit [DecidableEq ι] in
theorem moves_of_takeRecord {first : Bool} (h : s.takeRecord first = some s') : Moves s .receive s' := by
  have hwriters : s.writers = s.writers ++ (Label.receive : Label ι ω).registers := (List.append_nil _).symm
  unfold takeRecord at h
  split at h
  · rename_i r rest hchan
    cases h
    refine .of_silent rfl (.inl (List.nil_suffix)) (.inl List.suffix_rfl) ?_ hwriters
    show rest.length ≤ _
    rw [hchan, List.length_cons]
    exact Nat.le_trans (Nat.le_succ _) (Nat.le_max_left _ _)
  · split at h
    · cases h
      exact .of_silent rfl (.inl List.nil_suffix) (.inl List.suffix_rfl) (chan_le s) hwriters
    · cases h

theorem moves_of_next (h : s.next isFlusher isRotater label = some s') : Moves s label s' := by
  cases label with
  | registerWriter w =>
      cases h
      exact .of_silent rfl (.inl List.suffix_rfl) (.inl List.suffix_rfl) (chan_le s) rfl
  | setLevel level =>
      cases h
      exact .of_silent rfl (.inl List.suffix_rfl) (.inl List.suffix_rfl) (chan_le s) (List.append_nil _).symm
  | deliver p call => exact moves_of_deliver h
  | get p pooled => exact moves_of_get h
  | set p timestamp => exact moves_of_set h
  | send p => exact moves_of_send h
  | drop r =>
      cases h
      exact .of_silent rfl (.inl List.suffix_rfl) (.inl List.suffix_rfl) (chan_le s) (List.append_nil _).symm
  | receive =>
      replace h : s.receive = some s' := h
      unfold receive at h
      split at h
      · exact moves_of_takeRecord h
      · exact moves_of_takeRecord h
      · cases h
  | range =>
      replace h : s.range = some s' := h
      unfold range at h
      split at h
      · cases h
        exact .of_silent rfl (.inr rfl) (.inl List.suffix_rfl) (chan_le s) (List.append_nil _).symm
      · cases h
  | write =>
      replace h : s.write = some s' := h
      unfold write at h
      split at h
      · rename_i r first w writers hpc
        cases h
        rw [event_eq]
        refine .of_event .write (.inl ?_) ?_ List.suffix_rfl rfl
        · rw [hpc]
          exact List.mem_cons_self
        · rw [hpc]
          exact List.suffix_cons w writers
      · rename_i r first hpc
        cases h
        refine .of_silent rfl (.inl ?_) (.inl List.suffix_rfl) (chan_le s) (List.append_nil _).symm
        cases first <;> exact List.nil_suffix
      · cases h
  | put =>
      replace h : s.put = some s' := h
      unfold put at h
      split at h
      · cases h
        exact .of_silent rfl (.inl List.nil_suffix) (.inl List.suffix_rfl) (chan_le s) (List.append_nil _).symm
      · cases h
  | flushTimer =>
      replace h : s.flushTimer = some s' := h
      unfold flushTimer at h
      split at h
      · cases h
        exact .of_silent rfl (.inr rfl) (.inl List.suffix_rfl) (chan_le s) (List.append_nil _).symm
      · cases h
  | flush =>
      replace h : s.flush isFlusher = some s' := h
      unfold flush at h
      split at h
      · rename_i w writers hpc
        cases h
        rw [event_eq]
        refine .of_event .flush (.inl ?_) ?_ List.suffix_rfl rfl
        · rw [hpc]
          exact List.mem_cons_self
        · rw [hpc]
          exact List.suffix_cons w writers
      · cases h
        exact .of_silent rfl (.inl List.nil_suffix) (.inl List.suffix_rfl) (chan_le s) (List.append_nil _).symm
      · cases h
  | rotateTimer =>
      replace h : s.rotateTimer = some s' := h
      unfold rotateTimer at h
      split at h
      · cases h
        exact .of_silent rfl (.inr rfl) (.inl List.suffix_rfl) (chan_le s) (List.append_nil _).symm
      · cases h
  | rotate =>
      replace h : s.rotate isRotater = some s' := h
      unfold rotate at h
      split at h
      · rename_i w writers hpc
        cases h
        rw [event_eq]
        refine .of_event .rotate (.inl ?_) ?_ List.suffix_rfl rfl
        · rw [hpc]
          exact List.mem_cons_self
        · rw [hpc]
          exact List.suffix_cons w writers
      · cases h
        exact .of_silent rfl (.inl List.nil_suffix) (.inl List.suffix_rfl) (chan_le s) (List.append_nil _).symm
      · cases h
  | close =>
      replace h : s.close = some s' := h
      unfold close at h
      split at h
      · cases h
        exact .of_silent rfl (.inl List.suffix_rfl) (.inl List.nil_suffix) (chan_le s) (List.append_nil _).symm
      · cases h
  | closeReceive =>
      replace h : s.closeReceive = some s' := h
      unfold closeReceive at h
      split at h
      · split at h
        · cases h
          exact .of_silent rfl (.inl List.suffix_rfl) (.inr rfl) (chan_le s) (List.append_nil _).symm
        · cases h
      · cases h
  | closeFlush =>
      replace h : s.closeFlush isFlusher = some s' := h
      unfold closeFlush at h
      split at h
      · rename_i w writers hpc
        cases h
        rw [event_eq]
        refine .of_event .closeFlush (.inr ?_) List.suffix_rfl ?_ rfl
        · rw [hpc]
          exact List.mem_cons_self
        · rw [hpc]
          exact List.suffix_cons w writers
      · cases h
        exact .of_silent rfl (.inl List.suffix_rfl) (.inl List.nil_suffix) (chan_le s) (List.append_nil _).symm
      · cases h

/-! ### What a writer is called with -/

/-- The loops over the writers are over registered ones, and the channel does not outgrow its capacity. -/
structure Loops (s : Logger ι ω) : Prop where
  nodup : s.writers.Nodup
  events : ∀ e ∈ s.events, e.writer ∈ s.writers
  logWriter : s.logWriter.left.Nodup ∧ s.logWriter.left ⊆ s.writers
  closer : s.closer.left ⊆ s.writers
  recordChan : s.recordChan.length ≤ chanCapacity

omit [DecidableEq ι] in
theorem Loops.moves (h : Loops s) (hmoves : Moves s label s') (hnew : ∀ w ∈ label.registers, w ∉ s.writers) :
    Loops s' := by
  have hsub : s.writers ⊆ s'.writers := by
    rw [hmoves.writers]
    exact List.subset_append_left _ _
  refine ⟨?_, ?_, ?_, ?_, ?_⟩
  · rw [hmoves.writers, List.nodup_append]
    refine ⟨h.nodup, ?_, ?_⟩
    · cases label with
      | registerWriter w => exact List.pairwise_singleton _ w
      | _ => exact List.nodup_nil
    · rintro w hw _ hw' rfl
      exact hnew w hw' hw
  · obtain ⟨calls, hevents, hcalls⟩ := hmoves.events
    intro e he
    rw [hevents] at he
    rcases List.mem_append.mp he with hold | hcall
    · exact hsub (h.events e hold)
    · exact hsub ((hcalls e hcall).elim (fun hleft => h.logWriter.2 hleft) fun hleft => h.closer hleft)
  · rcases hmoves.logWriter with hsuffix | hall
    · exact ⟨hsuffix.sublist.nodup h.logWriter.1, fun w hw => hsub (h.logWriter.2 (hsuffix.subset hw))⟩
    · rw [hall]
      exact ⟨h.nodup, hsub⟩
  · rcases hmoves.closer with hsuffix | hall
    · exact fun w hw => hsub (h.closer (hsuffix.subset hw))
    · rw [hall]
      exact hsub
  · exact Nat.le_trans hmoves.recordChan (Nat.max_le.mpr ⟨h.recordChan, Nat.le_refl _⟩)

variable [DecidableEq ω]

/-- What one writer gets of the deliveries. -/
def toWriter (w : ω) (deliveries : List (ω × Record)) : List Record :=
  (deliveries.filter fun d => d.1 = w).map Prod.snd

theorem toWriter_append (w : ω) (a b : List (ω × Record)) : toWriter w (a ++ b) = toWriter w a ++ toWriter w b := by
  rw [toWriter, List.filter_append, List.map_append]
  rfl

/-- One record goes once to each of several writers. -/
theorem toWriter_map {writers : List ω} (hnodup : writers.Nodup) (w : ω) (r : Record) :
    toWriter w (writers.map fun w' => (w', r)) = if w ∈ writers then [r] else [] := by
  induction writers with
  | nil => rfl
  | cons w' writers ih =>
      obtain ⟨hnot, hrest⟩ := List.nodup_cons.mp hnodup
      rw [List.map_cons, toWriter, List.filter_cons]
      by_cases hw : w' = w
      · subst hw
        rw [if_neg hnot] at ih
        simpa [toWriter] using ih hrest
      · simpa [toWriter, hw, Ne.symm hw] using ih hrest

theorem writtenTo_eq_toWriter (events : List (Event ω)) (w : ω) : writtenTo events w = toWriter w (writes events) := by
  induction events with
  | nil => rfl
  | cons e events ih =>
      have hcons : writtenTo (e :: events) w = (if e.writer = w then e.records else []) ++ writtenTo events w := by
        rw [writtenTo, List.filter_cons]
        by_cases hw : e.writer = w
        · simp [writtenTo, hw]
        · simp [writtenTo, hw]
      rw [hcons, ih]
      cases e with
      | write w' r =>
          by_cases hw : w' = w
          · simp [Event.writer, Event.records, toWriter, writes, hw]
          · simp [Event.writer, toWriter, writes, hw]
      | flush w' =>
          rw [Event.writer]
          split <;> rfl
      | rotate w' =>
          rw [Event.writer]
          split <;> rfl

/-- The records on their way: what enters the channel and what comes to the loop over the writers. -/
inductive Flows (s s' : Logger ι ω) : Prop
  | enter (more : List Record) (hrecords : s'.records = s.records ++ more) (hranged : s'.ranged = s.ranged)
  | range (r : Addr) (first : Bool) (hpc : s.logWriter = .range r first) (hrecords : s'.records = s.records)
      (hranged : s'.ranged = s.ranged ++ [s.writers]) (hwriters : s'.writers = s.writers)

/-- A writer gets all records from the one on that comes first to the loop after it was registered. -/
structure Tails (since : ω → Nat) (s : Logger ι ω) : Prop where
  ranged : ∀ writers ∈ s.ranged, writers ⊆ s.writers
  since_le : ∀ w ∈ s.writers, since w ≤ s.ranged.length
  tail : ∀ w ∈ s.writers,
    toWriter w (deliveries s.ranged s.records) = (s.records.take s.ranged.length).drop (since w)

omit [DecidableEq ω] in
theorem flows_of_effect (h : Effect isFlusher s label s') : Flows s s' := by
  have hstay : s.records = s.records ++ [] := (List.append_nil _).symm
  cases h with
  | @send p r call timestamp hsend hclosed =>
      refine .enter [call.record timestamp] ?_ rfl
      exact List.map_append
  | @range r first hpc => exact .range r first hpc rfl rfl rfl
  | registerWriter w => exact .enter [] hstay rfl
  | setLevel level => exact .enter [] hstay rfl
  | filtered hlevel => exact .enter [] hstay rfl
  | deliver hlevel hidle => exact .enter [] hstay rfl
  | getNew hget => exact .enter [] hstay rfl
  | getPooled hget hpool => exact .enter [] hstay rfl
  | set timestamp f hheld hheld' hcall hfilled => exact .enter [] hstay rfl
  | drop r => exact .enter [] hstay rfl
  | receive hpc hchan => exact .enter [] hstay rfl
  | stop hpc hchan hclosed => exact .enter [] hstay rfl
  | write hpc => exact .enter [] hstay rfl
  | writeEnd hpc => exact .enter [] hstay rfl
  | put hpc => exact .enter [] hstay rfl
  | timer hbetween hbetween' hevents => exact .enter [] hstay rfl
  | close hcloser => exact .enter [] hstay rfl
  | closeReceive hcloser hc => exact .enter [] hstay rfl
  | closeFlush hcloser => exact .enter [] hstay rfl
  | closeEnd hcloser => exact .enter [] hstay rfl

omit [DecidableEq ι] [DecidableEq ω] in
theorem ranged_le (hintact : s.Intact) (hdelivered : s.Delivered) : s.ranged.length ≤ s.records.length := by
  have hdequeued := hintact.dequeued_le
  have hlength := hdelivered.length_eq
  omega

omit [DecidableEq ω] in
theorem deliveries_append {ranged : List (List ω)} {records : List Record} (h : ranged.length ≤ records.length)
    (more : List Record) : deliveries ranged (records ++ more) = deliveries ranged records := by
  induction more generalizing records with
  | nil => rw [List.append_nil]
  | cons r more ih =>
      rw [← List.singleton_append, ← List.append_assoc, ih (by rw [List.length_append]; omega), deliveries_enter h]

omit [DecidableEq ι] in
/-- A new writer has got nothing. -/
theorem toWriter_deliveries_of_new {w : ω} {ranged : List (List ω)} {records : List Record}
    (h : ∀ writers ∈ ranged, w ∉ writers) : toWriter w (deliveries ranged records) = [] := by
  rw [toWriter, List.map_eq_nil_iff, List.filter_eq_nil_iff]
  rintro ⟨w', r⟩ hmem
  obtain ⟨⟨writers, r'⟩, hzip, hmem⟩ := List.mem_flatMap.mp hmem
  obtain ⟨w'', hw'', heq⟩ := List.mem_map.mp hmem
  cases heq
  have hnot := h writers (List.of_mem_zip hzip).1
  simp only [decide_eq_true_eq]
  rintro rfl
  exact hnot hw''

/-- A writer that is registered gets the records that come to the loop from now on. -/
def sinceAfter (s : Logger ι ω) (label : Label ι ω) (since : ω → Nat) : ω → Nat :=
  label.registers.foldl (fun since w => Function.update since w s.ranged.length) since

omit [DecidableEq ι] in
theorem sinceAfter_of_not_registers {since : ω → Nat} {w : ω} (hw : w ∉ label.registers) :
    sinceAfter s label since w = since w := by
  cases label with
  | registerWriter w' => exact Function.update_of_ne (fun heq => hw (List.mem_singleton.mpr heq)) _ _
  | _ => rfl

omit [DecidableEq ι] in
theorem sinceAfter_of_mem {since : ω → Nat} {w : ω} (hw : w ∈ s.writers)
    (hnew : ∀ w ∈ label.registers, w ∉ s.writers) : sinceAfter s label since w = since w := by
  cases label with
  | registerWriter w' =>
      have hne : w ≠ w' := by
        rintro rfl
        exact hnew w (List.mem_singleton_self w) hw
      exact Function.update_of_ne hne _ _
  | _ => rfl

omit [DecidableEq ι] in
theorem sinceAfter_of_registers {since : ω → Nat} {w : ω} (hw : w ∈ label.registers) :
    sinceAfter s label since w = s.ranged.length := by
  cases label with
  | registerWriter w' =>
      obtain rfl := List.mem_singleton.mp hw
      exact Function.update_self _ _ _
  | _ => exact absurd hw List.not_mem_nil

omit [DecidableEq ι] in
theorem Tails.moves {since : ω → Nat} (h : Tails since s) (hloops : Loops s) (hintact : s.Intact)
    (hdelivered : s.Delivered) (hmoves : Moves s label s') (hflows : Flows s s')
    (hnew : ∀ w ∈ label.registers, w ∉ s.writers) : Tails (sinceAfter s label since) s' := by
  have hle := ranged_le hintact hdelivered
  have hwriters : ∀ w, w ∈ s'.writers → w ∈ s.writers ∨ w ∈ label.registers := by
    intro w hw
    rw [hmoves.writers] at hw
    exact List.mem_append.mp hw
  have hsub : s.writers ⊆ s'.writers := by
    rw [hmoves.writers]
    exact List.subset_append_left _ _
  cases hflows with
  | enter more hrecords hranged =>
      refine ⟨?_, ?_, ?_⟩
      · rw [hranged]
        exact fun writers hmem => List.Subset.trans (h.ranged writers hmem) hsub
      · intro w hw
        rw [hranged]
        rcases hwriters w hw with hold | hregistered
        · rw [sinceAfter_of_mem hold hnew]
          exact h.since_le w hold
        · rw [sinceAfter_of_registers hregistered]
      · intro w hw
        rw [hranged, hrecords, deliveries_append hle, List.take_append_of_le_length hle]
        rcases hwriters w hw with hold | hregistered
        · rw [sinceAfter_of_mem hold hnew]
          exact h.tail w hold
        · rw [sinceAfter_of_registers hregistered]
          have hnone : ∀ writers ∈ s.ranged, w ∉ writers :=
            fun writers hmem hwmem => hnew w hregistered (h.ranged writers hmem hwmem)
          rw [toWriter_deliveries_of_new hnone, List.drop_eq_nil_of_le]
          rw [List.length_take]
          exact Nat.min_le_left _ _
  | range r first hpc hrecords hranged hsame =>
      have hkept : label.registers = [] := by
        have hall := hmoves.writers
        rw [hsame] at hall
        exact List.self_eq_append_right.mp hall
      have hsince : sinceAfter s label since = since := by rw [sinceAfter, hkept, List.foldl_nil]
      -- the record that comes to the loop
      obtain ⟨n, hn, hr⟩ := hintact.current r (by rw [hpc]; rfl)
      have hlength := hdelivered.length_eq
      rw [hpc] at hlength
      replace hlength : s.dequeued.length = s.ranged.length + 1 := hlength
      obtain rfl : n = s.ranged.length := by omega
      refine ⟨?_, ?_, ?_⟩
      · intro writers hmem
        rw [hranged] at hmem
        rw [hsame]
        rcases List.mem_append.mp hmem with hold | hlast
        · exact h.ranged writers hold
        · rw [List.mem_singleton.mp hlast]
          exact List.Subset.refl _
      · intro w hw
        rw [hsame] at hw
        rw [hsince, hranged, List.length_append]
        exact Nat.le_add_right_of_le (h.since_le w hw)
      · intro w hw
        rw [hsame] at hw
        have hbound : since w ≤ (s.records.take s.ranged.length).length := by
          rw [List.length_take, Nat.min_eq_left hle]
          exact h.since_le w hw
        calc
          toWriter w (deliveries s'.ranged s'.records) =
              toWriter w (deliveries s.ranged s.records) ++ [s.heap r] := by
            rw [hranged, hrecords, deliveries_range hr, toWriter_append, toWriter_map hloops.nodup, if_pos hw]
          _ = (s.records.take s.ranged.length ++ [s.heap r]).drop (since w) := by
            rw [h.tail w hw, List.drop_append_of_le_length hbound]
          _ = _ := by
            rw [hsince, hranged, hrecords, List.length_append, List.length_singleton, List.take_add_one, hr]
            rfl

/-! ### The logger and its writers -/

/-- The logger, its writers and the clock. -/
structure Pipeline (ι ω : Type) where
  logger : Logger ι ω
  sinks : Sinks ω
  now : Hour
  /-- How many records had come to the loop over the writers when a writer was registered. -/
  since : ω → Nat := fun _ => 0

namespace Pipeline

variable (setup : ω → Writer)

/-- A step of the logger at some hour: a writer that is registered is initialised, and what the logger calls on the
writers is carried out. -/
def next (s : Pipeline ι ω) (label : Label ι ω) (now : Hour) : Option (Pipeline ι ω) := do
  let logger ← s.logger.next (isFile setup) (isFile setup) label
  let sinks ← label.registers.foldlM (Sinks.init setup · now) s.sinks
  let sinks ← (logger.events.drop s.logger.events.length).foldlM (Sinks.handle setup · now) sinks
  some { logger, sinks, now, since := sinceAfter s.logger label s.since }

/-- A new logger, some files and a clock. -/
def system (heap : Addr → Record) (fs : FileSystem) (start : Hour) :
    TransitionSystem (Pipeline ι ω) (Label ι ω × Hour) where
  start := { logger := { heap }, sinks := Sinks.start setup fs, now := start }
  step s step := s.next setup step.1 step.2

/-- `Close` comes when all producers have returned, the clock does not go back, and a writer is registered once. -/
structure Orderly (s : Pipeline ι ω) (step : Label ι ω × Hour) : Prop where
  closesLast : s.logger.ClosesLast step.1
  clock : s.now ≤ step.2
  registers : ∀ w ∈ step.1.registers, w ∉ s.logger.writers

/-- The state of a run. -/
structure Kept (fs₀ : FileSystem) (start : Hour) (s : Pipeline ι ω) : Prop where
  logger : Invariant (isFile setup) s.logger
  loops : Loops s.logger
  tails : Tails s.since s.logger
  sinks : s.sinks.Holds setup fs₀ s.logger.writers s.logger.events s.now
  begun : start ≤ s.now

variable {setup} {fs₀ : FileSystem} {start : Hour} {s : Pipeline ι ω}

omit [DecidableEq ι] in
/-- The registration of at most one writer. -/
theorem holds_registers (hready : Sinks.Ready setup fs₀ start) {writers : List ω} {events : List (Event ω)}
    {now : Hour} {sinks : Sinks ω} (h : sinks.Holds setup fs₀ writers events now) (hbegin : start ≤ now)
    (label : Label ι ω) (hnew : ∀ w ∈ label.registers, w ∉ writers) (hevents : ∀ e ∈ events, e.writer ∈ writers) :
    ∃ sinks', label.registers.foldlM (Sinks.init setup · now) sinks = some sinks' ∧
      sinks'.Holds setup fs₀ (writers ++ label.registers) events now := by
  cases label with
  | registerWriter w =>
      obtain ⟨sinks', hinit, hholds⟩ := h.init hready hbegin (hnew w (List.mem_singleton_self w)) hevents
      refine ⟨sinks', ?_, hholds⟩
      show (sinks.init setup now w).bind some = some sinks'
      rw [hinit]
      rfl
  | _ => exact ⟨sinks, rfl, (List.append_nil writers).symm ▸ h⟩

/-- The writers follow every step of the logger. -/
theorem Kept.next (hready : Sinks.Ready setup fs₀ start) (h : Kept setup fs₀ start s) {label : Label ι ω}
    {now : Hour} (horderly : Orderly s (label, now)) {logger : Logger ι ω}
    (hlogger : s.logger.next (isFile setup) (isFile setup) label = some logger) :
    ∃ s', s.next setup label now = some s' ∧ Kept setup fs₀ start s' := by
  have hmoves := moves_of_next hlogger
  have heffect := effect_of_next hlogger
  have hbegun : start ≤ now := by
    apply Hour.genCurrentFileSuffix_le.mp
    calc
      start.genCurrentFileSuffix ≤ s.now.genCurrentFileSuffix := Hour.genCurrentFileSuffix_le.mpr h.begun
      _ ≤ now.genCurrentFileSuffix := Hour.genCurrentFileSuffix_le.mpr horderly.clock
  obtain ⟨calls, hevents, hcalls⟩ := hmoves.events
  obtain ⟨sinks₁, hregister, h₁⟩ := holds_registers hready (h.sinks.advance horderly.clock) hbegun label
    horderly.registers h.loops.events
  have hregistered : ∀ e ∈ calls, e.writer ∈ s.logger.writers ++ label.registers := by
    intro e he
    apply List.mem_append_left
    exact (hcalls e he).elim (fun hleft => h.loops.logWriter.2 hleft) fun hleft => h.loops.closer hleft
  obtain ⟨sinks₂, hhandle, h₂⟩ := h₁.handleAll hready hregistered
  refine ⟨{ logger, sinks := sinks₂, now, since := sinceAfter s.logger label s.since }, ?_, ?_⟩
  · unfold Pipeline.next
    rw [hlogger, Option.bind_eq_bind, Option.bind_some, hregister, Option.bind_eq_bind, Option.bind_some, hevents,
      List.drop_left, hhandle]
    rfl
  · exact {
      logger := h.logger.effect horderly.closesLast heffect
      loops := h.loops.moves hmoves horderly.registers
      tails := h.tails.moves h.loops h.logger.intact h.logger.delivered hmoves (flows_of_effect heffect)
        horderly.registers
      sinks := by
        rw [hmoves.writers, hevents]
        exact h₂
      begun := hbegun }

/-- Of the records that came to the loop, a writer lacks one at most, and none when the goroutine is done. -/
theorem Kept.written (h : Kept setup fs₀ start s) {w : ω} (hw : w ∈ s.logger.writers) :
    ∃ late, late.length ≤ 1 ∧ (s.logger.logWriter = .done → late = []) ∧
      writtenTo s.logger.events w ++ late = (s.logger.records.take s.logger.ranged.length).drop (s.since w) := by
  have hdelivered := congrArg (toWriter w) h.logger.delivered.written
  rw [toWriter_append, ← writtenTo_eq_toWriter, h.tails.tail w hw] at hdelivered
  refine ⟨_, ?_, ?_, hdelivered⟩
  · cases hpc : s.logger.logWriter with
    | write r first writers =>
        have hnodup := h.loops.logWriter.1
        rw [hpc] at hnodup
        replace hnodup : writers.Nodup := hnodup
        rw [LogWriter.remaining, toWriter_map hnodup]
        split
        · exact Nat.le_refl 1
        · exact Nat.zero_le 1
    | _ => exact Nat.zero_le 1
  · intro hdone
    rw [hdone]
    rfl

end Pipeline

end ToyBox.Logger
