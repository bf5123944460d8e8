import ToyBox.Logger.LoggerEffect

/-! Who has a record. A record goes from the pool to a producer, into the channel, to the goroutine that
writes it and back to the pool, and no two of them ever have it. -/

namespace ToyBox.Logger

variable {ι ω : Type}

/-- Who can have a record. -/
inductive Holder (ι : Type)
  | producer (p : ι)
  | channel
  | logWriter
  | recordPool

def Holds (s : Logger ι ω) : Holder ι → Addr → Prop
  | .producer p, r => (s.producers p).held = some r
  | .channel, r => r ∈ s.recordChan
  | .logWriter, r => s.logWriter.held = some r
  | .recordPool, r => r ∈ s.recordPool

/-- A record has one holder, which has it once. -/
structure Exclusive (s : Logger ι ω) : Prop where
  unique : ∀ holder holder' r, s.Holds holder r → s.Holds holder' r → holder = holder'
  chan_nodup : s.recordChan.Nodup
  pool_nodup : s.recordPool.Nodup
  allocated : ∀ holder r, s.Holds holder r → r < s.nextAddr

variable {s s' : Logger ι ω}

namespace Exclusive

/-- A step that moves no record. -/
theorem of_holds (h : Exclusive s) (hholds : ∀ holder r, s'.Holds holder r → s.Holds holder r)
    (hchan : s'.recordChan = s.recordChan) (hpool : s'.recordPool.Sublist s.recordPool)
    (hnext : s'.nextAddr = s.nextAddr) : Exclusive s' where
  unique _ _ _ hr hr' := h.unique _ _ _ (hholds _ _ hr) (hholds _ _ hr')
  chan_nodup := hchan ▸ h.chan_nodup
  pool_nodup := hpool.nodup h.pool_nodup
  allocated _ _ hr := hnext ▸ h.allocated _ _ (hholds _ _ hr)

/-- A step that moves one record, which nobody else has. -/
theorem of_move (h : Exclusive s) (holder : Holder ι) (r : Addr)
    (hmove : ∀ holder' r', s'.Holds holder' r' →
      holder' = holder ∧ r' = r ∨ s.Holds holder' r' ∧ r' ≠ r)
    (hchan : s'.recordChan.Nodup) (hpool : s'.recordPool.Nodup)
    (hnext : s.nextAddr ≤ s'.nextAddr) (hr : r < s'.nextAddr) : Exclusive s' where
  unique a b r' ha hb := by
    rcases hmove a r' ha with ⟨rfl, rfl⟩ | ⟨ha, hne⟩
    · rcases hmove b _ hb with ⟨rfl, _⟩ | ⟨_, hne⟩
      · rfl
      · exact absurd rfl hne
    · rcases hmove b r' hb with ⟨_, heq⟩ | ⟨hb, _⟩
      · exact absurd heq hne
      · exact h.unique a b r' ha hb
  chan_nodup := hchan
  pool_nodup := hpool
  allocated a r' ha := by
    rcases hmove a r' ha with ⟨_, rfl⟩ | ⟨ha, _⟩
    · exact hr
    · exact Nat.lt_of_lt_of_le (h.allocated a r' ha) hnext

theorem receive (h : Exclusive s) {r : Addr} {rest : List Addr} (hchan : s.recordChan = r :: rest)
    {pc : LogWriter ω} (hheld : pc.held = some r) (dequeued : List (List ω)) :
    Exclusive { s with recordChan := rest, logWriter := pc, dequeued } := by
  have hmem : s.Holds .channel r := by
    show r ∈ s.recordChan
    rw [hchan]
    exact List.mem_cons_self
  obtain ⟨hr, hrest⟩ := List.nodup_cons.mp (hchan ▸ h.chan_nodup)
  refine h.of_move .logWriter r (fun holder r' hr' => ?_) hrest h.pool_nodup
    (Nat.le_refl _) (h.allocated _ _ hmem)
  have hother (hne : holder ≠ .channel) (hr' : s.Holds holder r') :
      s.Holds holder r' ∧ r' ≠ r :=
    ⟨hr', fun heq => hne (h.unique _ _ _ hr' (heq ▸ hmem))⟩
  cases holder with
  | producer q => exact .inr (hother nofun hr')
  | channel =>
      refine .inr ⟨?_, fun heq => hr (heq ▸ hr')⟩
      show r' ∈ s.recordChan
      rw [hchan]
      exact List.mem_cons_of_mem _ hr'
  | logWriter => exact .inl ⟨rfl, Option.some.inj (hr'.symm.trans hheld)⟩
  | recordPool => exact .inr (hother nofun hr')

theorem put (h : Exclusive s) {r : Addr} (hheld : s.logWriter.held = some r) :
    Exclusive { s with logWriter := .select, recordPool := r :: s.recordPool } := by
  have hpool : r ∉ s.recordPool := fun hmem =>
    nomatch h.unique .logWriter .recordPool r hheld hmem
  refine h.of_move .recordPool r (fun holder r' hr => ?_) h.chan_nodup
    (List.nodup_cons.mpr ⟨hpool, h.pool_nodup⟩) (Nat.le_refl _)
    (h.allocated .logWriter r hheld)
  have hother (hne : holder ≠ .logWriter) (hr : s.Holds holder r') :
      s.Holds holder r' ∧ r' ≠ r :=
    ⟨hr, fun heq => hne (h.unique _ _ _ hr (heq ▸ hheld))⟩
  cases holder with
  | producer q => exact .inr (hother nofun hr)
  | channel => exact .inr (hother nofun hr)
  | logWriter => cases hr
  | recordPool =>
      rcases List.mem_cons.mp hr with hr | hr
      · exact .inl ⟨rfl, hr⟩
      · exact .inr (hother nofun hr)

/-- The goroutine goes on with its record, or gives it up. -/
theorem setLogWriter (h : Exclusive s) (pc : LogWriter ω)
    (hheld : ∀ r, pc.held = some r → s.logWriter.held = some r)
    (ranged : List (List ω)) (events : List (Event ω)) :
    Exclusive { s with logWriter := pc, ranged, events } := by
  refine h.of_holds (fun holder r hr => ?_) rfl (List.Sublist.refl _) rfl
  cases holder with
  | producer q => exact hr
  | channel => exact hr
  | logWriter => exact hheld r hr
  | recordPool => exact hr

theorem drop (h : Exclusive s) (r : Addr) :
    Exclusive { s with recordPool := s.recordPool.erase r } := by
  refine h.of_holds (fun holder r' hr => ?_) rfl List.erase_sublist rfl
  cases holder with
  | producer q => exact hr
  | channel => exact hr
  | logWriter => exact hr
  | recordPool => exact List.mem_of_mem_erase hr

/-- What the invariant does not speak of. -/
theorem congr {t : Logger ι ω} (h : Exclusive s) (hproducers : t.producers = s.producers := by rfl)
    (hchan : t.recordChan = s.recordChan := by rfl) (hpc : t.logWriter = s.logWriter := by rfl)
    (hpool : t.recordPool = s.recordPool := by rfl) (hnext : t.nextAddr = s.nextAddr := by rfl) :
    Exclusive t := by
  refine h.of_holds (fun holder r hr => ?_) hchan (hpool ▸ List.Sublist.refl _) hnext
  cases holder with
  | producer p => simpa only [Holds, hproducers] using hr
  | channel => simpa only [Holds, hchan] using hr
  | logWriter => simpa only [Holds, hpc] using hr
  | recordPool => simpa only [Holds, hpool] using hr

end Exclusive

variable [DecidableEq ι]

/-- What a producer has after one of them has gone on. -/
theorem held_update {producers : ι → Producer} {p q : ι} {pc : Producer} {r : Addr}
    (h : (Function.update producers p pc q).held = some r) :
    q = p ∧ pc.held = some r ∨ q ≠ p ∧ (producers q).held = some r := by
  by_cases hq : q = p
  · rw [hq, Function.update_self] at h
    exact .inl ⟨hq, h⟩
  · rw [Function.update_of_ne hq] at h
    exact .inr ⟨hq, h⟩

namespace Exclusive

/-- A producer that goes on with the record it has, if any, moves none. -/
theorem setProducer (h : Exclusive s) (p : ι) (pc : Producer)
    (hheld : pc.held = (s.producers p).held) : Exclusive (s.setProducer p pc) := by
  refine h.of_holds (fun holder r hr => ?_) rfl (List.Sublist.refl _) rfl
  cases holder with
  | producer q =>
      rcases held_update hr with ⟨rfl, hpc⟩ | ⟨_, hpc⟩
      · exact hheld.symm.trans hpc
      · exact hpc
  | channel => exact hr
  | logWriter => exact hr
  | recordPool => exact hr

theorem getNew (h : Exclusive s) {p : ι} {pc : Producer} (hheld : pc.held = some s.nextAddr)
    (heap : Addr → Record) :
    Exclusive { s.setProducer p pc with heap, nextAddr := s.nextAddr + 1 } := by
  refine h.of_move (.producer p) s.nextAddr (fun holder r hr => ?_)
    h.chan_nodup h.pool_nodup (Nat.le_succ _) (Nat.lt_succ_self _)
  have hnew (hr : s.Holds holder r) : s.Holds holder r ∧ r ≠ s.nextAddr :=
    ⟨hr, Nat.ne_of_lt (h.allocated _ _ hr)⟩
  cases holder with
  | producer q =>
      rcases held_update hr with ⟨rfl, hpc⟩ | ⟨_, hpc⟩
      · exact .inl ⟨rfl, Option.some.inj (hpc.symm.trans hheld)⟩
      · exact .inr (hnew hpc)
  | channel => exact .inr (hnew hr)
  | logWriter => exact .inr (hnew hr)
  | recordPool => exact .inr (hnew hr)

theorem getPooled (h : Exclusive s) {p : ι} {pc : Producer} {r : Addr} (hheld : pc.held = some r)
    (hpool : r ∈ s.recordPool) :
    Exclusive { s.setProducer p pc with recordPool := s.recordPool.erase r } := by
  refine h.of_move (.producer p) r (fun holder r' hr => ?_)
    h.chan_nodup (h.pool_nodup.erase r) (Nat.le_refl _) (h.allocated .recordPool r hpool)
  have hother (hne : holder ≠ .recordPool) (hr : s.Holds holder r') :
      s.Holds holder r' ∧ r' ≠ r :=
    ⟨hr, fun heq => hne (h.unique _ _ _ hr (heq ▸ hpool))⟩
  cases holder with
  | producer q =>
      rcases held_update hr with ⟨rfl, hpc⟩ | ⟨_, hpc⟩
      · exact .inl ⟨rfl, Option.some.inj (hpc.symm.trans hheld)⟩
      · exact .inr (hother nofun hpc)
  | channel => exact .inr (hother nofun hr)
  | logWriter => exact .inr (hother nofun hr)
  | recordPool =>
      obtain ⟨hne, hmem⟩ := h.pool_nodup.mem_erase_iff.mp hr
      exact .inr ⟨hmem, hne⟩

theorem send (h : Exclusive s) {p : ι} {r : Addr} (hheld : (s.producers p).held = some r)
    (entered : List (ι × Record)) :
    Exclusive { s.setProducer p .idle with recordChan := s.recordChan ++ [r], entered } := by
  have hchan : r ∉ s.recordChan := fun hmem =>
    nomatch h.unique (.producer p) .channel r hheld hmem
  refine h.of_move .channel r (fun holder r' hr => ?_) ?_ h.pool_nodup
    (Nat.le_refl _) (h.allocated (.producer p) r hheld)
  · have hother (hne : holder ≠ .producer p) (hr : s.Holds holder r') :
        s.Holds holder r' ∧ r' ≠ r :=
      ⟨hr, fun heq => hne (h.unique _ _ _ hr (heq ▸ hheld))⟩
    cases holder with
    | producer q =>
        rcases held_update hr with ⟨_, hpc⟩ | ⟨hne, hpc⟩
        · cases hpc
        · exact .inr (hother (fun heq => hne (Holder.producer.inj heq)) hpc)
    | channel =>
        rcases List.mem_append.mp hr with hr | hr
        · exact .inr (hother nofun hr)
        · exact .inl ⟨rfl, List.mem_singleton.mp hr⟩
    | logWriter => exact .inr (hother nofun hr)
    | recordPool => exact .inr (hother nofun hr)
  · exact List.nodup_append.mpr ⟨h.chan_nodup, List.pairwise_singleton _ r, fun a ha b hb heq =>
      hchan (List.mem_singleton.mp hb ▸ heq ▸ ha)⟩

theorem effect {isFlusher : ω → Bool} {label : Label ι ω} (h : Exclusive s)
    (he : Effect isFlusher s label s') : Exclusive s' := by
  cases he with
  | registerWriter w => exact h.congr
  | setLevel level => exact h.congr
  | filtered hlevel => exact h.congr
  | @deliver p call hlevel hidle => exact (h.setProducer p (.get call) (by rw [hidle]; rfl)).congr
  | getNew hget => exact h.getNew rfl _
  | getPooled hget hpool => exact h.getPooled rfl hpool
  | @set p r pc timestamp f hheld hheld' hcall hfilled =>
      exact (h.setProducer p pc (hheld'.trans hheld.symm)).congr
  | send hsend hclosed => exact h.send (by rw [hsend]; rfl) _
  | drop r => exact h.drop r
  | receive hpc hchan => exact h.receive hchan rfl _
  | stop hpc hchan hclosed =>
      exact (h.setLogWriter .done nofun s.ranged s.events).congr
  | range hpc => exact h.setLogWriter _ (fun r hr => by rw [hpc]; exact hr) _ _
  | write hpc => exact h.setLogWriter _ (fun r hr => by rw [hpc]; exact hr) _ _
  | @writeEnd r first hpc =>
      refine h.setLogWriter _ (fun r' hr => ?_) _ _
      cases first with
      | true => cases hr
      | false => rw [hpc]; exact hr
  | put hpc => exact h.put (by rw [hpc]; rfl)
  | timer hbetween hbetween' hevents =>
      refine h.setLogWriter _ (fun r hr => ?_) _ _
      rw [hbetween'.held] at hr
      cases hr
  | close hcloser => exact h.congr
  | closeReceive hcloser hc => exact h.congr
  | closeFlush hcloser => exact h.congr
  | closeEnd hcloser => exact h.congr

end Exclusive

end ToyBox.Logger
