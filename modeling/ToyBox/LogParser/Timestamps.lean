import ToyBox.LogParser.Classify
import ToyBox.LogParser.Typed

/-! The order of a timestamp column. A timestamp is ten digits, the first of them not zero, after white space,
a plus sign and zeros in any number. The column is sorted by the bytes, so that this padding counts first, and
only among cells that are padded alike the numbers. -/

namespace ToyBox.LogParser

open Cxx Checked

/-- The bytes that can stand before the ten digits of a timestamp. -/
def isPadding (b : UInt8) : Bool := isSpace b || b == 43 || b == 48

/-- What stands before the ten digits, and the ten digits. -/
def padding (cell : Cell) : Bytes := cell.takeWhile isPadding
def significant (cell : Cell) : Bytes := cell.dropWhile isPadding

/-- The value `strtol` reads and the range test uses. -/
def timestampOf (cell : Cell) : Int := (strtol cell).1

def timestampLe (a b : Cell) : Prop := timestampOf a ≤ timestampOf b

instance (a b : Cell) : Decidable (timestampLe a b) := inferInstanceAs (Decidable (_ ≤ _))

/-- The padding of one cell comes before that of another, byte by byte; one that goes on comes before one
that has ended, since a digit that is not zero follows it. -/
def PaddingBefore (a b : Cell) : Prop := padding a ++ ascii "1" < padding b ++ ascii "1"

/-- `Sort` lists the rows by their timestamps, and the metrics are the earliest and the latest cell of the column. -/
def TimestampsSorted (p : LogParser) (colName : Bytes) (colIdx : Nat) : Prop :=
  (∃ rows, Listing p colName colIdx timestampLe rows) ∧ BetweenMinMax p colName colIdx timestampLe

/-- Of two cells that are padded differently, the one whose padding comes first is not later. -/
def PaddingAgrees (p : LogParser) (colIdx : Nat) : Prop :=
  ∀ row ∈ p.rawContent, ∀ row' ∈ p.rawContent, ∀ cell cell', row[colIdx]? = some cell →
    row'[colIdx]? = some cell' → PaddingBefore cell cell' → timestampLe cell cell'

/-! ### The parts of a timestamp -/

theorem toNat_of_isPadding {b : UInt8} (h : isPadding b) : b.toNat ≤ 48 := by
  simp only [isPadding, isSpace, Bool.or_eq_true, Bool.and_eq_true, beq_iff_eq, decide_eq_true_eq,
    UInt8.le_iff_toNat_le] at h
  rcases h with ((rfl | ⟨-, hle⟩) | rfl) | rfl
  · decide
  · exact hle.trans (by decide)
  · decide
  · decide

/-- A digit that is no padding is not zero. -/
theorem toNat_of_not_isPadding {b : UInt8} (hdigit : isDigit b) (h : isPadding b = false) : 49 ≤ b.toNat := by
  have hne : b ≠ 48 := by
    rintro rfl
    cases h
  have hne : b.toNat ≠ 48 := fun heq => hne (UInt8.toNat_inj.mp heq)
  rw [isDigit_iff] at hdigit
  omega

theorem not_isPadding_of_dropWhile {cell ds : Bytes} {d : UInt8} (h : cell.dropWhile isPadding = d :: ds) :
    isPadding d = false := by
  have hhead := List.head?_dropWhile_not isPadding cell
  rwa [h] at hhead

/-- Zeros add nothing to a number. -/
theorem digitsValue_zeros {zeros : Bytes} (h : ∀ b ∈ zeros, b = 48) : digitsValue 10 zeros = 0 := by
  rw [List.eq_replicate_of_mem h]
  induction zeros.length with
  | zero => rfl
  | succ n ih => rw [List.replicate_succ, digitsValue_cons, ih]; simp [digitValue, isDigit]

/-- A number between two powers of ten has a fixed count of digits after its zeros. -/
theorem length_of_digitsValue {d : UInt8} {ds : Bytes} {n : Nat} (hdigits : ∀ b ∈ d :: ds, isDigit b)
    (hd : 49 ≤ d.toNat) (hlow : 10 ^ n ≤ digitsValue 10 (d :: ds)) (hhigh : digitsValue 10 (d :: ds) < 10 ^ (n + 1)) :
    (d :: ds).length = n + 1 := by
  have hlt := digitsValue_lt hdigits
  have hge : 10 ^ ds.length ≤ digitsValue 10 (d :: ds) := by
    have hone : 1 ≤ digitValue d := by
      rw [digitValue_of_isDigit (hdigits d List.mem_cons_self)]
      omega
    rw [digitsValue_cons]
    exact (Nat.le_mul_of_pos_left _ hone).trans (Nat.le_add_right _ _)
  have hn := (Nat.pow_lt_pow_iff_right (by norm_num)).mp (hlow.trans_lt hlt)
  have hds := (Nat.pow_lt_pow_iff_right (by norm_num)).mp (hge.trans_lt hhigh)
  rw [List.length_cons] at hn ⊢
  omega

/-- A cell of ten significant digits after its padding. -/
structure IsTimestamp (cell : Cell) : Prop where
  length : (significant cell).length = 10
  isDigit_of_mem : ∀ b ∈ significant cell, isDigit b
  timestampOf_eq : timestampOf cell = digitsValue 10 (significant cell)

/-- A literal in the range of the timestamps is ten digits after padding. -/
theorem isTimestamp_text (l : IntegerLiteral) (hlow : kMinTimestamp ≤ l.value) (hhigh : l.value ≤ kMaxTimestamp) :
    IsTimestamp l.text := by
  rw [kMinTimestamp] at hlow
  rw [kMaxTimestamp] at hhigh
  have hplus : l.sign ≠ [45] := by
    intro hminus
    rw [IntegerLiteral.value, if_pos hminus] at hlow
    omega
  have hvalue : l.value = digitsValue 10 l.digits := if_neg hplus
  have hsign : ∀ b ∈ l.sign, isPadding b := by
    rcases l.sign_eq with hsign | hsign | hsign
    · rw [hsign]
      exact fun b hb => absurd hb List.not_mem_nil
    · rw [hsign]
      exact List.all_eq_true.mp rfl
    · exact absurd hsign hplus
  have hspace : ∀ b ∈ l.space, isPadding b := fun b hb => by
    rw [isPadding, l.isSpace_of_mem b hb]
    rfl
  have hsig : significant l.text = l.digits.dropWhile isPadding := by
    rw [significant, IntegerLiteral.text, List.dropWhile_append_of_pos hspace,
      List.dropWhile_append_of_pos hsign]
  have hsplit : l.digits.takeWhile isPadding ++ l.digits.dropWhile isPadding = l.digits :=
    List.takeWhile_append_dropWhile
  have hzeros : ∀ b ∈ l.digits.takeWhile isPadding, b = 48 := by
    intro b hb
    have hle := toNat_of_isPadding (List.mem_takeWhile_imp hb)
    have hdigit := isDigit_iff.mp (l.isDigit_of_mem b (List.takeWhile_subset _ hb))
    exact UInt8.toNat_inj.mp (by show b.toNat = 48; omega)
  have hdigits : ∀ b ∈ l.digits.dropWhile isPadding, isDigit b :=
    fun b hb => l.isDigit_of_mem b ((List.dropWhile_sublist _).subset hb)
  have hsum : digitsValue 10 l.digits = digitsValue 10 (l.digits.dropWhile isPadding) := by
    conv_lhs => rw [← hsplit]
    rw [digitsValue_append, digitsValue_zeros hzeros, Nat.zero_mul, Nat.zero_add]
  have htimestamp : timestampOf l.text = digitsValue 10 (significant l.text) := by
    rw [timestampOf, l.strtol_text, hsig, ← hsum, ← hvalue, kLongMin, kLongMax]
    omega
  rw [hvalue, hsum] at hlow hhigh
  refine ⟨?_, hsig ▸ hdigits, htimestamp⟩
  rw [hsig]
  cases hcases : l.digits.dropWhile isPadding with
  | nil =>
      rw [hcases, digitsValue_nil] at hlow
      omega
  | cons d ds =>
      have hpad := not_isPadding_of_dropWhile hcases
      rw [hcases] at hdigits hlow hhigh
      exact length_of_digitsValue hdigits (toNat_of_not_isPadding (hdigits d List.mem_cons_self) hpad)
        (by omega) (by omega)

/-- The cells of type `kTimestamp`. -/
theorem isTimestamp_of_type {cell : Cell} (h : parseColumnDataType cell = .kTimestamp) : IsTimestamp cell := by
  rcases (parseColumnDataType_mem_iff cell).mp (by rw [h]; decide) with rfl | ⟨l, rfl⟩
  · exact absurd h (by decide)
  · rw [parseColumnDataType_text, literalType] at h
    split at h
    case isTrue hrange => exact isTimestamp_text l hrange.1 hrange.2
    case isFalse => split at h <;> cases h

/-! ### The byte order -/

/-- Strings of padding with something greater behind it are compared by the padding first. -/
theorem append_lt_append_iff {pa pb : Bytes} {x y : UInt8} (xs ys : Bytes) (hpa : ∀ b ∈ pa, b.toNat ≤ 48)
    (hpb : ∀ b ∈ pb, b.toNat ≤ 48) (hx : 49 ≤ x.toNat) (hy : 49 ≤ y.toNat) :
    pa ++ x :: xs < pb ++ y :: ys ↔
      pa = pb ∧ x :: xs < y :: ys ∨ pa ++ ascii "1" < pb ++ ascii "1" := by
  have hone : ascii "1" = [49] := rfl
  rw [hone]
  induction pa generalizing pb with
  | nil =>
      cases pb with
      | nil => simp
      | cons b pb =>
          have hb := hpb b List.mem_cons_self
          have hxb : ¬x < b ∧ x ≠ b := by
            rw [UInt8.lt_iff_toNat_lt, ← UInt8.toNat_inj.ne]
            omega
          have h49 : ¬(49 : UInt8) < b ∧ (49 : UInt8) ≠ b := by
            rw [UInt8.lt_iff_toNat_lt, ← UInt8.toNat_inj.ne]
            show ¬49 < b.toNat ∧ 49 ≠ b.toNat
            omega
          simp [List.cons_lt_cons_iff, hxb, h49]
  | cons a pa ih =>
      obtain ⟨ha, hpa⟩ := List.forall_mem_cons.mp hpa
      cases pb with
      | nil =>
          have hay : a < y := by
            rw [UInt8.lt_iff_toNat_lt]
            omega
          have h49 : a < 49 := by
            rw [UInt8.lt_iff_toNat_lt]
            show a.toNat < 49
            omega
          simp [List.cons_lt_cons_iff, hay, h49]
      | cons b pb =>
          obtain ⟨hb, hpb⟩ := List.forall_mem_cons.mp hpb
          have htail := ih hpa hpb
          simp only [List.cons_append, List.cons_lt_cons_iff, List.cons.injEq] at htail ⊢
          tauto

/-- The byte order of two timestamps: by padding, and among equal paddings by the numbers. -/
theorem timestamp_lt_iff {a b : Cell} (ha : IsTimestamp a) (hb : IsTimestamp b) :
    a < b ↔ padding a = padding b ∧ timestampOf a < timestampOf b ∨ PaddingBefore a b := by
  have hpad : ∀ cell : Cell, ∀ c ∈ padding cell, c.toNat ≤ 48 :=
    fun cell c hc => toNat_of_isPadding (List.mem_takeWhile_imp hc)
  have hsig : ∀ {cell : Cell}, IsTimestamp cell → ∃ d ds, significant cell = d :: ds ∧ 49 ≤ d.toNat := by
    intro cell hcell
    obtain ⟨d, ds, hcons⟩ := List.exists_cons_of_length_eq_add_one hcell.length
    have hnot := not_isPadding_of_dropWhile hcons
    exact ⟨d, ds, hcons, toNat_of_not_isPadding (hcell.isDigit_of_mem d (hcons ▸ List.mem_cons_self)) hnot⟩
  have hcut : ∀ cell : Cell, padding cell ++ significant cell = cell :=
    fun cell => List.takeWhile_append_dropWhile
  obtain ⟨x, xs, hxs, hx⟩ := hsig ha
  obtain ⟨y, ys, hys, hy⟩ := hsig hb
  have hvalue : x :: xs < y :: ys ↔ timestampOf a < timestampOf b := by
    rw [← hxs, ← hys, lt_iff_digitsValue_lt ha.isDigit_of_mem hb.isDigit_of_mem (ha.length.trans hb.length.symm),
      ha.timestampOf_eq, hb.timestampOf_eq, Int.ofNat_lt]
  have horder := append_lt_append_iff xs ys (hpad a) (hpad b) hx hy
  rw [← hxs, ← hys, hcut, hcut, hxs, hys, hvalue] at horder
  exact horder

/-! ### The column -/

section Column

variable {p : LogParser} {colName : Bytes} {colIdx : Nat}

variable (htyped : ∀ row ∈ p.rawContent, ∀ cell, row[colIdx]? = some cell → IsTimestamp cell)
  {rows : List Row} (hrows : Listing p colName colIdx (· ≤ ·) rows) (hrowCnt : p.rowCnt = p.rawContent.length)
  (hwide : ∀ row ∈ p.rawContent, ∃ cell, row[colIdx]? = some cell)

include htyped hrows hrowCnt hwide in
/-- If the padding agrees, what is in byte order is in the order of the timestamps. -/
theorem timestampsSorted_of_agrees (hagrees : PaddingAgrees p colIdx) : TimestampsSorted p colName colIdx := by
  have hlisting : Listing p colName colIdx timestampLe rows := by
    refine hrows.imp fun row hrow row' hrow' cell cell' hcell hcell' hle => ?_
    have ha := htyped row hrow cell hcell
    have hb := htyped row' hrow' cell' hcell'
    by_cases heq : cell = cell'
    · rw [heq]
      exact Int.le_refl _
    · have hlt : cell < cell' := by
        by_contra hge
        exact heq (List.le_antisymm hle (List.not_lt.mp hge))
      rcases (timestamp_lt_iff ha hb).mp hlt with ⟨-, hvalue⟩ | hbefore
      · exact Int.le_of_lt hvalue
      · exact hagrees row hrow row' hrow' cell cell' hcell hcell' hbefore
  refine ⟨⟨rows, hlisting⟩, hlisting.between (fun row hrow => ?_) hrowCnt⟩
  obtain ⟨cell, hcell⟩ := hwide row hrow
  exact ⟨cell, cell, hcell, hcell, Int.le_refl _⟩

include htyped hrows hrowCnt in
/-- If the listing is in the order of the timestamps, the padding agrees. -/
theorem agrees_of_timestampsSorted (hsorted : TimestampsSorted p colName colIdx) : PaddingAgrees p colIdx := by
  obtain ⟨⟨listed, hlisted⟩, -⟩ := hsorted
  -- without a limit `Sort` lists all rows, so there is one listing only
  have hall : ∀ {le : Cell → Cell → Prop} {rows : List Row}, Listing p colName colIdx le rows →
      p.sort colName (-1) true false = .ok (some rows) := by
    intro le rows h
    have htake : rows.take (limitedCnt (-1) p.rowCnt) = rows := by
      apply List.take_of_length_le
      rw [limitedCnt, if_pos (by omega), h.perm.length_eq, hrowCnt]
    rw [h.ascending (-1) false (by omega) (by omega), htake]
    rfl
  obtain rfl : rows = listed := Option.some.inj (Except.ok.inj ((hall hrows).symm.trans (hall hlisted)))
  have hvalues := hlisted.ordered
  intro row hrow row' hrow' cell cell' hcell hcell' hbefore
  have hlt : cell < cell' :=
    (timestamp_lt_iff (htyped row hrow cell hcell) (htyped row' hrow' cell' hcell')).mpr (Or.inr hbefore)
  obtain ⟨i, hi⟩ := List.getElem?_of_mem (hrows.perm.symm.subset hrow)
  obtain ⟨j, hj⟩ := List.getElem?_of_mem (hrows.perm.symm.subset hrow')
  obtain ⟨hi', rfl⟩ := List.getElem?_eq_some_iff.mp hi
  obtain ⟨hj', rfl⟩ := List.getElem?_eq_some_iff.mp hj
  -- the smaller cell is listed first
  have hij : i < j := by
    rcases Nat.lt_trichotomy i j with hij | rfl | hji
    · exact hij
    · rw [hcell] at hcell'
      cases hcell'
      exact absurd hlt (List.lt_irrefl cell)
    · obtain ⟨c, d, hc, hd, hle⟩ := List.pairwise_iff_getElem.mp hrows.ordered j i hj' hi' hji
      cases hcell'.symm.trans hc
      cases hcell.symm.trans hd
      exact absurd hlt (List.not_lt.mpr hle)
  obtain ⟨c, d, hc, hd, hle⟩ := List.pairwise_iff_getElem.mp hvalues i j hi' hj' hij
  cases hcell.symm.trans hc
  cases hcell'.symm.trans hd
  exact hle

end Column

/-- A timestamp column is listed by its timestamps exactly if its padding agrees. -/
theorem timestampsSorted_iff {std : StdSort} {files : Files} {p₀ p : LogParser} {colName : Bytes} {colIdx : Nat}
    (hreached : Reached std p₀) (hparse : p₀.parse std files = .ok (true, p))
    (hname : p.colName2colIdx.lookup colName = some colIdx) (hcol : colIdx < p.colCnt)
    (htype : p.colIdx2colDataType.lookup colIdx = some .kTimestamp) (hsize : p.rowCnt < 2 ^ 63) :
    TimestampsSorted p colName colIdx ↔ PaddingAgrees p colIdx := by
  have hstored := parse_stored hparse
  have hrowsTyped := parse_typed hreached hparse
  have hwide : ∀ row ∈ p.rawContent, ∃ cell, row[colIdx]? = some cell := fun row hrow => by
    obtain ⟨cell, hcell, -⟩ := hrowsTyped row hrow colIdx hcol
    exact ⟨cell, hcell⟩
  have htyped : ∀ row ∈ p.rawContent, ∀ cell, row[colIdx]? = some cell → IsTimestamp cell := by
    intro row hrow cell hcell
    obtain ⟨cell', hcell', hlookup⟩ := hrowsTyped row hrow colIdx hcol
    cases hcell.symm.trans hcell'
    exact isTimestamp_of_type (Option.some.inj (htype.symm.trans hlookup)).symm
  obtain ⟨rows, hrows⟩ := hstored.exists_listing hname hcol htype hsize fun cells _ =>
    strictWeakOrder_cellLess (by decide) cells
  have hrows : Listing p colName colIdx (· ≤ ·) rows :=
    hrows.imp fun _ _ _ _ cell cell' _ _ hle => (cellLess_eq_false_iff (by decide) cell cell').mp hle
  exact ⟨agrees_of_timestampsSorted htyped hrows hstored.rowCnt,
    timestampsSorted_of_agrees htyped hrows hstored.rowCnt hwide⟩

/-- A later timestamp with a plus sign, and an earlier one without. -/
def signedTimestamp : Files := fun _ => some (ascii "t\n1673503906\n+1673503907\n")

/-- The minimum of the column is the later of its two timestamps. -/
theorem not_timestampsSorted_signedTimestamp :
    ∃ p, (ofFile (ascii "log")).parse .insertion signedTimestamp = .ok (true, p) ∧
      p.colName2colIdx.lookup (ascii "t") = some 0 ∧ p.colIdx2colDataType.lookup 0 = some .kTimestamp ∧
      p.rowCnt = 2 ∧ ¬TimestampsSorted p (ascii "t") 0 := by
  refine ⟨_, rfl, rfl, rfl, rfl, fun hsorted => ?_⟩
  obtain ⟨minCell, maxCell, hmin, -, -, -, hcells⟩ := hsorted.2
  obtain ⟨cell, hcell, hle, -⟩ := hcells [ascii "1673503906"] (by decide)
  obtain rfl : ascii "1673503906" = cell := Option.some.inj hcell
  obtain rfl : ascii "+1673503907" = minCell := Option.some.inj (Except.ok.inj hmin)
  revert hle
  decide

theorem timestampsSorted_iff_signedTimestamp :
    ∃ p, (ofFile (ascii "log")).parse .insertion signedTimestamp = .ok (true, p) ∧
      (TimestampsSorted p (ascii "t") 0 ↔ PaddingAgrees p 0) :=
  ⟨_, rfl, timestampsSorted_iff (.ofFile (ascii "log"))
    (show (ofFile (ascii "log")).parse .insertion signedTimestamp = .ok (true, _) from rfl)
    (by decide) (by decide) (by decide) (by decide)⟩

end ToyBox.LogParser
