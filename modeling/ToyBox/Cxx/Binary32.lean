import Mathlib
import ToyBox.Library.Rounding
import ToyBox.Cxx.Number

/-! The `float` of the models, against the rational numbers. `Float32` computes on packed bits; here its
values are rationals, comparison is comparison of the values, and division rounds the exact quotient to the
nearest value, ties to even. An infinity counts as the power of two above all finite values. -/

namespace ToyBox.Cxx

open Float.Model (Format UnpackedFloat)
open Float.Model.UnpackedFloat Rounding

/-- The format of `float`, without its largest exponent. -/
def binary32 : BinaryFormat where
  precision := 24
  minExponent := -149
  precision_pos := by decide

/-- The power of two above the finite values. -/
def overflow : ℚ := 2 ^ 128

/-- A rational rounded to a `float`. -/
def toBinary32 (x : ℚ) : ℚ :=
  if x < 0 then -min (binary32.roundMagnitude (-x)) overflow else min (binary32.roundMagnitude x) overflow

/-! ### Values -/

def signed (s : Sign) (x : ℚ) : ℚ :=
  match s with
  | .positive => x
  | .negative => -x

/-- The value of an unpacked number; that of no number does not matter. -/
def unpackedValue : UnpackedFloat → ℚ
  | .notANumber => 0
  | .infinity s => signed s overflow
  | .zero _ => 0
  | .finite s m e _ => signed s (m * 2 ^ e)

/-- The mantissa and the exponent of a rounded value, whose exponent may still be too large. -/
def IsRounded (m : ℕ) (e : ℤ) : Prop := m < 2 ^ 24 ∧ -149 ≤ e ∧ (2 ^ 23 ≤ m ∨ e = -149)

/-- A number as it is packed: rounded, and below the overflow. -/
def Canonical : UnpackedFloat → Prop
  | .notANumber => False
  | .infinity _ => True
  | .zero _ => True
  | .finite _ m e _ => IsRounded m e ∧ e ≤ 104

/-- The value of a `float`. -/
def value (x : Float32) : ℚ := unpackedValue x.toModel.unpack

/-- A `float` that is not NaN. -/
def IsNumber (x : Float32) : Prop := Canonical x.toModel.unpack

/-! ### Packing -/

theorem minExponent_binary32 : Format.binary32.minExponent = -149 := by decide
theorem mantissaBits_binary32 : Format.binary32.mantissaBits = 24 := rfl

theorem sign_ofBitVec_toBitVec (s : Sign) : Sign.ofBitVec s.toBitVec = s := by
  cases s <;> rfl

theorem unpackSign_packComponents (s : Sign) (exponent : BitVec 8) (mantissa : BitVec 23) :
    unpackSign (packComponents .binary32 s exponent mantissa) = s.toBitVec := by
  show (s.toBitVec ++ exponent ++ mantissa).extractLsb' 31 1 = s.toBitVec
  rw [BitVec.extractLsb'_append_eq_of_le (by decide), BitVec.extractLsb'_append_eq_of_le (by decide)]
  cases s <;> rfl

/-- Unpacking what was packed of a sign, an exponent and a mantissa. -/
theorem unpack_packComponents (s : Sign) (exponent : BitVec 8) (mantissa : BitVec 23) :
    unpack .binary32 (packComponents .binary32 s exponent mantissa) =
      if exponent = -1#8 then if mantissa = 0#23 then .infinity s else .notANumber
      else if exponent = 0#8 then
        if h : mantissa = 0#23 then .zero s
        else .finite s mantissa.toNat (exponent.toNat - 150 + 1)
          (by simpa [BitVec.toNat_pos, BitVec.pos_iff_ne_zero])
      else .finite s (2 ^ 23 + mantissa.toNat) (exponent.toNat - 150) (by omega) := by
  have himplicit : (1#1 ++ mantissa).toNat = 2 ^ 23 + mantissa.toNat := by
    rw [BitVec.toNat_append, ← Nat.shiftLeft_add_eq_or_of_lt mantissa.isLt]
    rfl
  rw [unpack]
  simp only [unpackMantissa_packComponents, unpackExponent_packComponents, unpackSign_packComponents,
    sign_ofBitVec_toBitVec, himplicit]
  rfl

theorem unpack_packedInfinity (s : Sign) : unpack .binary32 (packedInfinity .binary32 s) = .infinity s := by
  rw [packedInfinity, unpack_packComponents]
  rfl

theorem unpack_packedZero (s : Sign) : unpack .binary32 (packedZero .binary32 s) = .zero s := by
  rw [packedZero, unpack_packComponents]
  rfl

/-- The mantissas with all bits. -/
theorem log2_add_one_eq_iff {m : ℕ} (hm : 0 < m) (hlt : m < 2 ^ 24) : m.log2 + 1 = 24 ↔ 2 ^ 23 ≤ m := by
  have hlow := Nat.le_log2 (k := 23) hm.ne'
  have hhigh := Nat.le_log2 (k := 24) hm.ne'
  omega

/-- A rounded number below the overflow is packed as it is. -/
theorem unpack_pack_finite (s : Sign) {m : ℕ} {e : ℤ} (h : 0 < m) (hr : IsRounded m e) (he : e ≤ 104) :
    unpack .binary32 (pack .binary32 (.finite s m e h)) = .finite s m e h := by
  obtain ⟨hm, hmin, hnormal⟩ := hr
  have hbiased : (e + Format.binary32.exponentBias + Format.binary32.mantissaBitsWithoutImplicit).toNat =
      (e + 150).toNat := by
    show (e + 127 + 23).toNat = (e + 150).toNat
    omega
  rw [pack]
  simp only [hbiased]
  rw [if_neg (by show ¬256 ≤ (e + 150).toNat + 1; omega), mantissaBits_binary32]
  by_cases hfull : 2 ^ 23 ≤ m
  · have hexp : (BitVec.ofNat 8 (e + 150).toNat).toNat = (e + 150).toNat := by
      rw [BitVec.toNat_ofNat, Nat.mod_eq_of_lt (by omega)]
    have hmant : (BitVec.ofNat 23 m).toNat = m - 2 ^ 23 := by
      rw [BitVec.toNat_ofNat]
      omega
    have hones : BitVec.ofNat 8 (e + 150).toNat ≠ -1#8 := by
      intro heq
      have := congrArg BitVec.toNat heq
      rw [hexp] at this
      have hmax : (-1#8).toNat = 255 := rfl
      omega
    have hzero : BitVec.ofNat 8 (e + 150).toNat ≠ 0#8 := by
      intro heq
      have := congrArg BitVec.toNat heq
      rw [hexp] at this
      have hmin : (0#8).toNat = 0 := rfl
      omega
    rw [if_pos ((log2_add_one_eq_iff h hm).mpr hfull)]
    have hunpack := unpack_packComponents s (BitVec.ofNat 8 (e + 150).toNat) (BitVec.ofNat 23 m)
    rw [if_neg hones, if_neg hzero] at hunpack
    refine hunpack.trans ?_
    congr 1
    · omega
    · omega
  · have hsub : e = -149 := hnormal.resolve_left hfull
    have hmant : (BitVec.ofNat 23 m).toNat = m := by
      rw [BitVec.toNat_ofNat, Nat.mod_eq_of_lt (by omega)]
    have hne : BitVec.ofNat 23 m ≠ 0#23 := by
      intro heq
      have := congrArg BitVec.toNat heq
      rw [hmant] at this
      exact h.ne' this
    rw [if_neg (fun hlog => hfull ((log2_add_one_eq_iff h hm).mp hlog))]
    have hunpack := unpack_packComponents s 0#8 (BitVec.ofNat 23 m)
    rw [if_neg (by decide), if_pos rfl, dif_neg hne] at hunpack
    refine hunpack.trans ?_
    congr 1
    rw [hsub]
    rfl

/-- A rounded number from the overflow on is packed as an infinity. -/
theorem unpack_pack_overflow (s : Sign) {m : ℕ} {e : ℤ} (h : 0 < m) (he : 104 < e) :
    unpack .binary32 (pack .binary32 (.finite s m e h)) = .infinity s := by
  have hbiased : 2 ^ Format.binary32.exponentBits ≤
      (e + Format.binary32.exponentBias + Format.binary32.mantissaBitsWithoutImplicit).toNat + 1 := by
    show 256 ≤ (e + 127 + 23).toNat + 1
    omega
  rw [pack]
  simp only []
  rw [if_pos hbiased, unpack_packedInfinity]

theorem two_zpow_mono {m n : ℤ} (h : m ≤ n) : (2 : ℚ) ^ m ≤ 2 ^ n :=
  zpow_le_zpow_right₀ (by norm_num) h

theorem two_pow_binades {m : ℕ} {e : ℤ} (hr : IsRounded m e) :
    (e ≤ 104 → (m : ℚ) * 2 ^ e < overflow) ∧ (104 < e → overflow ≤ (m : ℚ) * 2 ^ e) := by
  obtain ⟨hm, -, hnormal⟩ := hr
  have hm : (m : ℚ) < 2 ^ 24 := by exact_mod_cast hm
  constructor
  · intro he
    calc (m : ℚ) * 2 ^ e < 2 ^ 24 * 2 ^ e := by gcongr
      _ ≤ 2 ^ 24 * 2 ^ (104 : ℤ) :=
          mul_le_mul_of_nonneg_left (two_zpow_mono he) (by norm_num)
      _ = overflow := by norm_num [overflow]
  · intro he
    have hfull : (2 : ℚ) ^ 23 ≤ m := by exact_mod_cast hnormal.resolve_right (by omega)
    calc overflow = 2 ^ 23 * 2 ^ (105 : ℤ) := by norm_num [overflow]
      _ ≤ (m : ℚ) * 2 ^ (105 : ℤ) := by gcongr
      _ ≤ (m : ℚ) * 2 ^ e := mul_le_mul_of_nonneg_left (two_zpow_mono (by omega)) (by positivity)

/-- Packing keeps a rounded number or, from the overflow on, makes it an infinity. -/
theorem unpackedValue_pack (s : Sign) {m : ℕ} {e : ℤ} (h : 0 < m) (hr : IsRounded m e) :
    Canonical (unpack .binary32 (pack .binary32 (.finite s m e h))) ∧
      unpackedValue (unpack .binary32 (pack .binary32 (.finite s m e h))) =
        signed s (min (m * 2 ^ e) overflow) := by
  rcases lt_or_ge 104 e with he | he
  · rw [unpack_pack_overflow s h he, min_eq_right ((two_pow_binades hr).2 he)]
    exact ⟨trivial, rfl⟩
  · rw [unpack_pack_finite s h hr he, min_eq_left ((two_pow_binades hr).1 he).le]
    exact ⟨⟨hr, he⟩, rfl⟩

/-- What is packed as a number is unpacked as it was. -/
theorem unpack_pack_of_canonical {u : UnpackedFloat} (h : Canonical u) : unpack .binary32 (pack .binary32 u) = u := by
  cases u with
  | notANumber => exact h.elim
  | infinity s => exact unpack_packedInfinity s
  | zero s => exact unpack_packedZero s
  | finite s m e hm => exact unpack_pack_finite s hm h.1 h.2

/-! ### Negation -/

theorem canonical_neg {u : UnpackedFloat} (h : Canonical u) : Canonical u.neg := by
  cases u with
  | notANumber => exact h.elim
  | infinity s => trivial
  | zero s => trivial
  | finite s m e hm => exact h

theorem signed_neg (s : Sign) (x : ℚ) : signed (-s) x = -signed s x := by
  cases s
  · exact (neg_neg x).symm
  · rfl

theorem unpackedValue_neg (u : UnpackedFloat) : unpackedValue u.neg = -unpackedValue u := by
  cases u with
  | notANumber => exact neg_zero.symm
  | infinity s => exact signed_neg s overflow
  | zero s => exact neg_zero.symm
  | finite s m e hm => exact signed_neg s _

/-- The sign of a number changes the sign of its value. -/
theorem isNumber_value_neg {x : Float32} (h : IsNumber x) : IsNumber (-x) ∧ value (-x) = -value x := by
  have hneg := canonical_neg h
  have hunpack : (-x).toModel.unpack = x.toModel.unpack.neg := by
    show unpack .binary32 (pack .binary32 x.toModel.unpack.neg) = _
    exact unpack_pack_of_canonical hneg
  rw [IsNumber, value, hunpack]
  exact ⟨hneg, unpackedValue_neg _⟩

/-! ### Comparison -/

theorem overflow_pos : 0 < overflow := by norm_num [overflow]

/-- The value of a rounded number decides its exponent and its mantissa in turn. -/
theorem lex_lt_iff {m m' : ℕ} {e e' : ℤ} (hr : IsRounded m e) (hr' : IsRounded m' e') :
    e < e' ∨ e = e' ∧ m < m' ↔ (m : ℚ) * 2 ^ e < m' * 2 ^ e' := by
  have hlt : ∀ {m m' : ℕ} {e e' : ℤ}, IsRounded m e → IsRounded m' e' → e < e' →
      (m : ℚ) * 2 ^ e < m' * 2 ^ e' := by
    intro m m' e e' hr hr' he
    have hm : (m : ℚ) < 2 ^ 24 := by exact_mod_cast hr.1
    have hm' : (2 : ℚ) ^ 23 ≤ m' := by
      have := hr.2.1
      exact_mod_cast hr'.2.2.resolve_right (by omega)
    calc (m : ℚ) * 2 ^ e < 2 ^ 24 * 2 ^ e := by gcongr
      _ = 2 ^ 23 * 2 ^ (e + 1) := by rw [zpow_add_one₀ (by norm_num)]; ring
      _ ≤ 2 ^ 23 * 2 ^ e' := mul_le_mul_of_nonneg_left (two_zpow_mono he) (by norm_num)
      _ ≤ m' * 2 ^ e' := by gcongr
  constructor
  · rintro (he | ⟨rfl, hm⟩)
    · exact hlt hr hr' he
    · have : (m : ℚ) < m' := by exact_mod_cast hm
      gcongr
  · intro hvalue
    rcases lt_trichotomy e e' with he | rfl | he
    · exact Or.inl he
    · refine Or.inr ⟨rfl, ?_⟩
      have := lt_of_mul_lt_mul_right hvalue (by positivity)
      exact_mod_cast this
    · exact absurd hvalue (hlt hr' hr he).not_gt

theorem compare_then_eq_lt_iff (m m' : ℕ) (e e' : ℤ) :
    (compare e e').then (compare m m') = .lt ↔ e < e' ∨ e = e' ∧ m < m' := by
  rw [Ordering.then_eq_lt, compare_lt_iff_lt, compare_eq_iff_eq, compare_lt_iff_lt]

theorem compare_then_eq_gt_iff (m m' : ℕ) (e e' : ℤ) :
    (compare e e').then (compare m m') = .gt ↔ e' < e ∨ e' = e ∧ m' < m := by
  rw [Ordering.then_eq_gt, compare_gt_iff_gt, compare_eq_iff_eq, compare_gt_iff_gt, eq_comm]

/-- Two numbers are compared by their values. -/
theorem lt_iff_unpackedValue {a b : UnpackedFloat} (ha : Canonical a) (hb : Canonical b) :
    a.lt b = true ↔ unpackedValue a < unpackedValue b := by
  have hoverflow := overflow_pos
  have hpos : ∀ {m : ℕ} {e : ℤ}, 0 < m → (0 : ℚ) < m * 2 ^ e := fun hm => by positivity
  have hfinite : ∀ {s : Sign} {m : ℕ} {e : ℤ} {h : 0 < m}, Canonical (.finite s m e h) →
      (m : ℚ) * 2 ^ e < overflow := fun hc => (two_pow_binades hc.1).1 hc.2
  rw [UnpackedFloat.lt, beq_iff_eq]
  cases a with
  | notANumber => exact ha.elim
  | infinity s =>
      cases b with
      | notANumber => exact hb.elim
      | infinity t =>
          cases s <;> cases t <;> simp [UnpackedFloat.compare, unpackedValue, signed, compare] <;> linarith
      | zero t => cases s <;> simp [UnpackedFloat.compare, unpackedValue, signed] <;> linarith
      | finite t m e h =>
          have h1 := hpos h (e := e)
          have h2 := hfinite hb
          cases s <;> cases t <;> simp [UnpackedFloat.compare, unpackedValue, signed] <;> linarith
  | zero s =>
      cases b with
      | notANumber => exact hb.elim
      | infinity t => cases t <;> simp [UnpackedFloat.compare, unpackedValue, signed] <;> linarith
      | zero t => simp [UnpackedFloat.compare, unpackedValue]
      | finite t m e h =>
          have h1 := hpos h (e := e)
          cases t <;> simp [UnpackedFloat.compare, unpackedValue, signed] <;> linarith
  | finite s m e h =>
      have h1 := hpos h (e := e)
      have h2 := hfinite ha
      cases b with
      | notANumber => exact hb.elim
      | infinity t => cases s <;> cases t <;> simp [UnpackedFloat.compare, unpackedValue, signed] <;> linarith
      | zero t => cases s <;> simp [UnpackedFloat.compare, unpackedValue, signed] <;> linarith
      | finite t m' e' h' =>
          have h1' := hpos h' (e := e')
          have hlex := lex_lt_iff ha.1 hb.1
          have hlex' := lex_lt_iff hb.1 ha.1
          cases s <;> cases t
          · show some ((compare e e').then (compare m m')).swap = some .lt ↔ -((m : ℚ) * 2 ^ e) < -(m' * 2 ^ e')
            rw [Option.some_inj, Ordering.swap_eq_lt, compare_then_eq_gt_iff, hlex', neg_lt_neg_iff]
          · simp [UnpackedFloat.compare, unpackedValue, signed]
            linarith
          · simp [UnpackedFloat.compare, unpackedValue, signed]
            linarith
          · show some ((compare e e').then (compare m m')) = some .lt ↔ (m : ℚ) * 2 ^ e < m' * 2 ^ e'
            rw [Option.some_inj, compare_then_eq_lt_iff, hlex]

/-- `operator<` on numbers compares their values. -/
theorem lt_iff_value {a b : Float32} (ha : IsNumber a) (hb : IsNumber b) : a < b ↔ value a < value b := by
  rw [value, value, ← lt_iff_unpackedValue ha hb]
  show decide (a.toModel.unpack.lt b.toModel.unpack = true) = true ↔ _
  rw [decide_eq_true_iff]

/-! ### Rounding -/

/-- The numbers that a mantissa with its round bit and its sticky bit stands for. -/
def Represents (em : ExtendedMantissa) (x : ℚ) : Prop :=
  match em.roundBit, em.stickyBit with
  | false, false => x = em.mantissa
  | false, true => (em.mantissa : ℚ) < x ∧ x < em.mantissa + 1 / 2
  | true, false => x = em.mantissa + 1 / 2
  | true, true => (em.mantissa : ℚ) + 1 / 2 < x ∧ x < em.mantissa + 1

theorem Represents.bounds {em : ExtendedMantissa} {x : ℚ} (h : Represents em x) :
    (em.mantissa : ℚ) ≤ x ∧ x < em.mantissa + 1 := by
  obtain ⟨m, round, sticky⟩ := em
  cases round <;> cases sticky <;> simp only [Represents] at h ⊢ <;> constructor <;> linarith

/-- The two bits decide the nearest integer, ties to even. -/
theorem Represents.roundedMantissa {em : ExtendedMantissa} {x : ℚ} (h : Represents em x) :
    (em.roundedMantissa : ℤ) = roundEven x := by
  have hfloor : ⌊x⌋ = (em.mantissa : ℤ) := Int.floor_eq_iff.mpr (by exact_mod_cast h.bounds)
  obtain ⟨m, round, sticky⟩ := em
  rw [roundEven, hfloor]
  cases round <;> cases sticky <;> simp only [Represents] at h
  · rw [if_pos (by push_cast; linarith)]
    rfl
  · rw [if_pos (by push_cast; linarith)]
    rfl
  · rw [if_neg (by push_cast; linarith), if_pos (by push_cast; linarith)]
    show ((m + m % 2 : ℕ) : ℤ) = m + m % 2
    push_cast
    rfl
  · rw [if_neg (by push_cast; linarith), if_neg (by push_cast; linarith)]
    show ((m + 1 : ℕ) : ℤ) = m + 1
    push_cast
    rfl

/-- One shift to the right halves what is represented. -/
theorem Represents.shiftRightOne {em : ExtendedMantissa} {x : ℚ} (h : Represents em x) :
    Represents em.shiftRightOne (x / 2) := by
  obtain ⟨m, round, sticky⟩ := em
  have hsplit : (m : ℚ) = 2 * (m / 2 : ℕ) + (m % 2 : ℕ) := by
    exact_mod_cast (Nat.div_add_mod m 2).symm
  have hodd : (1 != 0) = true := rfl
  rcases Nat.mod_two_eq_zero_or_one m with hbit | hbit <;> rw [hbit] at hsplit <;> push_cast at hsplit <;>
    cases round <;> cases sticky <;>
    simp only [Represents, ExtendedMantissa.shiftRightOne, hbit, bne_self_eq_false, hodd, Bool.or_false,
      Bool.or_true] at h ⊢
  case inl.false.false | inr.false.false => linarith
  all_goals constructor <;> linarith

theorem Represents.shiftRight {em : ExtendedMantissa} {x : ℚ} (h : Represents em x) (n : ℕ) :
    Represents (em >>> n) (x / 2 ^ n) := by
  show Represents (n.repeat ExtendedMantissa.shiftRightOne em) (x / 2 ^ n)
  induction n with
  | zero => simpa [Nat.repeat] using h
  | succ n ih =>
      rw [Nat.repeat, pow_succ, ← div_div]
      exact ih.shiftRightOne

theorem represents_exact (m : ℕ) : Represents (.ofMantissaAndAccuracy m .exact) m := rfl

/-- An integer quotient with its remainder stands for the exact quotient. -/
theorem represents_div (n : ℕ) {d : ℕ} (hd : 0 < d) :
    Represents (.ofMantissaAndAccuracy (n / d) (accuracyOfFraction (n % d) d)) (n / d) := by
  have hd' : (0 : ℚ) < d := by exact_mod_cast hd
  have hquot : (n : ℚ) / d = (n / d : ℕ) + (n % d : ℕ) / d := by
    have hsplit : (n : ℚ) = d * (n / d : ℕ) + (n % d : ℕ) := by exact_mod_cast (Nat.div_add_mod n d).symm
    field_simp
    linarith
  have hlt : ((n % d : ℕ) : ℚ) < d := by exact_mod_cast Nat.mod_lt n hd
  rw [accuracyOfFraction, hquot]
  split
  case isTrue hzero =>
    rw [hzero]
    simp [Represents, ExtendedMantissa.ofMantissaAndAccuracy]
  case isFalse hpos =>
    have hpos : (0 : ℚ) < (n % d : ℕ) := by exact_mod_cast Nat.pos_of_ne_zero hpos
    have hfrac : 0 < ((n % d : ℕ) : ℚ) / d := by positivity
    cases hcmp : compare (2 * (n % d)) d with
    | lt =>
        have hhalf : (2 : ℚ) * (n % d : ℕ) < d := by exact_mod_cast compare_lt_iff_lt.mp hcmp
        have : ((n % d : ℕ) : ℚ) / d < 1 / 2 := by
          rw [div_lt_div_iff₀ hd' two_pos]
          linarith
        show ((n / d : ℕ) : ℚ) < _ ∧ _ < ((n / d : ℕ) : ℚ) + 1 / 2
        exact ⟨by linarith, by linarith⟩
    | eq =>
        have hhalf : (2 : ℚ) * (n % d : ℕ) = d := by exact_mod_cast compare_eq_iff_eq.mp hcmp
        have : ((n % d : ℕ) : ℚ) / d = 1 / 2 := by
          rw [div_eq_div_iff hd'.ne' two_ne_zero]
          linarith
        show ((n / d : ℕ) : ℚ) + (n % d : ℕ) / d = (n / d : ℕ) + 1 / 2
        rw [this]
    | gt =>
        have hhalf : (d : ℚ) < 2 * (n % d : ℕ) := by exact_mod_cast compare_gt_iff_gt.mp hcmp
        have hlow : 1 / 2 < ((n % d : ℕ) : ℚ) / d := by
          rw [div_lt_div_iff₀ two_pos hd']
          linarith
        have hhigh : ((n % d : ℕ) : ℚ) / d < 1 := by
          rw [div_lt_one hd']
          exact hlt
        show ((n / d : ℕ) : ℚ) + 1 / 2 < _ ∧ _ < ((n / d : ℕ) : ℚ) + 1
        exact ⟨by linarith, by linarith⟩

/-- An unpacked float that is the rounding of a positive number. -/
def Rounds (u : UnpackedFloat) (s : Sign) (y : ℚ) : Prop :=
  (u = .zero s ∧ binary32.roundMagnitude y = 0) ∨
  ∃ m e h, u = .finite s m e h ∧ IsRounded m e ∧ (m : ℚ) * 2 ^ e = binary32.roundMagnitude y

theorem Rounds.value_pack {u : UnpackedFloat} {s : Sign} {y : ℚ} (h : Rounds u s y) :
    Canonical (unpack .binary32 (pack .binary32 u)) ∧
      unpackedValue (unpack .binary32 (pack .binary32 u)) = signed s (min (binary32.roundMagnitude y) overflow) := by
  rcases h with ⟨rfl, hzero⟩ | ⟨m, e, hm, rfl, hr, hvalue⟩
  · have hunpack : unpack .binary32 (pack .binary32 (.zero s)) = .zero s := unpack_packedZero s
    rw [hunpack, hzero, min_eq_left overflow_pos.le]
    refine ⟨trivial, ?_⟩
    cases s <;> simp [unpackedValue, signed]
  · rw [← hvalue]
    exact unpackedValue_pack s hm hr

/-- The exponent the model rounds to is that of the number. -/
theorem targetExponent_eq {m : ℕ} {e : ℤ} {x : ℚ} (hx : 0 < x) (hlow : (m : ℚ) ≤ x) (hhigh : x < m + 1)
    (he : e ≤ binary32.exponent (x * 2 ^ e)) :
    Format.binary32.targetExponent (Float.Model.totalExponent m e) = binary32.exponent (x * 2 ^ e) := by
  have htwo : (0 : ℚ) < 2 ^ e := by positivity
  have hy : 0 < x * 2 ^ e := by positivity
  have hprecision : (binary32.precision : ℤ) = 24 := rfl
  have hmin : binary32.minExponent = -149 := rfl
  rw [Format.targetExponent, mantissaBits_binary32, minExponent_binary32, Float.Model.totalExponent]
  rw [BinaryFormat.exponent, hprecision, hmin] at he ⊢
  rcases Nat.eq_zero_or_pos m with rfl | hm
  · -- less than one unit: the exponent is the smallest one
    have hlog : Int.log 2 (x * 2 ^ e) < e := by
      rw [← Int.lt_zpow_iff_log_lt (by norm_num) hy]
      have : x < 1 := by simpa using hhigh
      push_cast
      nlinarith
    have hzero : Nat.log2 0 = 0 := by decide
    rw [hzero]
    omega
  · have hlog : Int.log 2 (x * 2 ^ e) = m.log2 + e := by
      have hlow' : (m.log2 : ℤ) + e ≤ Int.log 2 (x * 2 ^ e) := by
        rw [← Int.zpow_le_iff_le_log (by norm_num) hy]
        have hself : ((2 : ℕ) : ℚ) ^ m.log2 ≤ m := by exact_mod_cast Nat.log2_self_le hm.ne'
        rw [zpow_add₀ (by norm_num), zpow_natCast]
        push_cast at hself ⊢
        nlinarith
      have hhigh' : Int.log 2 (x * 2 ^ e) < m.log2 + e + 1 := by
        rw [← Int.lt_zpow_iff_log_lt (by norm_num) hy]
        have hself : (m : ℚ) + 1 ≤ 2 ^ (m.log2 + 1) := by exact_mod_cast Nat.lt_log2_self
        rw [show (m.log2 : ℤ) + e + 1 = ((m.log2 + 1 : ℕ) : ℤ) + e by push_cast; ring,
          zpow_add₀ (by norm_num), zpow_natCast]
        push_cast
        nlinarith
      omega
    rw [hlog]
    omega

/-- After the rounding only a mantissa that was carried to the next power of two is shifted again. -/
theorem shiftToTargetExponent_exact {n : ℕ} {exp : ℤ} (hle : n ≤ 2 ^ 24) (hmin : -149 ≤ exp) :
    shiftToTargetExponent .binary32 n exp .exact =
      if n = 2 ^ 24 then (⟨2 ^ 23, false, false⟩, exp + 1) else (⟨n, false, false⟩, exp) := by
  show shiftToExponent n exp .exact (Format.binary32.targetExponent (Float.Model.totalExponent n exp)) = _
  rw [Format.targetExponent, mantissaBits_binary32, minExponent_binary32, Float.Model.totalExponent]
  split
  case isTrue hcarry =>
    have hlog : Nat.log2 (2 ^ 24) = 24 := Nat.log2_two_pow
    have hshift : (max (((24 : ℕ) : ℤ) + 1 + exp - (24 : ℕ)) (-149) - exp).toNat = 1 := by omega
    rw [hcarry, hlog]
    simp only [shiftToExponent, hshift]
    rfl
  case isFalse hne =>
    have hlog : n.log2 ≤ 23 := by
      rcases Nat.eq_zero_or_pos n with rfl | hn
      · exact Nat.zero_le _
      · have := (Nat.le_log2 (k := 24) hn.ne').mp
        omega
    have hshift : (max ((n.log2 : ℤ) + 1 + exp - (24 : ℕ)) (-149) - exp).toNat = 0 := by omega
    simp only [shiftToExponent, hshift]
    refine Prod.ext rfl ?_
    simp

/-- Rounding what a mantissa with its accuracy stands for. -/
theorem rounds_roundWithAccuracy (s : Sign) {m : ℕ} {e : ℤ} {acc : Accuracy} {x : ℚ} (hx : 0 < x)
    (hrep : Represents (.ofMantissaAndAccuracy m acc) x) (he : e ≤ binary32.exponent (x * 2 ^ e)) :
    Rounds (roundWithAccuracy .binary32 s m e acc) s (x * 2 ^ e) := by
  have hmantissa : (ExtendedMantissa.ofMantissaAndAccuracy m acc).mantissa = m := by
    unfold ExtendedMantissa.ofMantissaAndAccuracy
    split <;> rfl
  have hbounds := hrep.bounds
  rw [hmantissa] at hbounds
  have htarget := targetExponent_eq hx hbounds.1 hbounds.2 he
  -- the first shift, and the rounding
  obtain ⟨em, hem⟩ : ∃ em, em = ExtendedMantissa.ofMantissaAndAccuracy m acc >>>
      (binary32.exponent (x * 2 ^ e) - e).toNat := ⟨_, rfl⟩
  have hfirst : shiftToTargetExponent .binary32 m e acc = (em, binary32.exponent (x * 2 ^ e)) := by
    show shiftToExponent m e acc (Format.binary32.targetExponent (Float.Model.totalExponent m e)) = _
    rw [htarget, hem]
    simp only [shiftToExponent, Prod.mk.injEq, true_and]
    omega
  have hscale : x / 2 ^ (binary32.exponent (x * 2 ^ e) - e).toNat =
      x * 2 ^ e / 2 ^ binary32.exponent (x * 2 ^ e) := by
    rw [← zpow_natCast, Int.toNat_of_nonneg (by omega), zpow_sub₀ (by norm_num)]
    field_simp
  have hround : (em.roundedMantissa : ℤ) = roundEven (x * 2 ^ e / 2 ^ binary32.exponent (x * 2 ^ e)) := by
    rw [← hscale, hem]
    exact (hrep.shiftRight _).roundedMantissa
  have hvalue : binary32.roundMagnitude (x * 2 ^ e) = em.roundedMantissa * 2 ^ binary32.exponent (x * 2 ^ e) := by
    rw [BinaryFormat.roundMagnitude, ← hround]
    push_cast
    rfl
  have hy : 0 < x * 2 ^ e := by positivity
  have hle : (em.roundedMantissa : ℤ) ≤ 2 ^ 24 := hround ▸ binary32.roundEven_scaled_le (x * 2 ^ e)
  have hnormal : -149 < binary32.exponent (x * 2 ^ e) → (2 : ℤ) ^ 23 ≤ em.roundedMantissa := fun hexp =>
    hround ▸ binary32.le_roundEven_scaled hy hexp
  have hmin : -149 ≤ binary32.exponent (x * 2 ^ e) := binary32.minExponent_le_exponent _
  rw [Rounds, hvalue, roundWithAccuracy, hfirst]
  dsimp only
  generalize binary32.exponent (x * 2 ^ e) = exp at hnormal hmin ⊢
  generalize em.roundedMantissa = n at hle hnormal ⊢
  have hle : n ≤ 2 ^ 24 := by exact_mod_cast hle
  -- the second shift
  rw [shiftToTargetExponent_exact hle hmin]
  by_cases hcarry : n = 2 ^ 24
  · rw [if_pos hcarry]
    refine Or.inr ⟨2 ^ 23, exp + 1, by norm_num, dif_neg (by norm_num), ⟨by norm_num, by omega, Or.inl le_rfl⟩, ?_⟩
    rw [hcarry, zpow_add_one₀ (by norm_num)]
    push_cast
    ring
  · rw [if_neg hcarry]
    rcases Nat.eq_zero_or_pos n with rfl | hn
    · exact Or.inl ⟨dif_pos rfl, by simp⟩
    · refine Or.inr ⟨n, exp, hn, dif_neg hn.ne', ⟨by omega, hmin, ?_⟩, rfl⟩
      rcases hmin.lt_or_eq with hlt | heq
      · left
        exact_mod_cast hnormal hlt
      · exact Or.inr heq.symm

/-- Division rounds the exact quotient. -/
theorem rounds_div (s₁ s₂ : Sign) {m₁ m₂ : ℕ} (e₁ e₂ : ℤ) (h₁ : 0 < m₁) (h₂ : 0 < m₂) :
    Rounds (UnpackedFloat.div .binary32 (.finite s₁ m₁ e₁ h₁) (.finite s₂ m₂ e₂ h₂)) (s₁ / s₂)
      (m₁ * 2 ^ e₁ / (m₂ * 2 ^ e₂)) := by
  have hm₁ : (0 : ℚ) < m₁ := by exact_mod_cast h₁
  have hm₂ : (0 : ℚ) < m₂ := by exact_mod_cast h₂
  have hy : (0 : ℚ) < m₁ * 2 ^ e₁ / (m₂ * 2 ^ e₂) := by positivity
  -- the quotient has at least as many bits as the totals of the exponents say
  have hlog : (m₁.log2 : ℤ) + e₁ - (m₂.log2 + e₂) - 1 ≤ Int.log 2 ((m₁ : ℚ) * 2 ^ e₁ / (m₂ * 2 ^ e₂)) := by
    rw [← Int.zpow_le_iff_le_log (by norm_num) hy]
    have hlow : (2 : ℚ) ^ m₁.log2 ≤ m₁ := by exact_mod_cast Nat.log2_self_le h₁.ne'
    have hhigh : (m₂ : ℚ) ≤ 2 ^ (m₂.log2 + 1) := by exact_mod_cast Nat.lt_log2_self.le
    have hpow : (2 : ℚ) ^ ((m₁.log2 : ℤ) + e₁ - (m₂.log2 + e₂) - 1) =
        2 ^ m₁.log2 * 2 ^ e₁ / (2 ^ (m₂.log2 + 1) * 2 ^ e₂) := by
      rw [← zpow_natCast, ← zpow_natCast, ← zpow_add₀ (by norm_num), ← zpow_add₀ (by norm_num),
        ← zpow_sub₀ (by norm_num)]
      congr 1
      push_cast
      ring
    push_cast
    rw [hpow]
    gcongr
  show Rounds (roundWithAccuracy .binary32 (s₁ / s₂) (divCore .binary32 m₁ e₁ m₂ e₂).1
    (divCore .binary32 m₁ e₁ m₂ e₂).2.1 (divCore .binary32 m₁ e₁ m₂ e₂).2.2) (s₁ / s₂) _
  rw [divCore]
  dsimp only
  obtain ⟨t, ht⟩ : ∃ t, t = min (e₁ - e₂) (Format.binary32.targetExponent
      (Float.Model.totalExponent m₁ e₁ - Float.Model.totalExponent m₂ e₂)) := ⟨_, rfl⟩
  rw [← ht]
  have hquot : ((m₁ <<< (e₁ - e₂ - t).toNat : ℕ) : ℚ) / m₂ * 2 ^ t = m₁ * 2 ^ e₁ / (m₂ * 2 ^ e₂) := by
    have hsplit : (2 : ℚ) ^ e₁ = 2 ^ (e₁ - e₂ - t).toNat * 2 ^ t * 2 ^ e₂ := by
      rw [← zpow_natCast, Int.toNat_of_nonneg (by omega), ← zpow_add₀ (by norm_num), ← zpow_add₀ (by norm_num)]
      congr 1
      ring
    rw [Nat.shiftLeft_eq, hsplit]
    push_cast
    field_simp
  have hle : t ≤ binary32.exponent (m₁ * 2 ^ e₁ / (m₂ * 2 ^ e₂)) := by
    have hprecision : (binary32.precision : ℤ) = 24 := rfl
    have hmin : binary32.minExponent = -149 := rfl
    rw [Format.targetExponent, mantissaBits_binary32, minExponent_binary32, Float.Model.totalExponent,
      Float.Model.totalExponent] at ht
    rw [BinaryFormat.exponent, hprecision, hmin]
    omega
  have hpos : (0 : ℚ) < ((m₁ <<< (e₁ - e₂ - t).toNat : ℕ) : ℚ) / m₂ := by
    rw [Nat.shiftLeft_eq]
    push_cast
    positivity
  have hrounds := rounds_roundWithAccuracy (s₁ / s₂) hpos (represents_div _ h₂) (by rw [hquot]; exact hle)
  rwa [hquot] at hrounds

/-- Multiplication rounds the exact product, if the exponents leave it room. -/
theorem rounds_mul (s₁ s₂ : Sign) {m₁ m₂ : ℕ} {e₁ e₂ : ℤ} (h₁ : 0 < m₁) (h₂ : 0 < m₂)
    (hle : e₁ + e₂ ≤ binary32.exponent (m₁ * 2 ^ e₁ * (m₂ * 2 ^ e₂))) :
    Rounds (UnpackedFloat.mul .binary32 (.finite s₁ m₁ e₁ h₁) (.finite s₂ m₂ e₂ h₂)) (s₁ * s₂)
      (m₁ * 2 ^ e₁ * (m₂ * 2 ^ e₂)) := by
  have hprod : ((m₁ * m₂ : ℕ) : ℚ) * 2 ^ (e₁ + e₂) = m₁ * 2 ^ e₁ * (m₂ * 2 ^ e₂) := by
    rw [zpow_add₀ (by norm_num)]
    push_cast
    ring
  have hpos : (0 : ℚ) < (m₁ * m₂ : ℕ) := by exact_mod_cast Nat.mul_pos h₁ h₂
  have hrounds := rounds_roundWithAccuracy (s₁ * s₂) hpos (represents_exact _) (by rw [hprod]; exact hle)
  rwa [hprod] at hrounds

/-! ### Decimal numbers -/

theorem exponent_natCast (n : ℕ) : binary32.exponent n = max ((n.log2 : ℤ) + 1 - 24) (-149) := by
  have hlog : Int.log 2 (n : ℚ) = n.log2 := by rw [Int.log_natCast, Nat.log2_eq_log_two]
  rw [BinaryFormat.exponent, hlog]
  rfl

/-- A natural number rounded. -/
theorem rounds_ofNat {n : ℕ} (hn : 0 < n) : Rounds (UnpackedFloat.ofNat .binary32 n) .positive n := by
  have hgt : compare (n : ℤ) 0 = .gt := compare_gt_iff_gt.mpr (by exact_mod_cast hn)
  have htarget : Format.binary32.targetExponent (Float.Model.totalExponent n 0) = binary32.exponent n := by
    rw [exponent_natCast, Format.targetExponent, mantissaBits_binary32, minExponent_binary32,
      Float.Model.totalExponent, Int.add_zero, Nat.cast_ofNat]
  obtain ⟨k, hk⟩ : ∃ k, k = (0 - binary32.exponent n).toNat := ⟨_, rfl⟩
  have hofNat : UnpackedFloat.ofNat .binary32 n =
      roundWithAccuracy .binary32 .positive (n <<< k) (0 - k) .exact := by
    rw [UnpackedFloat.ofNat, UnpackedFloat.ofInt, UnpackedFloat.normalize, hgt]
    dsimp only
    rw [UnpackedFloat.round, Int.toNat_natCast, htarget, decreaseExponent, ← hk]
  have hvalue : ((n <<< k : ℕ) : ℚ) * 2 ^ (0 - k : ℤ) = n := by
    rw [Nat.shiftLeft_eq, zero_sub, zpow_neg, zpow_natCast]
    push_cast
    field_simp
  have hpos : (0 : ℚ) < (n <<< k : ℕ) := by
    rw [Nat.shiftLeft_eq]
    exact_mod_cast Nat.mul_pos hn (Nat.two_pow_pos k)
  have hrounds := rounds_roundWithAccuracy .positive hpos (represents_exact _) (by rw [hvalue]; omega)
  rw [hofNat]
  rwa [hvalue] at hrounds

/-- A natural number of 24 bits is a `float`. -/
theorem unpack_ofNat {n : ℕ} (hn : 0 < n) (hlt : n < 2 ^ 24) :
    ∃ m e h, unpack .binary32 (pack .binary32 (UnpackedFloat.ofNat .binary32 n)) = .finite .positive m e h ∧
      (m : ℚ) * 2 ^ e = n := by
  have hexact : binary32.roundMagnitude n = n := binary32.roundMagnitude_natCast hlt (by decide)
  rcases rounds_ofNat hn with ⟨-, hzero⟩ | ⟨m, e, h, hu, hr, hvalue⟩
  · rw [hexact] at hzero
    exact absurd hzero (by exact_mod_cast hn.ne')
  · rw [hexact] at hvalue
    have hsmall : (n : ℚ) < overflow := by
      have : (n : ℚ) < 2 ^ 24 := by exact_mod_cast hlt
      exact this.trans (by norm_num [overflow])
    have he : e ≤ 104 := by
      by_contra hgt
      have := (two_pow_binades hr).2 (not_le.mp hgt)
      rw [hvalue] at this
      exact absurd hsmall (not_lt.mpr this)
    exact ⟨m, e, h, by rw [hu, unpack_pack_finite .positive h hr he], hvalue⟩

/-- A `float` given by its bits. -/
theorem exists_unpack_ofBits {a : UInt32} {m : ℕ} {e : ℤ} {h : 0 < m} {x : ℚ}
    (ha : unpack .binary32 a.toBitVec = .finite .positive m e h) (hr : IsRounded m e) (he : e ≤ 104)
    (hx : (m : ℚ) * 2 ^ e = x) :
    ∃ m e h, (Float32.ofBits a).toModel.unpack = .finite .positive m e h ∧ IsRounded m e ∧
      (m : ℚ) * 2 ^ e = x := by
  refine ⟨m, e, h, ?_, hr, hx⟩
  show unpack .binary32 (pack .binary32 (unpack .binary32 a.toBitVec)) = _
  rw [ha, unpack_pack_finite .positive h hr he]

/-- The powers of ten in the table of the conversion. -/
theorem unpack_powerOfTen {k : ℕ} (hk : k < Float32.exactlyRepresentablePowersOfTen.size) :
    ∃ m e h, Float32.exactlyRepresentablePowersOfTen[k].toModel.unpack = .finite .positive m e h ∧
      IsRounded m e ∧ (m : ℚ) * 2 ^ e = 10 ^ k := by
  have hk' : k < 11 := hk
  interval_cases k
  · exact exists_unpack_ofBits (show unpack .binary32 0x3F800000#32 = .finite .positive 8388608 (-23) (by decide) from rfl)
      (by unfold IsRounded; decide) (by decide) (by norm_num)
  · exact exists_unpack_ofBits (show unpack .binary32 0x41200000#32 = .finite .positive 10485760 (-20) (by decide) from rfl)
      (by unfold IsRounded; decide) (by decide) (by norm_num)
  · exact exists_unpack_ofBits (show unpack .binary32 0x42C80000#32 = .finite .positive 13107200 (-17) (by decide) from rfl)
      (by unfold IsRounded; decide) (by decide) (by norm_num)
  · exact exists_unpack_ofBits (show unpack .binary32 0x447A0000#32 = .finite .positive 16384000 (-14) (by decide) from rfl)
      (by unfold IsRounded; decide) (by decide) (by norm_num)
  · exact exists_unpack_ofBits (show unpack .binary32 0x461C4000#32 = .finite .positive 10240000 (-10) (by decide) from rfl)
      (by unfold IsRounded; decide) (by decide) (by norm_num)
  · exact exists_unpack_ofBits (show unpack .binary32 0x47C35000#32 = .finite .positive 12800000 (-7) (by decide) from rfl)
      (by unfold IsRounded; decide) (by decide) (by norm_num)
  · exact exists_unpack_ofBits (show unpack .binary32 0x49742400#32 = .finite .positive 16000000 (-4) (by decide) from rfl)
      (by unfold IsRounded; decide) (by decide) (by norm_num)
  · exact exists_unpack_ofBits (show unpack .binary32 0x4B189680#32 = .finite .positive 10000000 0 (by decide) from rfl)
      (by unfold IsRounded; decide) (by decide) (by norm_num)
  · exact exists_unpack_ofBits (show unpack .binary32 0x4CBEBC20#32 = .finite .positive 12500000 3 (by decide) from rfl)
      (by unfold IsRounded; decide) (by decide) (by norm_num)
  · exact exists_unpack_ofBits (show unpack .binary32 0x4E6E6B28#32 = .finite .positive 15625000 6 (by decide) from rfl)
      (by unfold IsRounded; decide) (by decide) (by norm_num)
  · exact exists_unpack_ofBits (show unpack .binary32 0x501502F9#32 = .finite .positive 9765625 10 (by decide) from rfl)
      (by unfold IsRounded; decide) (by decide) (by norm_num)

/-- A packed result that rounds a number that is not negative. -/
theorem Rounds.isNumber_value {u : UnpackedFloat} {y : ℚ} (h : Rounds u .positive y) :
    IsNumber (.ofModel (.pack u)) ∧
      value (.ofModel (.pack u)) = min (binary32.roundMagnitude y) overflow :=
  h.value_pack

theorem rounds_zero : Rounds (.zero .positive) .positive 0 :=
  Or.inl ⟨rfl, binary32.roundMagnitude_zero⟩

/-- A product that is a natural number, if the exponents leave it room. -/
theorem rounds_mul_natCast {m m₁ m₂ : ℕ} {e₁ e₂ : ℤ} (h₁ : 0 < m₁) (h₂ : 0 < m₂)
    (hvalue : (m₁ : ℚ) * 2 ^ e₁ * (m₂ * 2 ^ e₂) = m) (hle : e₁ + e₂ ≤ m.log2 - 23) :
    Rounds (UnpackedFloat.mul .binary32 (.finite .positive m₁ e₁ h₁) (.finite .positive m₂ e₂ h₂)) .positive m := by
  have hmul := rounds_mul .positive .positive h₁ h₂ (by
    rw [hvalue, exponent_natCast]
    omega)
  rwa [hvalue] at hmul

theorem exponent_le_log2 {m m₁ : ℕ} {e : ℤ} (h₁ : 0 < m₁) (hvalue : (m₁ : ℚ) * 2 ^ e = m) : e ≤ m.log2 := by
  have hle : ((2 : ℕ) : ℚ) ^ e ≤ m := by
    have hone : (1 : ℚ) ≤ m₁ := by exact_mod_cast h₁
    rw [← hvalue]
    exact le_mul_of_one_le_left (by positivity) hone
  have hm : (0 : ℚ) < m := lt_of_lt_of_le (by positivity) hle
  have := (Int.zpow_le_iff_le_log (by norm_num) hm).mp hle
  rwa [Int.log_natCast, ← Nat.log2_eq_log_two] at this

/-- The conversion by one operation on two exact operands. -/
theorem rounds_ofScientific_small {m k : ℕ} (hm : m < 2 ^ 23) (hk : k < Float32.exactlyRepresentablePowersOfTen.size) :
    ∃ u, (if 0 < k then m.toUInt64.toFloat32 / Float32.exactlyRepresentablePowersOfTen[k]
        else m.toUInt64.toFloat32 * Float32.exactlyRepresentablePowersOfTen[k]) = .ofModel (.pack u) ∧
      Rounds u .positive (m / 10 ^ k) := by
  obtain ⟨m₂, e₂, h₂, hpower, hr₂, hvalue₂⟩ := unpack_powerOfTen hk
  have htoNat : m.toUInt64.toNat = m := UInt64.toNat_ofNat_of_lt' (by show m < 2 ^ 64; omega)
  have hunpack : m.toUInt64.toFloat32.toModel.unpack =
      unpack .binary32 (pack .binary32 (UnpackedFloat.ofNat .binary32 m)) := by
    show unpack .binary32 (pack .binary32 (UnpackedFloat.ofNat .binary32 m.toUInt64.toNat)) = _
    rw [htoNat]
  split
  case isTrue hpos =>
    refine ⟨UnpackedFloat.div .binary32 m.toUInt64.toFloat32.toModel.unpack
      Float32.exactlyRepresentablePowersOfTen[k].toModel.unpack, rfl, ?_⟩
    rw [hunpack, hpower]
    rcases Nat.eq_zero_or_pos m with rfl | hm₀
    · have hzero : unpack .binary32 (pack .binary32 (UnpackedFloat.ofNat .binary32 0)) = .zero .positive :=
        unpack_packedZero .positive
      rw [hzero, Nat.cast_zero, zero_div]
      exact rounds_zero
    · obtain ⟨m₁, e₁, h₁, hunpack₁, hvalue₁⟩ := unpack_ofNat hm₀ (by omega)
      have hdiv := rounds_div .positive .positive e₁ e₂ h₁ h₂
      rw [hvalue₁, hvalue₂] at hdiv
      rw [hunpack₁]
      exact hdiv
  case isFalse hzero =>
    obtain rfl : k = 0 := by omega
    refine ⟨UnpackedFloat.mul .binary32 m.toUInt64.toFloat32.toModel.unpack
      Float32.exactlyRepresentablePowersOfTen[0].toModel.unpack, rfl, ?_⟩
    rw [hunpack, hpower, pow_zero, div_one]
    rw [pow_zero] at hvalue₂
    rcases Nat.eq_zero_or_pos m with rfl | hm₀
    · have hzero : unpack .binary32 (pack .binary32 (UnpackedFloat.ofNat .binary32 0)) = .zero .positive :=
        unpack_packedZero .positive
      rw [hzero, Nat.cast_zero]
      exact rounds_zero
    · obtain ⟨m₁, e₁, h₁, hunpack₁, hvalue₁⟩ := unpack_ofNat hm₀ (by omega)
      have he₂ : e₂ ≤ -23 := by
        by_contra hlarge
        have hfull : (2 : ℚ) ^ 23 ≤ m₂ := by exact_mod_cast hr₂.2.2.resolve_right (by omega)
        have hpow := two_zpow_mono (show (-22 : ℤ) ≤ e₂ by omega)
        have : (2 : ℚ) ^ 23 * 2 ^ (-22 : ℤ) ≤ m₂ * 2 ^ e₂ := by gcongr
        rw [hvalue₂] at this
        norm_num at this
      have he₁ := exponent_le_log2 h₁ hvalue₁
      rw [hunpack₁]
      exact rounds_mul_natCast h₁ h₂ (by rw [hvalue₁, hvalue₂, mul_one]) (by omega)

/-- The conversion on unpacked floats. -/
theorem rounds_ofScientific (m k : ℕ) :
    Rounds (UnpackedFloat.ofScientific .binary32 m (-k)) .positive (m / 10 ^ k) := by
  have hbits : (2 : ℤ) ^ Format.binary32.exponentBits = 256 := rfl
  rw [UnpackedFloat.ofScientific]
  split
  case isTrue hzero =>
    rw [hzero, Nat.cast_zero, zero_div]
    exact rounds_zero
  case isFalse hm =>
    have hm : 0 < m := Nat.pos_of_ne_zero hm
    have hm' : (0 : ℚ) < m := by exact_mod_cast hm
    rw [if_neg (by omega)]
    split
    case isTrue hsmall =>
      -- far below the smallest number
      refine Or.inl ⟨rfl, binary32.roundMagnitude_eq_zero (by positivity) ?_⟩
      have hlog : (m : ℚ) < 2 ^ (m.log2 + 1) := by exact_mod_cast Nat.lt_log2_self
      have hpow : (2 : ℚ) ^ (m.log2 + 256) ≤ 10 ^ k := by
        calc (2 : ℚ) ^ (m.log2 + 256) ≤ 2 ^ k := pow_le_pow_right₀ (by norm_num) (by omega)
          _ ≤ 10 ^ k := by gcongr; norm_num
      calc (m : ℚ) / 10 ^ k < 2 ^ (m.log2 + 1) / 2 ^ (m.log2 + 256) := by gcongr
        _ = 2 ^ (-255 : ℤ) := by
            rw [← zpow_natCast, ← zpow_natCast, ← zpow_sub₀ (by norm_num)]
            congr 1
            push_cast
            ring
        _ ≤ 2 ^ (binary32.minExponent - 1) := two_zpow_mono (by decide)
    case isFalse hlarge =>
      split
      case isTrue hk =>
        obtain rfl : k = 0 := by omega
        rw [pow_zero, div_one]
        refine rounds_mul_natCast _ _ ?_ ?_
        · rw [Nat.shiftLeft_eq, mantissaBits_binary32]
          norm_num
          ring
        · rw [mantissaBits_binary32]
          omega
      case isFalse hk =>
        have hdiv := rounds_div .positive .positive 0 0 hm (Nat.pow_pos (show 0 < 10 by decide) : 0 < 10 ^ k)
        rw [zpow_zero, mul_one, mul_one] at hdiv
        push_cast at hdiv
        simp only [neg_neg, Int.toNat_natCast]
        exact hdiv

/-- Decimal digits scaled down by a power of ten are rounded to a `float`. -/
theorem value_ofScientific (m k : ℕ) :
    IsNumber (Float32.ofScientific m (decide (0 < k)) k) ∧
      value (Float32.ofScientific m (decide (0 < k)) k) = min (binary32.roundMagnitude (m / 10 ^ k)) overflow := by
  rw [Float32.ofScientific]
  split
  case isTrue hfast =>
    obtain ⟨u, hu, hrounds⟩ := rounds_ofScientific_small hfast.1 (k := k) (by
      show k < 11
      omega)
    simp only [decide_eq_true_eq]
    rw [hu]
    exact hrounds.isNumber_value
  case isFalse =>
    have hexp : (if decide (0 < k) = true then Int.negOfNat k else Int.ofNat k) = -k := by
      split
      · exact Int.negOfNat_eq
      · have hzero : k = 0 := by simpa using ‹¬decide (0 < k) = true›
        rw [hzero]
        rfl
    simp only [hexp]
    exact (rounds_ofScientific m k).isNumber_value

end ToyBox.Cxx
