import Mathlib.Algebra.Order.Field.Power
import Mathlib.Algebra.Order.Floor.Ring
import Mathlib.Data.Int.Log
import Mathlib.Data.Rat.Floor
import Mathlib.Tactic.FieldSimp
import Mathlib.Tactic.Linarith

/-! Rounding a rational number to a binary floating-point format, to nearest with ties to even. A format is
given by its precision and its smallest exponent; the exponent range is not bounded above. Rounding is
monotone, across the binades too. -/

namespace ToyBox.Rounding

/-! ### Integers -/

/-- The nearest integer, of two equally near ones the even. -/
def roundEven (x : ℚ) : ℤ :=
  if x - ⌊x⌋ < 1 / 2 then ⌊x⌋
  else if x - ⌊x⌋ = 1 / 2 then ⌊x⌋ + ⌊x⌋ % 2
  else ⌊x⌋ + 1

theorem floor_le_roundEven (x : ℚ) : ⌊x⌋ ≤ roundEven x := by
  rw [roundEven]
  split
  · exact le_rfl
  · split <;> omega

theorem roundEven_le_floor_add_one (x : ℚ) : roundEven x ≤ ⌊x⌋ + 1 := by
  rw [roundEven]
  split
  · omega
  · split <;> omega

@[simp] theorem roundEven_intCast (n : ℤ) : roundEven n = n := by
  rw [roundEven, if_pos (by norm_num), Int.floor_intCast]

theorem roundEven_mono {x y : ℚ} (h : x ≤ y) : roundEven x ≤ roundEven y := by
  rcases (Int.floor_mono h).lt_or_eq with hlt | heq
  · calc roundEven x ≤ ⌊x⌋ + 1 := roundEven_le_floor_add_one x
      _ ≤ ⌊y⌋ := hlt
      _ ≤ roundEven y := floor_le_roundEven y
  · -- in one unit interval the two fractions decide
    have hfract : x - ⌊y⌋ ≤ y - ⌊y⌋ := by linarith
    rcases lt_trichotomy (x - ⌊y⌋) (1 / 2) with hlt | hhalf | hgt
    · calc roundEven x = ⌊y⌋ := by rw [roundEven, heq, if_pos hlt]
        _ ≤ roundEven y := floor_le_roundEven y
    · have hx : roundEven x = ⌊y⌋ + ⌊y⌋ % 2 := by
        rw [roundEven, heq, if_neg hhalf.not_lt, if_pos hhalf]
      rw [hx, roundEven, if_neg (by linarith)]
      split <;> omega
    · calc roundEven x ≤ ⌊y⌋ + 1 := heq ▸ roundEven_le_floor_add_one x
        _ = roundEven y := by
          rw [roundEven, if_neg (by linarith), if_neg (by linarith)]

theorem roundEven_nonneg {x : ℚ} (h : 0 ≤ x) : 0 ≤ roundEven x :=
  (Int.floor_nonneg.mpr h).trans (floor_le_roundEven x)

/-- Less than one half rounds to zero. -/
theorem roundEven_eq_zero {x : ℚ} (h : 0 ≤ x) (hhalf : x < 1 / 2) : roundEven x = 0 := by
  have hfloor : ⌊x⌋ = 0 := Int.floor_eq_zero_iff.mpr ⟨h, by linarith⟩
  rw [roundEven, hfloor, if_pos (by simpa using hhalf)]

/-! ### Formats -/

/-- A binary format: the bits of a mantissa, and the smallest exponent of its last bit. -/
structure BinaryFormat where
  precision : ℕ
  minExponent : ℤ
  precision_pos : 0 < precision

namespace BinaryFormat

variable (F : BinaryFormat)

/-- The exponent of the last bit of the numbers as large as `x`. -/
def exponent (x : ℚ) : ℤ := max (Int.log 2 x + 1 - F.precision) F.minExponent

/-- A number that is not negative, rounded to a multiple of the last bit. -/
def roundMagnitude (x : ℚ) : ℚ := roundEven (x / 2 ^ F.exponent x) * 2 ^ F.exponent x

theorem minExponent_le_exponent (x : ℚ) : F.minExponent ≤ F.exponent x := le_max_right _ _

theorem exponent_mono {x y : ℚ} (hx : 0 < x) (h : x ≤ y) : F.exponent x ≤ F.exponent y := by
  have := Int.log_mono_right (b := 2) hx h
  rw [exponent, exponent]
  omega

theorem roundMagnitude_nonneg {x : ℚ} (hx : 0 ≤ x) : 0 ≤ F.roundMagnitude x := by
  have hn : 0 ≤ roundEven (x / 2 ^ F.exponent x) := roundEven_nonneg (by positivity)
  exact mul_nonneg (by exact_mod_cast hn) (by positivity)

@[simp] theorem roundMagnitude_zero : F.roundMagnitude 0 = 0 := by
  have h : roundEven (0 / 2 ^ F.exponent 0) = 0 := by rw [zero_div]; exact roundEven_intCast 0
  rw [roundMagnitude, h, Int.cast_zero, zero_mul]

/-- The scaled number has at most `precision` bits before the point. -/
theorem scaled_lt (x : ℚ) : x / 2 ^ F.exponent x < 2 ^ F.precision := by
  have hlog : x < 2 ^ (Int.log 2 x + 1) := Int.lt_zpow_succ_log_self (by norm_num) x
  rw [div_lt_iff₀ (by positivity), ← zpow_natCast, ← zpow_add₀ (by norm_num)]
  refine hlog.trans_le (zpow_le_zpow_right₀ (by norm_num) ?_)
  rw [exponent]
  omega

/-- It has that many if the exponent is not the smallest. -/
theorem le_scaled {x : ℚ} (hx : 0 < x) (hexp : F.minExponent < F.exponent x) :
    2 ^ (F.precision - 1) ≤ x / 2 ^ F.exponent x := by
  have hlog : (2 : ℚ) ^ Int.log 2 x ≤ x := Int.zpow_log_le_self (by norm_num) hx
  have hpos := F.precision_pos
  rw [le_div_iff₀ (by positivity), ← zpow_natCast, ← zpow_add₀ (by norm_num)]
  refine le_trans (zpow_le_zpow_right₀ (by norm_num) ?_) hlog
  rw [exponent] at hexp ⊢
  omega

/-- The rounded mantissa has at most `precision` bits, or it is the power of two above them. -/
theorem roundEven_scaled_le (x : ℚ) : roundEven (x / 2 ^ F.exponent x) ≤ 2 ^ F.precision := by
  have h := roundEven_mono (F.scaled_lt x).le
  have hpow : roundEven ((2 : ℚ) ^ F.precision) = 2 ^ F.precision := by
    exact_mod_cast roundEven_intCast (2 ^ F.precision)
  rwa [hpow] at h

theorem le_roundEven_scaled {x : ℚ} (hx : 0 < x) (hexp : F.minExponent < F.exponent x) :
    2 ^ (F.precision - 1) ≤ roundEven (x / 2 ^ F.exponent x) := by
  have h := roundEven_mono (F.le_scaled hx hexp)
  have hpow : roundEven ((2 : ℚ) ^ (F.precision - 1)) = 2 ^ (F.precision - 1) := by
    exact_mod_cast roundEven_intCast (2 ^ (F.precision - 1))
  rwa [hpow] at h

theorem roundMagnitude_mono {x y : ℚ} (hx : 0 ≤ x) (h : x ≤ y) : F.roundMagnitude x ≤ F.roundMagnitude y := by
  rcases hx.eq_or_lt with rfl | hx
  · rw [roundMagnitude_zero]
    exact F.roundMagnitude_nonneg h
  have hy : 0 < y := hx.trans_le h
  rw [roundMagnitude, roundMagnitude]
  rcases (F.exponent_mono hx h).lt_or_eq with hlt | heq
  · -- the power of two between the binades separates the results
    have hpos := F.precision_pos
    have hlow : (roundEven (x / 2 ^ F.exponent x) : ℚ) ≤ 2 ^ F.precision := by
      exact_mod_cast F.roundEven_scaled_le x
    have hhigh : (2 : ℚ) ^ (F.precision - 1) ≤ roundEven (y / 2 ^ F.exponent y) := by
      exact_mod_cast F.le_roundEven_scaled hy ((F.minExponent_le_exponent x).trans_lt hlt)
    calc roundEven (x / 2 ^ F.exponent x) * 2 ^ F.exponent x
        ≤ (2 : ℚ) ^ F.precision * 2 ^ F.exponent x := by gcongr
      _ = 2 ^ (F.precision + F.exponent x) := by rw [zpow_add₀ (by norm_num), zpow_natCast]
      _ ≤ 2 ^ ((F.precision - 1 : ℕ) + F.exponent y) :=
          zpow_le_zpow_right₀ (by norm_num) (by omega)
      _ = 2 ^ (F.precision - 1) * 2 ^ F.exponent y := by rw [zpow_add₀ (by norm_num), zpow_natCast]
      _ ≤ roundEven (y / 2 ^ F.exponent y) * 2 ^ F.exponent y := by gcongr
  · rw [heq]
    have hround : roundEven (x / 2 ^ F.exponent y) ≤ roundEven (y / 2 ^ F.exponent y) :=
      roundEven_mono (by gcongr)
    have hround : (roundEven (x / 2 ^ F.exponent y) : ℚ) ≤ roundEven (y / 2 ^ F.exponent y) := by
      exact_mod_cast hround
    gcongr

/-- A multiple of the last bit is not changed. -/
theorem roundMagnitude_of_multiple {x : ℚ} {n : ℤ} (h : x = n * 2 ^ F.exponent x) : F.roundMagnitude x = x := by
  have hscaled : x / 2 ^ F.exponent x = n := by
    rw [div_eq_iff (by positivity)]
    exact h
  rw [roundMagnitude, hscaled, roundEven_intCast, ← h]

/-- A natural number that fits in the mantissa is not changed. -/
theorem roundMagnitude_natCast {n : ℕ} (hn : n < 2 ^ F.precision) (hmin : F.minExponent ≤ 0) :
    F.roundMagnitude n = n := by
  have hexp : F.exponent n ≤ 0 := by
    have hlog : Int.log 2 (n : ℚ) < F.precision := by
      rw [Int.log_natCast]
      exact_mod_cast Nat.log_lt_of_lt_pow' F.precision_pos.ne' hn
    rw [exponent]
    omega
  apply F.roundMagnitude_of_multiple (n := n * 2 ^ (-F.exponent n).toNat)
  push_cast
  rw [← zpow_natCast, Int.toNat_of_nonneg (by omega), mul_assoc, ← zpow_add₀ (by norm_num), neg_add_cancel,
    zpow_zero, mul_one]

/-- What is less than half the smallest number is rounded to zero. -/
theorem roundMagnitude_eq_zero {x : ℚ} (hx : 0 < x) (hsmall : x < 2 ^ (F.minExponent - 1)) :
    F.roundMagnitude x = 0 := by
  have hexp : F.exponent x = F.minExponent := by
    have hlog : Int.log 2 x < F.minExponent - 1 := (Int.lt_zpow_iff_log_lt (by norm_num) hx).mp (by exact_mod_cast hsmall)
    have hpos := F.precision_pos
    rw [exponent]
    omega
  have hhalf : x / 2 ^ F.minExponent < 1 / 2 := by
    rw [div_lt_iff₀ (by positivity)]
    rwa [zpow_sub_one₀ (by norm_num), mul_comm, inv_eq_one_div] at hsmall
  rw [roundMagnitude, hexp, roundEven_eq_zero (by positivity) hhalf, Int.cast_zero, zero_mul]

end BinaryFormat

end ToyBox.Rounding
