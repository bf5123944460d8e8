import ToyBox.Cxx.Binary32
import ToyBox.Cxx.Literal

/-! What `strtof` makes of decimal numbers. A string without letters is read as decimal digits, never as an
infinity, a NaN, a hexadecimal number or one with an exponent, so that the result is a number; and the text of
a decimal literal is read to its end and rounded once. -/

namespace ToyBox.Cxx

open Rounding

/-! ### Rounding to a `float` -/

theorem toBinary32_of_nonneg {x : ℚ} (hx : 0 ≤ x) : toBinary32 x = min (binary32.roundMagnitude x) overflow :=
  if_neg hx.not_gt

theorem toBinary32_neg (x : ℚ) : toBinary32 (-x) = -toBinary32 x := by
  rw [toBinary32, toBinary32, neg_neg]
  rcases lt_trichotomy x 0 with hx | rfl | hx
  · rw [if_pos hx, if_neg (by linarith), neg_neg]
  · simp [overflow_pos.le]
  · rw [if_neg hx.not_gt, if_pos (by linarith)]

/-- Rounding keeps the order, though not strictly. -/
theorem toBinary32_mono {x y : ℚ} (h : x ≤ y) : toBinary32 x ≤ toBinary32 y := by
  have hmono : ∀ {a b : ℚ}, 0 ≤ a → a ≤ b →
      min (binary32.roundMagnitude a) overflow ≤ min (binary32.roundMagnitude b) overflow :=
    fun ha hab => min_le_min_right _ (binary32.roundMagnitude_mono ha hab)
  have hnonneg : ∀ {a : ℚ}, 0 ≤ a → 0 ≤ min (binary32.roundMagnitude a) overflow :=
    fun ha => le_min (binary32.roundMagnitude_nonneg ha) overflow_pos.le
  rw [toBinary32, toBinary32]
  rcases lt_or_ge x 0 with hx | hx
  · rw [if_pos hx]
    split
    case isTrue hy => exact neg_le_neg (hmono (by linarith) (by linarith))
    case isFalse hy => exact (neg_nonpos.mpr (hnonneg (by linarith))).trans (hnonneg (not_lt.mp hy))
  · rw [if_neg hx.not_gt, if_neg (hx.trans h).not_gt]
    exact hmono hx h

/-! ### Strings without letters -/

/-- White space, signs, points and digits come before the letters. -/
def NoLetters (str : Bytes) : Prop := ∀ b ∈ str, b.toNat ≤ 57

theorem toLower_of_le {b : UInt8} (h : b.toNat ≤ 57) : toLower b = b := by
  rw [toLower, if_neg]
  rw [Bool.and_eq_true, decide_eq_true_eq, UInt8.le_iff_toNat_le]
  intro hle
  have : (65 : UInt8).toNat ≤ b.toNat := hle.1
  have hnat : (65 : UInt8).toNat = 65 := rfl
  omega

/-- A keyword has a letter. -/
theorem stripKeyword_eq_none {keyword str : Bytes} (hkeyword : ∃ k ∈ keyword, 57 < k.toNat) (h : NoLetters str) :
    stripKeyword keyword str = none := by
  induction keyword generalizing str with
  | nil => exact absurd hkeyword (by simp)
  | cons k keyword ih =>
      cases str with
      | nil => rfl
      | cons b str =>
          obtain ⟨hb, hstr⟩ := List.forall_mem_cons.mp h
          rw [stripKeyword, toLower_of_le hb]
          split
          case isFalse => rfl
          case isTrue hk =>
            obtain ⟨k', hk', hletter⟩ := hkeyword
            rcases List.mem_cons.mp hk' with rfl | hmem
            · rw [hk] at hb
              omega
            · exact ih ⟨k', hmem, hletter⟩ hstr

theorem exponent_of_noLetters {str : Bytes} (h : NoLetters str) : exponent 101 str = (0, str) := by
  cases str with
  | nil => rfl
  | cons b rest =>
      have hb := h b List.mem_cons_self
      have hmark : b ≠ 101 := by
        rintro rfl
        exact absurd hb (by decide)
      rw [exponent, toLower_of_le hb]
      dsimp only
      rw [if_neg fun h => hmark h.1]

theorem NoLetters.of_sublist {str str' : Bytes} (h : NoLetters str) (hsub : str'.Sublist str) : NoLetters str' :=
  fun b hb => h b (hsub.subset hb)

theorem sign_sublist (str : Bytes) : (sign str).2.Sublist str := by
  unfold sign
  split
  · exact List.sublist_cons_self _ _
  · exact List.sublist_cons_self _ _
  · exact List.Sublist.refl _

theorem fraction_sublist (digit : UInt8 → Bool) (str : Bytes) : (fraction digit str).2.Sublist str := by
  unfold fraction
  split
  · exact (List.dropWhile_sublist _).cons _
  · exact List.Sublist.refl _

/-- Digits without an exponent. -/
theorem strtofDecimal_of_noLetters {str : Bytes} (h : NoLetters str) :
    strtofDecimal str =
      if str.takeWhile isDigit = [] ∧ (fraction isDigit (str.dropWhile isDigit)).1 = [] then none
      else some (Float32.ofScientific
          (digitsValue 10 (str.takeWhile isDigit ++ (fraction isDigit (str.dropWhile isDigit)).1))
          (decide (0 < (fraction isDigit (str.dropWhile isDigit)).1.length))
          (fraction isDigit (str.dropWhile isDigit)).1.length,
        (fraction isDigit (str.dropWhile isDigit)).2) := by
  have hrest : NoLetters (fraction isDigit (str.dropWhile isDigit)).2 :=
    h.of_sublist ((fraction_sublist _ _).trans (List.dropWhile_sublist _))
  have hpower : ∀ n : ℕ, ((0 : ℤ) - n < 0 ↔ 0 < n) ∧ ((0 : ℤ) - n).natAbs = n := fun n => by omega
  rw [strtofDecimal]
  dsimp only
  split
  case isTrue => rfl
  case isFalse =>
    rw [exponent_of_noLetters hrest]
    dsimp only
    rw [(hpower _).2, decide_eq_decide.mpr (hpower _).1]

/-- A string without letters is no keyword and not hexadecimal. -/
theorem strtof_of_noLetters {str : Bytes} (h : NoLetters str) :
    strtof str =
      match strtofDecimal (sign (str.dropWhile isSpace)).2 with
      | none => (0, str)
      | some (value, rest) => (if (sign (str.dropWhile isSpace)).1 then -value else value, rest) := by
  have hbody : NoLetters (sign (str.dropWhile isSpace)).2 :=
    h.of_sublist ((sign_sublist _).trans (List.dropWhile_sublist _))
  have hinf : strtofInfinity (sign (str.dropWhile isSpace)).2 = none := by
    rw [strtofInfinity, stripKeyword_eq_none (by decide) hbody, stripKeyword_eq_none (by decide) hbody]
    rfl
  have hnan : strtofNan (sign (str.dropWhile isSpace)).2 = none := by
    rw [strtofNan, stripKeyword_eq_none (by decide) hbody]
    rfl
  have hhex : strtofHex (sign (str.dropWhile isSpace)).2 = none := by
    rw [strtofHex, stripKeyword_eq_none (by decide) hbody]
  rw [strtof]
  dsimp only
  rw [hinf, hnan, hhex]
  rfl

theorem isNumber_zero : IsNumber 0 := by
  obtain ⟨h, -⟩ := value_ofScientific 0 0
  exact h

/-- Without letters the result is a number. -/
theorem isNumber_strtof {str : Bytes} (h : NoLetters str) : IsNumber (strtof str).1 := by
  have hbody : NoLetters (sign (str.dropWhile isSpace)).2 :=
    h.of_sublist ((sign_sublist _).trans (List.dropWhile_sublist _))
  rw [strtof_of_noLetters h, strtofDecimal_of_noLetters hbody]
  generalize (sign (str.dropWhile isSpace)).2.takeWhile isDigit = integer
  generalize fraction isDigit ((sign (str.dropWhile isSpace)).2.dropWhile isDigit) = frac
  have hnumber := (value_ofScientific (digitsValue 10 (integer ++ frac.1)) frac.1.length).1
  by_cases hnone : integer = [] ∧ frac.1 = []
  · rw [if_pos hnone]
    exact isNumber_zero
  · rw [if_neg hnone]
    dsimp only
    split
    · exact (isNumber_value_neg hnumber).1
    · exact hnumber

/-! ### Literals -/

theorem IntegerLiteral.noLetters_text (l : IntegerLiteral) : NoLetters l.text := by
  intro b hb
  rw [IntegerLiteral.text, List.mem_append, List.mem_append] at hb
  rcases hb with hb | hb | hb
  · have hspace := l.isSpace_of_mem b hb
    simp only [isSpace, Bool.or_eq_true, Bool.and_eq_true, beq_iff_eq, decide_eq_true_eq,
      UInt8.le_iff_toNat_le] at hspace
    rcases hspace with rfl | ⟨-, hle⟩
    · decide
    · exact hle.trans (by decide)
  · rcases l.sign_eq with hsign | hsign | hsign <;> rw [hsign] at hb
    · exact absurd hb List.not_mem_nil
    · rw [List.mem_singleton.mp hb]
      decide
    · rw [List.mem_singleton.mp hb]
      decide
  · exact (isDigit_iff.mp (l.isDigit_of_mem b hb)).2

/-- No byte of an integer literal is a point. -/
theorem IntegerLiteral.point_not_mem_text (l : IntegerLiteral) : (46 : UInt8) ∉ l.text := by
  rw [IntegerLiteral.text, List.mem_append, List.mem_append]
  rintro (hb | hb | hb)
  · exact absurd (l.isSpace_of_mem 46 hb) (by decide)
  · rcases l.sign_eq with hsign | hsign | hsign <;> rw [hsign] at hb <;> revert hb <;> decide
  · exact absurd (l.isDigit_of_mem 46 hb) (by decide)

theorem noLetters_append_point {whole part : Bytes} (hwhole : NoLetters whole) (hpart : NoLetters part) :
    NoLetters (whole ++ 46 :: part) := by
  intro b hb
  rcases List.mem_append.mp hb with hb | hb
  · exact hwhole b hb
  · rcases List.mem_cons.mp hb with rfl | hb
    · decide
    · exact hpart b hb

theorem noLetters_of_isDigit {digits : Bytes} (h : ∀ b ∈ digits, isDigit b) : NoLetters digits :=
  fun b hb => (isDigit_iff.mp (h b hb)).2

theorem strtofDecimal_point {digits part : Bytes} (hdigits : ∀ b ∈ digits, isDigit b) (hpart : NoLetters part) :
    strtofDecimal (digits ++ 46 :: part) =
      if digits = [] ∧ part.takeWhile isDigit = [] then none
      else some (Float32.ofScientific (digitsValue 10 (digits ++ part.takeWhile isDigit))
          (decide (0 < (part.takeWhile isDigit).length)) (part.takeWhile isDigit).length,
        part.dropWhile isDigit) := by
  have hpoint : isDigit 46 = false := by decide
  have htake : (digits ++ 46 :: part).takeWhile isDigit = digits := by
    rw [List.takeWhile_append_of_pos hdigits, List.takeWhile_cons_of_neg (by simp [hpoint]), List.append_nil]
  have hdrop : (digits ++ 46 :: part).dropWhile isDigit = 46 :: part := by
    rw [List.dropWhile_append_of_pos hdigits, List.dropWhile_cons_of_neg (by simp [hpoint])]
  rw [strtofDecimal_of_noLetters (noLetters_append_point (noLetters_of_isDigit hdigits) hpart), htake, hdrop]
  rfl

/-- A decimal literal by its parts: an optional minus, digits, a point, and digits. -/
structure DecimalLiteral where
  negative : Bool
  whole : Bytes
  part : Bytes
  isDigit_of_mem_whole : ∀ b ∈ whole, isDigit b
  isDigit_of_mem_part : ∀ b ∈ part, isDigit b
  whole_ne_nil : whole ≠ []
  part_ne_nil : part ≠ []

namespace DecimalLiteral

variable (l : DecimalLiteral)

def sign : Bytes := if l.negative then [45] else []

/-- The literal as it is written. -/
def text : Bytes := l.sign ++ (l.whole ++ 46 :: l.part)

def magnitude : ℚ := digitsValue 10 l.whole + digitsValue 10 l.part / 10 ^ l.part.length

/-- The number it stands for. -/
def value : ℚ := if l.negative then -l.magnitude else l.magnitude

theorem magnitude_nonneg : 0 ≤ l.magnitude := by
  rw [magnitude]
  positivity

theorem magnitude_eq : l.magnitude = (digitsValue 10 (l.whole ++ l.part) : ℕ) / 10 ^ l.part.length := by
  rw [magnitude, digitsValue_append]
  push_cast
  field_simp

/-- The sign, and the digits behind it, as an integer literal. -/
def wholeLiteral : IntegerLiteral where
  space := []
  sign := l.sign
  digits := l.whole
  isSpace_of_mem := by simp
  sign_eq := by
    rw [sign]
    split <;> simp
  isDigit_of_mem := l.isDigit_of_mem_whole
  digits_ne_nil := l.whole_ne_nil

theorem text_eq : l.text = l.wholeLiteral.text ++ 46 :: l.part := by
  rw [text, ← List.append_assoc]
  rfl

theorem sign_text : Cxx.sign (l.text.dropWhile isSpace) = (l.negative, l.whole ++ 46 :: l.part) := by
  have hnegative : decide (l.wholeLiteral.sign = [45]) = l.negative := by
    show decide (l.sign = [45]) = l.negative
    rw [sign]
    cases l.negative <;> rfl
  rw [text_eq, l.wholeLiteral.sign_text_append, hnegative]
  rfl

theorem noLetters_text : NoLetters l.text := by
  rw [text_eq]
  exact noLetters_append_point l.wholeLiteral.noLetters_text (noLetters_of_isDigit l.isDigit_of_mem_part)

theorem strtofDecimal_body :
    strtofDecimal (l.whole ++ 46 :: l.part) =
      some (Float32.ofScientific (digitsValue 10 (l.whole ++ l.part)) (decide (0 < l.part.length)) l.part.length, []) := by
  have htake : l.part.takeWhile isDigit = l.part := List.takeWhile_eq_self_iff.mpr l.isDigit_of_mem_part
  have hdrop : l.part.dropWhile isDigit = [] := List.dropWhile_eq_nil_iff.mpr l.isDigit_of_mem_part
  rw [strtofDecimal_point l.isDigit_of_mem_whole (noLetters_of_isDigit l.isDigit_of_mem_part), htake, hdrop,
    if_neg fun h => l.whole_ne_nil h.1]

/-- What is written is one literal. -/
theorem text_injective : Function.Injective text := by
  intro a b h
  have hparts : (a.negative, a.whole ++ 46 :: a.part) = (b.negative, b.whole ++ 46 :: b.part) := by
    rw [← a.sign_text, h, b.sign_text]
  obtain ⟨hnegative, hbody⟩ := Prod.mk.inj hparts
  have htake : ∀ l : DecimalLiteral, (l.whole ++ 46 :: l.part).takeWhile isDigit = l.whole := by
    intro l
    rw [List.takeWhile_append_of_pos l.isDigit_of_mem_whole, List.takeWhile_cons_of_neg (by decide), List.append_nil]
  have hwhole : a.whole = b.whole := by rw [← htake a, hbody, htake b]
  rw [hwhole, List.append_cancel_left_eq, List.cons.injEq] at hbody
  cases a
  cases b
  simp_all

/-- A decimal literal is read to its end, and rounded. -/
theorem strtof_text :
    IsNumber (strtof l.text).1 ∧ Cxx.value (strtof l.text).1 = toBinary32 l.value ∧ (strtof l.text).2 = [] := by
  obtain ⟨hnumber, hvalue⟩ := value_ofScientific (digitsValue 10 (l.whole ++ l.part)) l.part.length
  rw [← l.magnitude_eq, ← toBinary32_of_nonneg l.magnitude_nonneg] at hvalue
  rw [strtof_of_noLetters l.noLetters_text, l.sign_text]
  dsimp only
  rw [l.strtofDecimal_body, value]
  dsimp only
  cases l.negative with
  | true =>
      obtain ⟨hneg, hvalue'⟩ := isNumber_value_neg hnumber
      refine ⟨hneg, ?_, rfl⟩
      rw [if_pos rfl, if_pos rfl, hvalue', hvalue, toBinary32_neg]
  | false => exact ⟨hnumber, hvalue, rfl⟩

end DecimalLiteral

/-! ### Literals with an exponent -/

/-- A decimal literal with a negative exponent, the point and what follows it left out when there is no fraction. -/
structure ExponentLiteral where
  negative : Bool
  whole : Bytes
  part : Bytes
  power : Bytes
  isDigit_of_mem_whole : ∀ b ∈ whole, isDigit b
  isDigit_of_mem_part : ∀ b ∈ part, isDigit b
  isDigit_of_mem_power : ∀ b ∈ power, isDigit b
  whole_ne_nil : whole ≠ []
  power_ne_nil : power ≠ []

namespace ExponentLiteral

variable (l : ExponentLiteral)

def mantissaPart : Bytes := if l.part = [] then [] else 46 :: l.part

/-- The exponent with its mark and its minus. -/
def powerText : Bytes := 101 :: 45 :: l.power

/-- The literal without its sign. -/
def body : Bytes := l.whole ++ (l.mantissaPart ++ l.powerText)

/-- The literal as it is written. -/
def text : Bytes := (if l.negative then [45] else []) ++ l.body

theorem head_body : ∃ d ds, l.body = d :: ds ∧ isDigit d := by
  obtain ⟨d, ds, h⟩ := List.exists_cons_of_ne_nil l.whole_ne_nil
  exact ⟨d, _, by rw [body, h, List.cons_append], l.isDigit_of_mem_whole d (h ▸ List.mem_cons_self)⟩

theorem sign_text : Cxx.sign (l.text.dropWhile isSpace) = (l.negative, l.body) := by
  obtain ⟨d, ds, hbody, hd⟩ := l.head_body
  rw [text, hbody]
  cases l.negative with
  | true => rfl
  | false =>
      obtain ⟨hminus, hplus⟩ := ne_sign_of_isDigit hd
      rw [if_neg (by simp), List.nil_append, List.dropWhile_cons_of_neg (by simp [not_isSpace_of_isDigit hd])]
      unfold Cxx.sign
      split
      · exact absurd (List.cons.inj ‹_›).1 hminus
      · exact absurd (List.cons.inj ‹_›).1 hplus
      · rfl

theorem toLower_of_isDigit {b : UInt8} (h : isDigit b) : toLower b = b := toLower_of_le (isDigit_iff.mp h).2

/-- A keyword that begins with a letter. -/
theorem stripKeyword_body {k : UInt8} (keyword : Bytes) (hk : isDigit k = false) :
    stripKeyword (k :: keyword) l.body = none := by
  obtain ⟨d, ds, hbody, hd⟩ := l.head_body
  rw [hbody, stripKeyword, if_neg]
  rw [toLower_of_isDigit hd]
  rintro rfl
  rw [hd] at hk
  cases hk

theorem fraction_tail : fraction isDigit (l.mantissaPart ++ l.powerText) = (l.part, l.powerText) := by
  rw [mantissaPart, powerText]
  by_cases hpart : l.part = []
  · rw [if_pos hpart, hpart]
    rfl
  · rw [if_neg hpart, List.cons_append, fraction, List.takeWhile_append_of_pos l.isDigit_of_mem_part,
      List.dropWhile_append_of_pos l.isDigit_of_mem_part]
    show (l.part ++ [], _) = _
    rw [List.append_nil]
    rfl

theorem exponent_powerText : (exponent 101 l.powerText).2 = [] := by
  have htake : l.power.takeWhile isDigit = l.power := List.takeWhile_eq_self_iff.mpr l.isDigit_of_mem_power
  have hdrop : l.power.dropWhile isDigit = [] := List.dropWhile_eq_nil_iff.mpr l.isDigit_of_mem_power
  rw [powerText, exponent]
  simp only [Cxx.sign, htake, hdrop]
  rw [if_pos ⟨by decide, l.power_ne_nil⟩]

/-- Behind the digits there is no digit. -/
theorem head_tail : ∃ b bs, l.mantissaPart ++ l.powerText = b :: bs ∧ (b = 46 ∨ b = 101) := by
  rw [mantissaPart, powerText]
  by_cases hpart : l.part = []
  · exact ⟨101, _, by rw [if_pos hpart, List.nil_append], Or.inr rfl⟩
  · exact ⟨46, _, by rw [if_neg hpart, List.cons_append], Or.inl rfl⟩

theorem takeWhile_body : l.body.takeWhile isDigit = l.whole ∧
    l.body.dropWhile isDigit = l.mantissaPart ++ l.powerText := by
  obtain ⟨b, bs, htail, hb⟩ := l.head_tail
  have hdigit : isDigit b = false := by rcases hb with rfl | rfl <;> decide
  rw [body, List.takeWhile_append_of_pos l.isDigit_of_mem_whole, List.dropWhile_append_of_pos l.isDigit_of_mem_whole,
    htail, List.takeWhile_cons_of_neg (by simp [hdigit]), List.dropWhile_cons_of_neg (by simp [hdigit]),
    List.append_nil]
  exact ⟨rfl, rfl⟩

/-- It is not hexadecimal: behind a first zero there is a digit, a point or the exponent. -/
theorem strtofHex_body : strtofHex l.body = none := by
  have hx : toLower 46 ≠ 120 ∧ toLower 101 ≠ 120 := by decide
  have hnone : stripKeyword (ascii "0x") l.body = none := by
    obtain ⟨d, ds, hwhole⟩ := List.exists_cons_of_ne_nil l.whole_ne_nil
    rw [body, hwhole, List.cons_append]
    show stripKeyword [48, 120] _ = none
    rw [stripKeyword]
    split
    case isFalse => rfl
    case isTrue =>
      cases ds with
      | nil =>
          obtain ⟨b, bs, htail, hb⟩ := l.head_tail
          rw [List.nil_append, htail, stripKeyword, if_neg]
          rcases hb with rfl | rfl
          · exact hx.1
          · exact hx.2
      | cons d' ds =>
          have hd' : isDigit d' := l.isDigit_of_mem_whole d' (by rw [hwhole]; simp)
          rw [List.cons_append, stripKeyword, if_neg]
          rw [toLower_of_isDigit hd']
          rintro rfl
          cases hd'
  rw [strtofHex, hnone]

/-- A literal with an exponent is read to its end. -/
theorem strtof_text : (strtof l.text).2 = [] := by
  have hinfinity : stripKeyword (ascii "infinity") l.body = none := l.stripKeyword_body (ascii "nfinity") (by decide)
  have hinf : stripKeyword (ascii "inf") l.body = none := l.stripKeyword_body (ascii "nf") (by decide)
  have hnan : stripKeyword (ascii "nan") l.body = none := l.stripKeyword_body (ascii "an") (by decide)
  have hdecimal : ∃ value, strtofDecimal l.body = some (value, []) := by
    rw [strtofDecimal, l.takeWhile_body.1, l.takeWhile_body.2, l.fraction_tail]
    dsimp only
    rw [if_neg fun h => l.whole_ne_nil h.1, l.exponent_powerText]
    exact ⟨_, rfl⟩
  obtain ⟨value, hvalue⟩ := hdecimal
  rw [strtof, l.sign_text]
  dsimp only
  rw [strtofInfinity, hinfinity, hinf, strtofNan, hnan, l.strtofHex_body, hvalue]
  rfl

/-- It is no integer. -/
theorem strtol_text_ne_nil : (strtol l.text).2 ≠ [] := by
  rw [Ne, strtol_snd_eq_nil_iff]
  have hmem : (101 : UInt8) ∈ l.text := by simp [text, body, powerText]
  rintro (hnil | ⟨literal, hliteral⟩)
  · rw [hnil] at hmem
    cases hmem
  · rw [← hliteral] at hmem
    exact absurd (literal.noLetters_text 101 hmem) (by decide)

end ExponentLiteral

end ToyBox.Cxx
