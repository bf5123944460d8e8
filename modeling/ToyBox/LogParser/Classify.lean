import Mathlib.Algebra.Order.Ring.Int
import ToyBox.Cxx.Literal
import ToyBox.LogParser.Cell

/-! Which cells count as integers. The three integer types are for the strings `strtol` reads to the end,
and these are the integer literals and the empty string: there the end pointer is the start, which is also
the end of the string. -/

namespace ToyBox.LogParser

open Cxx

/-- The types of the branch `strtol` decides. -/
def integerTypes : List DataType := [.kInt, .kTimestamp, .kTelephone]

/-- Eleven digits that start like a telephone number. -/
def IsTelephone (colVal : Cell) : Prop :=
  colVal.length = 11 ∧ (∀ b ∈ colVal, isDigit b) ∧
    colVal.take 3 ∈ [ascii "130", ascii "131", ascii "132", ascii "134"]

instance : DecidablePred IsTelephone := fun _ => inferInstanceAs (Decidable (_ ∧ _ ∧ _))

/-- The type of an integer literal. -/
def literalType (l : IntegerLiteral) : DataType :=
  if kMinTimestamp ≤ l.value ∧ l.value ≤ kMaxTimestamp then .kTimestamp
  else if IsTelephone l.text then .kTelephone
  else .kInt

/-- The integer types are those of the integer literals, each literal has the type of its value and
digits, and no cell without a digit has one of them. -/
def ClassifiedExactly (colVal : Cell) : Prop :=
  (parseColumnDataType colVal ∈ integerTypes ↔ ∃ l : IntegerLiteral, l.text = colVal) ∧
  (∀ l : IntegerLiteral, l.text = colVal → parseColumnDataType colVal = literalType l) ∧
  (parseColumnDataType colVal ∈ integerTypes → ∃ b ∈ colVal, isDigit b)

/-! ### The telephone head -/

/-- The quotient is a telephone head exactly in two ranges. -/
theorem tdiv_mem_telephoneHeaderSet_iff (i : Int) :
    i.tdiv (10 ^ 8) ∈ kTelephoneHeaderSet ↔
      13000000000 ≤ i ∧ i < 13300000000 ∨ 13400000000 ≤ i ∧ i < 13500000000 := by
  rw [show kTelephoneHeaderSet = [130, 131, 132, 134] from rfl]
  simp only [List.mem_cons, List.not_mem_nil, or_false]
  rcases Int.le_total 0 i with hi | hi
  · rw [Int.tdiv_eq_ediv_of_nonneg hi]
    omega
  · have hquot : i.tdiv (10 ^ 8) = -(-i / 10 ^ 8) := by
      rw [← Int.tdiv_eq_ediv_of_nonneg (by omega), Int.neg_tdiv, Int.neg_neg]
    rw [hquot]
    omega

/-- A digit string is split into its first three digits and the others. -/
theorem digitsValue_take_drop (digits : Bytes) :
    digitsValue 10 digits =
      digitsValue 10 (digits.take 3) * 10 ^ (digits.length - 3) + digitsValue 10 (digits.drop 3) := by
  rw [← List.length_drop, ← digitsValue_append, List.take_append_drop]

/-- Eleven digits are a telephone number exactly if their value is in the ranges. -/
theorem isTelephone_iff_digitsValue {digits : Bytes} (hdigits : ∀ b ∈ digits, isDigit b)
    (hlen : digits.length = 11) :
    IsTelephone digits ↔ 13000000000 ≤ digitsValue 10 digits ∧ digitsValue 10 digits < 13300000000 ∨
      13400000000 ≤ digitsValue 10 digits ∧ digitsValue 10 digits < 13500000000 := by
  have htake : ∀ b ∈ digits.take 3, isDigit b := fun b hb => hdigits b (List.mem_of_mem_take hb)
  have hhead : ∀ head : Bytes, (∀ b ∈ head, isDigit b) → head.length = 3 →
      (digits.take 3 = head ↔ digitsValue 10 (digits.take 3) = digitsValue 10 head) := by
    intro head hall hthree
    constructor
    · exact fun h => h ▸ rfl
    · exact digitsValue_injective htake hall (by rw [List.length_take, hlen, hthree]; rfl)
  have hdrop : digitsValue 10 (digits.drop 3) < 10 ^ (digits.drop 3).length :=
    digitsValue_lt fun b hb => hdigits b (List.mem_of_mem_drop hb)
  have hsplit := digitsValue_take_drop digits
  rw [List.length_drop, hlen] at hdrop
  rw [hlen] at hsplit
  have h130 := hhead (ascii "130") (List.all_eq_true.mp rfl) rfl
  have h131 := hhead (ascii "131") (List.all_eq_true.mp rfl) rfl
  have h132 := hhead (ascii "132") (List.all_eq_true.mp rfl) rfl
  have h134 := hhead (ascii "134") (List.all_eq_true.mp rfl) rfl
  rw [show digitsValue 10 (ascii "130") = 130 from rfl] at h130
  rw [show digitsValue 10 (ascii "131") = 131 from rfl] at h131
  rw [show digitsValue 10 (ascii "132") = 132 from rfl] at h132
  rw [show digitsValue 10 (ascii "134") = 134 from rfl] at h134
  have hmem : IsTelephone digits ↔ digits.take 3 = ascii "130" ∨ digits.take 3 = ascii "131" ∨
      digits.take 3 = ascii "132" ∨ digits.take 3 = ascii "134" := by
    rw [IsTelephone, and_iff_right hlen, and_iff_right hdigits]
    simp only [List.mem_cons, List.not_mem_nil, or_false]
  rw [hmem, h130, h131, h132, h134]
  omega

/-- The test of the code, on the clamped value of a literal of eleven characters. With a character that is
no digit the value has at most ten digits, and its head is too small. -/
theorem telephone_test_iff (l : IntegerLiteral) :
    l.text.length = 11 ∧ (max kLongMin (min kLongMax l.value)).tdiv (10 ^ 8) ∈ kTelephoneHeaderSet ↔
      IsTelephone l.text := by
  have hclamp : (max kLongMin (min kLongMax l.value)).tdiv (10 ^ 8) ∈ kTelephoneHeaderSet ↔
      13000000000 ≤ l.value ∧ l.value < 13300000000 ∨ 13400000000 ≤ l.value ∧ l.value < 13500000000 := by
    rw [tdiv_mem_telephoneHeaderSet_iff, kLongMin, kLongMax]
    omega
  rw [hclamp]
  by_cases hlen : l.text.length = 11
  case neg => exact ⟨fun h => absurd h.1 hlen, fun h => absurd h.1 hlen⟩
  have hparts : l.space.length + (l.sign.length + l.digits.length) = 11 := by
    rw [← hlen, IntegerLiteral.text, List.length_append, List.length_append]
  rw [and_iff_right hlen]
  by_cases hdigits : l.digits.length = 11
  · have hspace : l.space = [] := List.length_eq_zero_iff.mp (by omega)
    have hsign : l.sign = [] := List.length_eq_zero_iff.mp (by omega)
    have htext : l.text = l.digits := by rw [IntegerLiteral.text, hspace, hsign]; rfl
    have hvalue : l.value = digitsValue 10 l.digits := by
      rw [IntegerLiteral.value, hsign]; rfl
    rw [htext, hvalue, isTelephone_iff_digitsValue l.isDigit_of_mem hdigits]
    omega
  · have hten : l.value < 10 ^ 10 :=
      l.value_bounds.2.trans_le (pow_le_pow_right₀ (by norm_num) (by omega))
    constructor
    · intro h
      omega
    · rintro ⟨-, hall, -⟩
      rw [l.text_eq_digits hall] at hlen
      exact absurd hlen hdigits

/-! ### The classification -/

/-- A literal has the type of its value and its digits; clamping does not matter. -/
theorem parseColumnDataType_text (l : IntegerLiteral) : parseColumnDataType l.text = literalType l := by
  have hrange : kMinTimestamp ≤ max kLongMin (min kLongMax l.value) ∧
      max kLongMin (min kLongMax l.value) ≤ kMaxTimestamp ↔
        kMinTimestamp ≤ l.value ∧ l.value ≤ kMaxTimestamp := by
    rw [kMinTimestamp, kMaxTimestamp, kLongMin, kLongMax]
    omega
  rw [parseColumnDataType, l.strtol_text, literalType]
  simp only [if_true, hrange, telephone_test_iff]

/-- A cell has an integer type exactly if it is a literal or empty. -/
theorem parseColumnDataType_mem_iff (colVal : Cell) :
    parseColumnDataType colVal ∈ integerTypes ↔ colVal = [] ∨ ∃ l : IntegerLiteral, l.text = colVal := by
  rw [← strtol_snd_eq_nil_iff]
  constructor
  · intro hmem
    by_contra hend
    rw [parseColumnDataType] at hmem
    simp only [if_neg hend] at hmem
    revert hmem
    split
    · decide
    · split <;> decide
  · intro hend
    rcases (strtol_snd_eq_nil_iff colVal).mp hend with rfl | ⟨l, rfl⟩
    · decide
    · rw [parseColumnDataType_text, literalType]
      split
      · decide
      · split <;> decide

/-- The classification is exact on every string but the empty one. -/
theorem classifiedExactly_iff (colVal : Cell) : ClassifiedExactly colVal ↔ colVal ≠ [] := by
  constructor
  · rintro ⟨hmem, -⟩ rfl
    obtain ⟨l, hl⟩ := hmem.mp (by decide)
    exact l.text_ne_nil hl
  · intro hne
    have hmem : parseColumnDataType colVal ∈ integerTypes ↔ ∃ l : IntegerLiteral, l.text = colVal := by
      rw [parseColumnDataType_mem_iff, or_iff_right hne]
    refine ⟨hmem, ?_, ?_⟩
    · rintro l rfl
      exact parseColumnDataType_text l
    · intro htype
      obtain ⟨l, rfl⟩ := hmem.mp htype
      exact l.exists_isDigit_mem_text

/-- An empty cell is a `kInt` without a digit. -/
theorem not_classifiedExactly_empty : ¬∀ colVal : Cell, 0 ∉ colVal → ClassifiedExactly colVal := by
  intro hexact
  obtain ⟨-, -, hdigit⟩ := hexact [] List.not_mem_nil
  obtain ⟨b, hb, -⟩ := hdigit (by decide)
  exact List.not_mem_nil hb

end ToyBox.LogParser
