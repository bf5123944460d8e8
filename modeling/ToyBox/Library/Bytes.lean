import Mathlib.Data.List.Basic

/-! Byte strings, ASCII literals and decimal numerals. -/

namespace ToyBox

/-- The bytes of a string. -/
abbrev Bytes := List UInt8

/-- The bytes of an ASCII literal. -/
def ascii (literal : String) : Bytes := literal.toList.map fun c => UInt8.ofNat c.toNat

def newline : UInt8 := 10
def tab : UInt8 := 9

/-- The decimal digits of a natural number. -/
def decimal (n : Nat) : Bytes := (Nat.toDigits 10 n).map fun c => UInt8.ofNat c.toNat

theorem isDigit_of_mem_decimal {n : Nat} {b : UInt8} (h : b ∈ decimal n) : 48 ≤ b.toNat ∧ b.toNat ≤ 57 := by
  obtain ⟨c, hc, rfl⟩ := List.mem_map.mp h
  have hdigit := Nat.isDigit_of_mem_toDigits (by omega) (by omega) hc
  rw [Char.isDigit, Bool.and_eq_true, decide_eq_true_eq, decide_eq_true_eq] at hdigit
  have hlow : 48 ≤ c.toNat := UInt32.le_iff_toNat_le.mp hdigit.1
  have hhigh : c.toNat ≤ 57 := UInt32.le_iff_toNat_le.mp hdigit.2
  rw [UInt8.toNat_ofNat_of_lt' (by show c.toNat < 256; omega)]
  exact ⟨hlow, hhigh⟩

/-- The digits can be read back. -/
theorem map_decimal (n : Nat) :
    (decimal n).map (fun b => Char.ofNat b.toNat) = Nat.toDigits 10 n := by
  rw [decimal, List.map_map, List.map_congr_left, List.map_id]
  intro c hc
  have hdigit := Nat.isDigit_of_mem_toDigits (by omega) (by omega) hc
  have hlt : c.toNat < 256 := by
    rw [Char.isDigit, Bool.and_eq_true, decide_eq_true_eq, decide_eq_true_eq] at hdigit
    exact Nat.lt_of_le_of_lt (UInt32.le_iff_toNat_le.mp hdigit.2) (by decide)
  simp [UInt8.toNat_ofNat_of_lt' hlt]

theorem decimal_injective : Function.Injective decimal := by
  intro m n h
  have hdigits : Nat.toDigits 10 m = Nat.toDigits 10 n := by
    rw [← map_decimal, ← map_decimal, h]
  rw [← Nat.ofDigitChars_ten_toDigits (n := m), hdigits, Nat.ofDigitChars_ten_toDigits]

end ToyBox
