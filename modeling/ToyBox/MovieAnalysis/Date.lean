import ToyBox.Cxx.Literal

/-! Calendar dates, the text pandas gives them, and the order of the two. -/

namespace ToyBox.MovieAnalysis

open Cxx

def isLeap (year : Nat) : Bool := year % 4 == 0 && (year % 100 != 0 || year % 400 == 0)

def daysIn (year month : Nat) : Nat :=
  if month = 2 then if isLeap year then 29 else 28
  else if month ∈ [4, 6, 9, 11] then 30 else 31

/-- A date of the calendar. -/
structure Date where
  year : Nat
  month : Nat
  day : Nat
  year_mem : 1 ≤ year ∧ year ≤ 9999
  month_mem : 1 ≤ month ∧ month ≤ 12
  day_mem : 1 ≤ day ∧ day ≤ daysIn year month
deriving DecidableEq

/-- The number that is written in at least `width` digits, cut to the last `width` of them. -/
def padded : Nat → Nat → Bytes
  | 0, _ => []
  | width + 1, n => padded width (n / 10) ++ [UInt8.ofNat (48 + n % 10)]

theorem length_padded (width n : Nat) : (padded width n).length = width := by
  induction width generalizing n with
  | zero => rfl
  | succ width ih => rw [padded, List.length_append, ih, List.length_singleton]

theorem toNat_digit (n : Nat) : (UInt8.ofNat (48 + n % 10)).toNat = 48 + n % 10 :=
  UInt8.toNat_ofNat_of_lt' (by show 48 + n % 10 < 256; omega)

theorem isDigit_digit (n : Nat) : isDigit (UInt8.ofNat (48 + n % 10)) := by
  rw [isDigit_iff, toNat_digit]
  omega

theorem forall_isDigit_padded (width n : Nat) : ∀ b ∈ padded width n, isDigit b := by
  induction width generalizing n with
  | zero => exact fun b hb => absurd hb List.not_mem_nil
  | succ width ih =>
      intro b hb
      rcases List.mem_append.mp hb with hb | hb
      · exact ih _ b hb
      · rw [List.mem_singleton.mp hb]
        exact isDigit_digit n

theorem digitsValue_padded {width n : Nat} (h : n < 10 ^ width) : digitsValue 10 (padded width n) = n := by
  induction width generalizing n with
  | zero =>
      obtain rfl : n = 0 := Nat.lt_one_iff.mp h
      rfl
  | succ width ih =>
      have hdigit : digitsValue 10 [UInt8.ofNat (48 + n % 10)] = n % 10 := by
        rw [digitsValue_cons, digitsValue_nil, digitValue_of_isDigit (isDigit_digit n), toNat_digit]
        simp
      rw [padded, digitsValue_append, ih (by rw [Nat.pow_succ] at h; omega), hdigit]
      simp only [List.length_singleton, Nat.pow_one]
      omega

theorem padded_injective {width m n : Nat} (hm : m < 10 ^ width) (hn : n < 10 ^ width)
    (h : padded width m = padded width n) : m = n := by
  rw [← digitsValue_padded hm, h, digitsValue_padded hn]

/-- Numbers that are padded to one width are ordered byte-wise. -/
theorem padded_lt_iff {width m n : Nat} (hm : m < 10 ^ width) (hn : n < 10 ^ width) :
    padded width m < padded width n ↔ m < n := by
  rw [lt_iff_digitsValue_lt (forall_isDigit_padded width m) (forall_isDigit_padded width n)
    (by rw [length_padded, length_padded]), digitsValue_padded hm, digitsValue_padded hn]

/-- Behind prefixes of one length the rest decides only when the prefixes are equal. -/
theorem prefixed_lt_iff {xs ys : Bytes} (us vs : Bytes) (hlen : xs.length = ys.length) :
    xs ++ us < ys ++ vs ↔ xs < ys ∨ xs = ys ∧ us < vs := by
  induction xs generalizing ys with
  | nil =>
      obtain rfl : ys = [] := List.length_eq_zero_iff.mp hlen.symm
      simp
  | cons x xs ih =>
      cases ys with
      | nil => cases hlen
      | cons y ys =>
          have htail := ih (Nat.succ.inj hlen)
          simp only [List.cons_append, List.cons_lt_cons_iff, List.cons.injEq, htail]
          tauto

namespace Date

/-- `astype("str")` of a column of dates. -/
def text (date : Date) : Bytes :=
  padded 4 date.year ++ (45 :: padded 2 date.month ++ (45 :: padded 2 date.day))

instance : LT Date where
  lt a b := a.year < b.year ∨ a.year = b.year ∧ (a.month < b.month ∨ a.month = b.month ∧ a.day < b.day)

theorem lt_iff {a b : Date} : a < b ↔
    a.year < b.year ∨ a.year = b.year ∧ (a.month < b.month ∨ a.month = b.month ∧ a.day < b.day) :=
  Iff.rfl

instance (a b : Date) : Decidable (a < b) := decidable_of_iff' _ lt_iff

instance : LE Date where
  le a b := ¬b < a

instance (a b : Date) : Decidable (a ≤ b) := inferInstanceAs (Decidable (¬b < a))

theorem le_total (a b : Date) : a ≤ b ∨ b ≤ a := by
  show ¬b < a ∨ ¬a < b
  simp only [lt_iff]
  omega

theorem le_trans {a b c : Date} (hab : a ≤ b) (hbc : b ≤ c) : a ≤ c := by
  change ¬b < a at hab
  change ¬c < b at hbc
  show ¬c < a
  simp only [lt_iff] at hab hbc ⊢
  omega

theorem bounds (date : Date) : date.year < 10 ^ 4 ∧ date.month < 10 ^ 2 ∧ date.day < 10 ^ 2 := by
  have hyear := date.year_mem
  have hmonth := date.month_mem
  have hday := date.day_mem
  have hdays : daysIn date.year date.month ≤ 31 := by
    unfold daysIn
    split <;> split <;> decide
  omega

/-- The texts are ordered as the dates. -/
theorem text_lt_iff (a b : Date) : a.text < b.text ↔ a < b := by
  obtain ⟨hya, hma, hda⟩ := a.bounds
  obtain ⟨hyb, hmb, hdb⟩ := b.bounds
  have hyear : padded 4 a.year = padded 4 b.year ↔ a.year = b.year :=
    ⟨padded_injective hya hyb, congrArg _⟩
  have hmonth : padded 2 a.month = padded 2 b.month ↔ a.month = b.month :=
    ⟨padded_injective hma hmb, congrArg _⟩
  rw [text, text, prefixed_lt_iff _ _ (by rw [length_padded, length_padded]),
    prefixed_lt_iff _ _ (by rw [List.length_cons, List.length_cons, length_padded, length_padded]),
    padded_lt_iff hya hyb, hyear, lt_iff]
  simp only [List.cons_lt_cons_iff, List.cons.injEq, UInt8.lt_irrefl, false_or, true_and,
    padded_lt_iff hma hmb, padded_lt_iff hda hdb, hmonth]

theorem text_injective : Function.Injective text := by
  intro a b h
  have hab : ¬a < b := fun hlt => List.lt_irrefl _ (h ▸ (text_lt_iff a b).mpr hlt)
  have hba : ¬b < a := fun hlt => List.lt_irrefl _ (h ▸ (text_lt_iff b a).mpr hlt)
  rw [lt_iff] at hab hba
  cases a
  cases b
  simp only [mk.injEq] at hab hba ⊢
  omega

def ofFields (year month day : Nat) : Option Date :=
  if h : (1 ≤ year ∧ year ≤ 9999) ∧ (1 ≤ month ∧ month ≤ 12) ∧ 1 ≤ day ∧ day ≤ daysIn year month then
    some ⟨year, month, day, h.1, h.2.1, h.2.2⟩
  else none

end Date

/-- One digit or two. -/
def monthField : Bytes → Option Nat
  | [d] => if isDigit d then some (digitValue d) else none
  | [d, e] => if isDigit d && isDigit e then some (10 * digitValue d + digitValue e) else none
  | _ => none

/-- The day can also be a blank and a digit. -/
def dayField : Bytes → Option Nat
  | [32, d] => monthField [d]
  | field => monthField field

/-- `strptime` with the format `%Y/%m/%d`. -/
def strptime (text : Bytes) : Option Date :=
  match text.splitOn 47 with
  | [year, month, day] => do
      guard (year.length = 4 ∧ year.all isDigit)
      Date.ofFields (digitsValue 10 year) (← monthField month) (← dayField day)
  | _ => none

end ToyBox.MovieAnalysis
