import Mathlib.Data.List.Induction
import Mathlib.Data.List.TakeWhile
import Mathlib.Tactic.Ring
import ToyBox.Cxx.Number

/-! The integer literals `strtol` reads: white space, an optional sign and at least one digit. What is
written on the page is a structure of its parts, so that it is a literal by construction, and `strtol`
reads a whole string exactly when it is one (or is empty, where it reads nothing of nothing). -/

namespace ToyBox.Cxx

/-! ### Digits -/

theorem digitValue_of_isDigit {b : UInt8} (h : isDigit b) : digitValue b = b.toNat - 48 :=
  if_pos h

theorem isDigit_iff {b : UInt8} : isDigit b = true ↔ 48 ≤ b.toNat ∧ b.toNat ≤ 57 := by
  rw [isDigit, Bool.and_eq_true, decide_eq_true_eq, decide_eq_true_eq, UInt8.le_iff_toNat_le,
    UInt8.le_iff_toNat_le]
  rfl

theorem digitValue_lt {b : UInt8} (h : isDigit b) : digitValue b < 10 := by
  rw [digitValue_of_isDigit h]
  have := isDigit_iff.mp h
  omega

theorem digitValue_injective {a b : UInt8} (ha : isDigit a) (hb : isDigit b)
    (h : digitValue a = digitValue b) : a = b := by
  rw [digitValue_of_isDigit ha, digitValue_of_isDigit hb] at h
  rw [isDigit_iff] at ha hb
  apply UInt8.toNat_inj.mp
  omega

/-- A digit is neither white space nor a sign. -/
theorem not_isSpace_of_isDigit {b : UInt8} (h : isDigit b) : isSpace b = false := by
  rw [isDigit_iff] at h
  rw [isSpace, Bool.or_eq_false_iff, Bool.and_eq_false_iff, beq_eq_false_iff_ne]
  constructor
  · rintro rfl
    simp at h
  · right
    rw [decide_eq_false_iff_not, UInt8.le_iff_toNat_le]
    show ¬b.toNat ≤ 13
    omega

theorem ne_sign_of_isDigit {b : UInt8} (h : isDigit b) : b ≠ 45 ∧ b ≠ 43 := by
  constructor
  · rintro rfl
    cases h
  · rintro rfl
    cases h

@[simp] theorem digitsValue_nil (base : Nat) : digitsValue base [] = 0 := rfl

theorem digitsValue_append (base : Nat) (xs ys : Bytes) :
    digitsValue base (xs ++ ys) = digitsValue base xs * base ^ ys.length + digitsValue base ys := by
  induction ys using List.reverseRecOn with
  | nil => simp
  | append_singleton ys y ih =>
      have hsnoc : ∀ zs : Bytes, digitsValue base (zs ++ [y]) = base * digitsValue base zs + digitValue y :=
        fun zs => by rw [digitsValue, List.foldl_append]; rfl
      rw [← List.append_assoc, hsnoc, ih, hsnoc, List.length_append, List.length_singleton, pow_succ]
      ring

theorem digitsValue_cons (base : Nat) (d : UInt8) (ds : Bytes) :
    digitsValue base (d :: ds) = digitValue d * base ^ ds.length + digitsValue base ds := by
  have h := digitsValue_append base [d] ds
  rwa [show digitsValue base [d] = digitValue d by simp [digitsValue]] at h

theorem digitsValue_lt {digits : Bytes} (h : ∀ b ∈ digits, isDigit b) :
    digitsValue 10 digits < 10 ^ digits.length := by
  induction digits with
  | nil => exact Nat.one_pos
  | cons d ds ih =>
      have hd := digitValue_lt (h d List.mem_cons_self)
      have hds := ih fun b hb => h b (List.mem_cons_of_mem d hb)
      rw [digitsValue_cons, List.length_cons, pow_succ]
      calc digitValue d * 10 ^ ds.length + digitsValue 10 ds
          < digitValue d * 10 ^ ds.length + 10 ^ ds.length := by omega
        _ = (digitValue d + 1) * 10 ^ ds.length := by ring
        _ ≤ 10 * 10 ^ ds.length := Nat.mul_le_mul_right _ hd
        _ = 10 ^ ds.length * 10 := Nat.mul_comm _ _

theorem decimal_ne_nil (n : Nat) : decimal n ≠ [] := by
  intro h
  exact Nat.toDigits_ne_nil (List.map_eq_nil_iff.mp h)

theorem forall_isDigit_decimal (n : Nat) : ∀ b ∈ decimal n, isDigit b := fun _ hb =>
  isDigit_iff.mpr (isDigit_of_mem_decimal hb)

/-- A decimal numeral stands for its number. -/
theorem digitsValue_decimal (n : Nat) : digitsValue 10 (decimal n) = n := by
  have hfold : ∀ (digits : Bytes) (value : Nat), (∀ b ∈ digits, isDigit b) →
      digits.foldl (fun value d => 10 * value + digitValue d) value =
        Nat.ofDigitChars 10 (digits.map fun b => Char.ofNat b.toNat) value := by
    intro digits
    induction digits with
    | nil => exact fun _ _ => rfl
    | cons d ds ih =>
        intro value h
        have hd := h d List.mem_cons_self
        rw [List.foldl_cons, List.map_cons, Nat.ofDigitChars_cons,
          ih _ fun b hb => h b (List.mem_cons_of_mem d hb), digitValue_of_isDigit hd]
        have hvalid : (Char.ofNat d.toNat).toNat = d.toNat := by
          rw [Char.ofNat, dif_pos (.inl (Nat.lt_trans d.toNat_lt (by decide)))]
          exact UInt32.toNat_ofNatLT
        rw [hvalid]
        rfl
  rw [digitsValue, hfold _ _ (forall_isDigit_decimal n), map_decimal, Nat.ofDigitChars_ten_toDigits]

/-- Digit strings of one length are ordered byte-wise as the numbers they stand for. -/
theorem lt_iff_digitsValue_lt {xs ys : Bytes} (hxs : ∀ b ∈ xs, isDigit b) (hys : ∀ b ∈ ys, isDigit b)
    (hlen : xs.length = ys.length) : xs < ys ↔ digitsValue 10 xs < digitsValue 10 ys := by
  induction xs generalizing ys with
  | nil =>
      obtain rfl : ys = [] := List.length_eq_zero_iff.mp hlen.symm
      simp
  | cons x xs ih =>
      cases ys with
      | nil => cases hlen
      | cons y ys =>
          obtain ⟨hx, hxs⟩ := List.forall_mem_cons.mp hxs
          obtain ⟨hy, hys⟩ := List.forall_mem_cons.mp hys
          have hlen : xs.length = ys.length := Nat.succ.inj hlen
          have hvx := digitsValue_lt hxs
          have hvy := digitsValue_lt hys
          rw [hlen] at hvx
          have hxy : x < y ↔ digitValue x < digitValue y := by
            rw [digitValue_of_isDigit hx, digitValue_of_isDigit hy, UInt8.lt_iff_toNat_lt]
            rw [isDigit_iff] at hx hy
            omega
          rw [List.cons_lt_cons_iff, ih hxs hys hlen, hxy, digitsValue_cons, digitsValue_cons, hlen]
          constructor
          · rintro (hlt | ⟨rfl, hlt⟩)
            · have := Nat.mul_le_mul_right (10 ^ ys.length) (Nat.succ_le_of_lt hlt)
              rw [Nat.succ_mul] at this
              omega
            · omega
          · intro hlt
            rcases Nat.lt_trichotomy (digitValue x) (digitValue y) with hd | hd | hd
            · exact Or.inl hd
            · exact Or.inr ⟨digitValue_injective hx hy hd, by rw [hd] at hlt; omega⟩
            · have := Nat.mul_le_mul_right (10 ^ ys.length) (Nat.succ_le_of_lt hd)
              rw [Nat.succ_mul] at this
              omega

/-- A number has one digit string of a length. -/
theorem digitsValue_injective {xs ys : Bytes} (hxs : ∀ b ∈ xs, isDigit b) (hys : ∀ b ∈ ys, isDigit b)
    (hlen : xs.length = ys.length) (h : digitsValue 10 xs = digitsValue 10 ys) : xs = ys := by
  have hge : ¬xs < ys := by
    rw [lt_iff_digitsValue_lt hxs hys hlen]
    omega
  have hle : ¬ys < xs := by
    rw [lt_iff_digitsValue_lt hys hxs hlen.symm]
    omega
  exact List.le_antisymm (List.not_lt.mp hle) (List.not_lt.mp hge)

/-! ### Integer literals -/

/-- An integer literal by its parts. -/
structure IntegerLiteral where
  space : Bytes
  sign : Bytes
  digits : Bytes
  isSpace_of_mem : ∀ b ∈ space, isSpace b
  sign_eq : sign = [] ∨ sign = [43] ∨ sign = [45]
  isDigit_of_mem : ∀ b ∈ digits, isDigit b
  digits_ne_nil : digits ≠ []

namespace IntegerLiteral

variable (l : IntegerLiteral)

/-- The literal as it is written. -/
def text : Bytes := l.space ++ (l.sign ++ l.digits)

/-- The integer it stands for, without a bound. -/
def value : Int := if l.sign = [45] then -(digitsValue 10 l.digits : Int) else digitsValue 10 l.digits

theorem head_digits : ∃ d ds, l.digits = d :: ds ∧ isDigit d := by
  obtain ⟨d, ds, h⟩ := List.exists_cons_of_ne_nil l.digits_ne_nil
  exact ⟨d, ds, h, l.isDigit_of_mem d (h ▸ List.mem_cons_self)⟩

theorem exists_isDigit_mem_text : ∃ b ∈ l.text, isDigit b := by
  obtain ⟨d, ds, h, hd⟩ := l.head_digits
  exact ⟨d, by simp [text, h], hd⟩

theorem text_ne_nil : l.text ≠ [] := by
  obtain ⟨b, hb, -⟩ := l.exists_isDigit_mem_text
  exact List.ne_nil_of_mem hb

theorem dropWhile_text_append (rest : Bytes) :
    (l.text ++ rest).dropWhile isSpace = l.sign ++ (l.digits ++ rest) := by
  obtain ⟨d, ds, h, hd⟩ := l.head_digits
  rw [text, List.append_assoc, List.append_assoc, List.dropWhile_append_of_pos l.isSpace_of_mem, h]
  rcases l.sign_eq with hsign | hsign | hsign
  · rw [hsign, List.nil_append, List.cons_append, List.dropWhile_cons_of_neg (by simp [not_isSpace_of_isDigit hd])]
  · rw [hsign]; rfl
  · rw [hsign]; rfl

theorem sign_append_digits (rest : Bytes) :
    Cxx.sign (l.sign ++ (l.digits ++ rest)) = (decide (l.sign = [45]), l.digits ++ rest) := by
  obtain ⟨d, ds, h, hd⟩ := l.head_digits
  rcases l.sign_eq with hsign | hsign | hsign
  · obtain ⟨hminus, hplus⟩ := ne_sign_of_isDigit hd
    rw [hsign, h, List.nil_append, List.cons_append]
    unfold Cxx.sign
    split
    · exact absurd (List.cons.inj ‹_›).1 hminus
    · exact absurd (List.cons.inj ‹_›).1 hplus
    · rfl
  · rw [hsign]; rfl
  · rw [hsign]; rfl

/-- The sign and the digits of a literal, whatever follows it. -/
theorem sign_text_append (rest : Bytes) :
    Cxx.sign ((l.text ++ rest).dropWhile isSpace) = (decide (l.sign = [45]), l.digits ++ rest) := by
  rw [l.dropWhile_text_append, l.sign_append_digits]

/-- `strtol` reads a literal to its end and clamps its value. -/
theorem strtol_text : strtol l.text = (max kLongMin (min kLongMax l.value), []) := by
  have htake : l.digits.takeWhile isDigit = l.digits := List.takeWhile_eq_self_iff.mpr l.isDigit_of_mem
  have hdrop : l.digits.dropWhile isDigit = [] := List.dropWhile_eq_nil_iff.mpr l.isDigit_of_mem
  have hsign := l.sign_text_append []
  rw [List.append_nil, List.append_nil] at hsign
  rw [strtol, hsign]
  simp only [htake, hdrop, if_neg l.digits_ne_nil, value, decide_eq_true_eq]

theorem value_bounds :
    -(10 ^ l.digits.length : Int) < l.value ∧ l.value < 10 ^ l.digits.length := by
  have hlt : (digitsValue 10 l.digits : Int) < 10 ^ l.digits.length := by
    exact_mod_cast digitsValue_lt l.isDigit_of_mem
  rw [value]
  split <;> omega

/-- A literal of digits only has neither white space nor a sign. -/
theorem text_eq_digits (hall : ∀ b ∈ l.text, isDigit b) : l.text = l.digits := by
  have hspace : l.space = [] := by
    apply List.eq_nil_iff_forall_not_mem.mpr
    intro b hb
    have hdigit := not_isSpace_of_isDigit (hall b (List.mem_append_left _ hb))
    rw [l.isSpace_of_mem b hb] at hdigit
    exact Bool.noConfusion hdigit
  have hsign : l.sign = [] := by
    apply List.eq_nil_iff_forall_not_mem.mpr
    intro b hb
    obtain ⟨hminus, hplus⟩ := ne_sign_of_isDigit
      (hall b (List.mem_append_right _ (List.mem_append_left _ hb)))
    rcases l.sign_eq with hsign | hsign | hsign
    · exact absurd (hsign ▸ hb) List.not_mem_nil
    · exact hplus (List.mem_singleton.mp (hsign ▸ hb))
    · exact hminus (List.mem_singleton.mp (hsign ▸ hb))
  rw [text, hspace, hsign]
  rfl

end IntegerLiteral

/-- `strtol` reads to the end of a literal and of the empty string, and of no other string. -/
theorem strtol_snd_eq_nil_iff (str : Bytes) :
    (strtol str).2 = [] ↔ str = [] ∨ ∃ l : IntegerLiteral, l.text = str := by
  constructor
  · intro hend
    obtain ⟨negative, rest, hsign⟩ : ∃ negative rest, sign (str.dropWhile isSpace) = (negative, rest) :=
      ⟨_, _, rfl⟩
    have hparts : ∃ mark, (mark = [] ∨ mark = [43] ∨ mark = [45]) ∧ str.dropWhile isSpace = mark ++ rest := by
      unfold sign at hsign
      split at hsign <;> obtain ⟨-, rfl⟩ := Prod.mk.inj hsign
      · exact ⟨[45], by simp, ‹_›⟩
      · exact ⟨[43], by simp, ‹_›⟩
      · exact ⟨[], by simp, rfl⟩
    rw [strtol, hsign] at hend
    dsimp only at hend
    split at hend
    case isTrue => exact Or.inl hend
    case isFalse hdigits =>
      obtain ⟨mark, hmark, hrest⟩ := hparts
      have hall : ∀ b ∈ rest, isDigit b := List.dropWhile_eq_nil_iff.mp hend
      refine Or.inr ⟨{ space := str.takeWhile isSpace, sign := mark, digits := rest
                       isSpace_of_mem := fun b => List.mem_takeWhile_imp
                       sign_eq := hmark
                       isDigit_of_mem := hall
                       digits_ne_nil := fun hnil => hdigits (by rw [hnil]; rfl) }, ?_⟩
      rw [IntegerLiteral.text, ← hrest, List.takeWhile_append_dropWhile]
  · rintro (rfl | ⟨l, rfl⟩)
    · rfl
    · rw [l.strtol_text]

end ToyBox.Cxx
