import ToyBox.LogParser.FloatOrder

/-! The order of a column of decimals. `FloatStr` keeps the digits on both sides of the point, but its
comparison reads only the `float`, so that the order is that of the exact numbers up to the rounding. -/

namespace ToyBox.LogParser

open Cxx

/-- The order of the numbers that two cells are written for. -/
def exactLe (c c' : Cell) : Prop := ∃ a b : DecimalLiteral, a.text = c ∧ b.text = c' ∧ a.value ≤ b.value

/-- The comparator is the order of the exact numbers, and so `Sort` lists a column and the metrics give its
minimum and its maximum. -/
structure ExactlyOrdered (literals : List DecimalLiteral) : Prop where
  lt_iff : ∀ a ∈ literals, ∀ b ∈ literals, (FloatStr.ofRaw a.text).lt (.ofRaw b.text) = true ↔ a.value < b.value
  listing : ∀ std p colName colIdx,
    ParsedColumn std p colName colIdx .kFloat (literals.map DecimalLiteral.text) →
      (∃ rows, Listing p colName colIdx exactLe rows) ∧ BetweenMinMax p colName colIdx exactLe

/-- No two different numbers are rounded to one `float`. -/
def RoundedApart (literals : List DecimalLiteral) : Prop :=
  ∀ a ∈ literals, ∀ b ∈ literals, a.value < b.value → toBinary32 a.value ≠ toBinary32 b.value

/-! ### Decimal cells -/

section Literal

variable (l : DecimalLiteral)

theorem isPointNumber_decimal : IsPointNumber l.text :=
  ⟨l.wholeLiteral.text, l.part, l.text_eq, Or.inr ⟨l.wholeLiteral, rfl⟩, l.isDigit_of_mem_part⟩

theorem parseColumnDataType_decimal : parseColumnDataType l.text = .kFloat := by
  have hint : (strtol l.text).2 ≠ [] := by
    rw [Ne, strtol_snd_eq_nil_iff]
    have hpoint : (46 : UInt8) ∈ l.text := by
      rw [l.text_eq]
      exact List.mem_append_right _ List.mem_cons_self
    rintro (hnil | ⟨literal, hliteral⟩)
    · exact absurd hpoint (by simp [hnil])
    · exact literal.point_not_mem_text (hliteral ▸ hpoint)
  rw [parseColumnDataType]
  dsimp only
  rw [if_neg hint, if_pos l.strtof_text.2.2]

end Literal

theorem exactLe_text_iff (a b : DecimalLiteral) : exactLe a.text b.text ↔ a.value ≤ b.value := by
  constructor
  · rintro ⟨a', b', ha, hb, hle⟩
    rwa [DecimalLiteral.text_injective ha, DecimalLiteral.text_injective hb] at hle
  · exact fun hle => ⟨a, b, rfl, rfl, hle⟩

theorem cellLess_text_iff (a b : DecimalLiteral) :
    cellLess .kFloat a.text b.text = true ↔ toBinary32 a.value < toBinary32 b.value := by
  rw [cellLess_kFloat_iff (parseColumnDataType_decimal a) (parseColumnDataType_decimal b), convertValueFloat,
    convertValueFloat, a.strtof_text.2.1, b.strtof_text.2.1]
  simp [isPointNumber_decimal]

/-- Rounding keeps the order of two numbers exactly if it keeps them apart. -/
theorem toBinary32_lt_iff {x y : ℚ} (h : x < y → toBinary32 x ≠ toBinary32 y) :
    toBinary32 x < toBinary32 y ↔ x < y := by
  constructor
  · intro hlt
    by_contra hge
    exact (toBinary32_mono (not_lt.mp hge)).not_gt hlt
  · exact fun hlt => lt_of_le_of_ne (toBinary32_mono hlt.le) (h hlt)

section Column

variable {literals : List DecimalLiteral}

theorem RoundedApart.lt_iff (h : RoundedApart literals) {a b : DecimalLiteral} (ha : a ∈ literals)
    (hb : b ∈ literals) : cellLess .kFloat a.text b.text = true ↔ a.value < b.value := by
  rw [cellLess_text_iff]
  exact toBinary32_lt_iff (h a ha b hb)

theorem RoundedApart.listing (h : RoundedApart literals) {std : StdSort} {p : LogParser} {colName : Bytes}
    {colIdx : Nat} (hcolumn : ParsedColumn std p colName colIdx .kFloat (literals.map DecimalLiteral.text)) :
    (∃ rows, Listing p colName colIdx exactLe rows) ∧ BetweenMinMax p colName colIdx exactLe := by
  have hexact : ∀ c ∈ literals.map DecimalLiteral.text, ∀ c' ∈ literals.map DecimalLiteral.text,
      cellLess .kFloat c' c = false → exactLe c c' := by
    intro c hc c' hc' hle
    obtain ⟨a, ha, rfl⟩ := List.mem_map.mp hc
    obtain ⟨b, hb, rfl⟩ := List.mem_map.mp hc'
    rw [exactLe_text_iff, ← not_lt]
    intro hlt
    rw [(h.lt_iff hb ha).mpr hlt] at hle
    exact Bool.noConfusion hle
  have hpoints : ∀ c ∈ literals.map DecimalLiteral.text, IsPointNumber c := by
    intro c hc
    obtain ⟨a, -, rfl⟩ := List.mem_map.mp hc
    exact isPointNumber_decimal a
  have hfloat : ∀ c ∈ literals.map DecimalLiteral.text, parseColumnDataType c = .kFloat := by
    intro c hc
    obtain ⟨a, -, rfl⟩ := List.mem_map.mp hc
    exact parseColumnDataType_decimal a
  have hrefl : ∀ c ∈ literals.map DecimalLiteral.text, exactLe c c := by
    intro c hc
    obtain ⟨a, -, rfl⟩ := List.mem_map.mp hc
    exact (exactLe_text_iff a a).mpr le_rfl
  obtain ⟨rows, hrows⟩ := hcolumn.exists_listing (strictWeakOrder_of_points hfloat hpoints)
  obtain ⟨hrows', hbetween⟩ := hcolumn.listing_imp hrows hexact hrefl
  exact ⟨⟨rows, hrows'⟩, hbetween⟩

end Column

/-- The comparator of a column of decimals is the order of the exact numbers, in `Sort`, `kMin` and `kMax` too,
exactly if no two different numbers among them are rounded to one `float`. -/
theorem exactlyOrdered_iff (literals : List DecimalLiteral) : ExactlyOrdered literals ↔ RoundedApart literals := by
  constructor
  · intro h a ha b hb hlt
    have hless := (h.lt_iff a ha b hb).mpr hlt
    exact ((cellLess_text_iff a b).mp hless).ne
  · exact fun h =>
      { lt_iff := fun a ha b hb => h.lt_iff ha hb
        listing := fun _ _ _ _ hcolumn => h.listing hcolumn }

/-- Two numbers that need 25 bits. -/
def evenLiteral : DecimalLiteral where
  negative := false
  whole := ascii "16777216"
  part := ascii "0"
  isDigit_of_mem_whole := List.all_eq_true.mp rfl
  isDigit_of_mem_part := List.all_eq_true.mp rfl
  whole_ne_nil := by decide
  part_ne_nil := by decide

def oddLiteral : DecimalLiteral where
  negative := false
  whole := ascii "16777217"
  part := ascii "0"
  isDigit_of_mem_whole := List.all_eq_true.mp rfl
  isDigit_of_mem_part := List.all_eq_true.mp rfl
  whole_ne_nil := by decide
  part_ne_nil := by decide

theorem not_exactlyOrdered_oddLiteral : ¬ExactlyOrdered [evenLiteral, oddLiteral] := by
  intro h
  have hlt : evenLiteral.value < oddLiteral.value := by
    simp only [DecimalLiteral.value, DecimalLiteral.magnitude, evenLiteral, oddLiteral]
    norm_num [show digitsValue 10 (ascii "16777216") = 16777216 from rfl,
      show digitsValue 10 (ascii "16777217") = 16777217 from rfl, show digitsValue 10 (ascii "0") = 0 from rfl]
  have hless := (h.lt_iff evenLiteral (by simp) oddLiteral (by simp)).mpr hlt
  have hequal : (FloatStr.ofRaw evenLiteral.text).lt (.ofRaw oddLiteral.text) = false := by decide
  rw [hequal] at hless
  exact Bool.noConfusion hless

end ToyBox.LogParser
