import ToyBox.Cxx.Strtof
import ToyBox.LogParser.Classify
import ToyBox.LogParser.ColumnOrder

/-! The comparator of a float column. `strtof` decides that a cell is a float, but `FloatStr` also wants an
integer on both sides of the point, and an operand it does not accept compares as not less. So the comparator
is a strict weak ordering only of cells that are all accepted, or all accepted ones of which are equal. -/

namespace ToyBox.LogParser

open Cxx Checked

/-- The float cells that `FloatStr` accepts: a point, after an integer or nothing and before digits only. -/
def IsPointNumber (cell : Cell) : Prop :=
  ∃ whole part, cell = whole ++ 46 :: part ∧ (whole = [] ∨ ∃ l : IntegerLiteral, l.text = whole) ∧
    ∀ b ∈ part, isDigit b

/-- A column of a parsed log with its type and its cells. -/
structure ParsedColumn (std : StdSort) (p : LogParser) (colName : Bytes) (colIdx : Nat) (dataType : DataType)
    (cells : List Cell) : Prop where
  parsed : ∃ files, ∃ p₀ : LogParser, p₀.parse std files = .ok (true, p)
  name : p.colName2colIdx.lookup colName = some colIdx
  colIdx_lt : colIdx < p.colCnt
  type : p.colIdx2colDataType.lookup colIdx = some dataType
  cells_eq : columnCells p colIdx = .ok cells
  rowCnt_lt : p.rowCnt < 2 ^ 63

/-- `kMin` is the cell of a row, which is not greater than any other. -/
def MinNotGreater (p : LogParser) (colName : Bytes) (colIdx : Nat) : Prop :=
  ∃ minCell, p.calculate colName (ascii "min") = .ok (some minCell) ∧
    (∃ row ∈ p.rawContent, row[colIdx]? = some minCell) ∧
    ∀ row ∈ p.rawContent, ∃ cell, row[colIdx]? = some cell ∧ cellLess .kFloat cell minCell = false

/-- The comparator is a strict weak ordering of the cells, and the minimum is one. -/
structure OrderedAsFloats (cells : List Cell) : Prop where
  strictWeakOrder : StrictWeakOrder (cellLess .kFloat) cells
  min : ∀ std p colName colIdx, ParsedColumn std p colName colIdx .kFloat cells →
    MinNotGreater p colName colIdx

/-- All accepted cells have one value. -/
def OneValue (cells : List Cell) : Prop :=
  ∀ a ∈ cells, ∀ b ∈ cells, IsPointNumber a → IsPointNumber b →
    value (convertValueFloat a) = value (convertValueFloat b)

/-! ### The accepted cells -/

theorem noLetters_whole {whole : Bytes} (h : whole = [] ∨ ∃ l : IntegerLiteral, l.text = whole) :
    NoLetters whole := by
  rcases h with rfl | ⟨l, rfl⟩
  · exact fun b hb => absurd hb List.not_mem_nil
  · exact l.noLetters_text

theorem IsPointNumber.noLetters {cell : Cell} (h : IsPointNumber cell) : NoLetters cell := by
  obtain ⟨whole, part, rfl, hwhole, hpart⟩ := h
  exact noLetters_append_point (noLetters_whole hwhole) (noLetters_of_isDigit hpart)

/-- `strtof` reads behind the point as far as there are digits. -/
theorem isDigit_of_strtof_eq_nil {whole part : Bytes} (hwhole : whole = [] ∨ ∃ l : IntegerLiteral, l.text = whole)
    (hpart : NoLetters part) (hend : (strtof (whole ++ 46 :: part)).2 = []) : ∀ b ∈ part, isDigit b := by
  obtain ⟨digits, hdigits, hbody⟩ : ∃ digits : Bytes, (∀ b ∈ digits, isDigit b) ∧
      (sign ((whole ++ 46 :: part).dropWhile isSpace)).2 = digits ++ 46 :: part := by
    rcases hwhole with rfl | ⟨l, rfl⟩
    · exact ⟨[], by simp, rfl⟩
    · exact ⟨l.digits, l.isDigit_of_mem, by rw [l.sign_text_append]⟩
  rw [strtof_of_noLetters (noLetters_append_point (noLetters_whole hwhole) hpart), hbody,
    strtofDecimal_point hdigits hpart] at hend
  by_cases hnone : digits = [] ∧ part.takeWhile isDigit = []
  · rw [if_pos hnone] at hend
    exact absurd hend (by simp)
  · rw [if_neg hnone] at hend
    exact List.dropWhile_eq_nil_iff.mp hend

/-- A float cell is read to its end by `strtof` but not by `strtol`. -/
theorem eq_nil_of_kFloat {cell : Cell} (h : parseColumnDataType cell = .kFloat) :
    (strtol cell).2 ≠ [] ∧ (strtof cell).2 = [] := by
  rw [parseColumnDataType] at h
  dsimp only at h
  split at h
  case isTrue =>
    split at h
    · cases h
    · split at h <;> cases h
  case isFalse hint =>
    split at h
    case isTrue hfloat => exact ⟨hint, hfloat⟩
    case isFalse => split at h <;> cases h

/-- What `FloatStr` makes of a cell `strtof` read to its end. -/
theorem ofRaw_of_strtof {cell : Cell} (hend : (strtof cell).2 = []) :
    (FloatStr.ofRaw cell).floatVal = convertValueFloat cell ∧
      ((FloatStr.ofRaw cell).isValid = true ↔
        (∃ whole, getlinesToEof 46 cell = [whole] ∧ (strtol whole).2 = []) ∨
        ∃ whole part, getlinesToEof 46 cell = [whole, part] ∧ (strtol whole).2 = [] ∧ (strtol part).2 = []) := by
  rw [FloatStr.ofRaw]
  dsimp only
  rw [if_neg (not_not.mpr hend)]
  rcases getlinesToEof 46 cell with - | ⟨whole, - | ⟨part, - | ⟨third, pieces⟩⟩⟩
  · exact ⟨rfl, by simp⟩
  · by_cases hwhole : (strtol whole).2 = []
    · simp [hwhole, convertValueFloat]
    · simp [hwhole, convertValueFloat]
  · by_cases hwhole : (strtol whole).2 = []
    · by_cases hpart : (strtol part).2 = []
      · simp [hwhole, hpart, convertValueFloat]
      · simp [hwhole, hpart, convertValueFloat]
    · simp [hwhole, convertValueFloat]
  · exact ⟨rfl, by simp⟩

theorem point_not_mem_whole {whole : Bytes} (h : whole = [] ∨ ∃ l : IntegerLiteral, l.text = whole) :
    (46 : UInt8) ∉ whole := by
  rcases h with rfl | ⟨l, rfl⟩
  · exact List.not_mem_nil
  · exact l.point_not_mem_text

/-- Digits, or none, are read to the end by `strtol`. -/
theorem strtol_snd_of_isDigit {digits : Bytes} (h : ∀ b ∈ digits, isDigit b) : (strtol digits).2 = [] := by
  rw [strtol_snd_eq_nil_iff]
  rcases eq_or_ne digits [] with hnil | hne
  · exact Or.inl hnil
  · exact Or.inr ⟨{ space := [], sign := [], digits, isSpace_of_mem := by simp, sign_eq := Or.inl rfl
                    isDigit_of_mem := h, digits_ne_nil := hne }, rfl⟩

theorem intercalate_pair (sep : UInt8) (xs ys : Bytes) : [sep].intercalate [xs, ys] = xs ++ sep :: ys := by
  simp [List.intercalate]

/-- A number with a point is split at it. -/
theorem getlinesToEof_point {whole part : Bytes} (hwhole : whole = [] ∨ ∃ l : IntegerLiteral, l.text = whole)
    (hpart : ∀ b ∈ part, isDigit b) : getlinesToEof 46 (whole ++ 46 :: part) = [whole, part] := by
  have hpieces : ∀ piece ∈ [whole, part], (46 : UInt8) ∉ piece := by
    intro piece hpiece
    rcases List.mem_cons.mp hpiece with rfl | hpiece
    · exact point_not_mem_whole hwhole
    · rw [List.mem_singleton.mp hpiece]
      exact fun hmem => absurd (hpart 46 hmem) (by decide)
  have hsplit := List.splitOn_intercalate 46 hpieces (by simp)
  rw [intercalate_pair, ← getlinesToEof_eq_splitOn] at hsplit
  exact hsplit

/-- Among the float cells `FloatStr` accepts the numbers with a point. -/
theorem isValid_ofRaw_iff {cell : Cell} (hfloat : parseColumnDataType cell = .kFloat) :
    (FloatStr.ofRaw cell).isValid = true ↔ IsPointNumber cell := by
  obtain ⟨hint, hend⟩ := eq_nil_of_kFloat hfloat
  have hjoin : [(46 : UInt8)].intercalate (getlinesToEof 46 cell) = cell := by
    rw [getlinesToEof_eq_splitOn]
    exact List.intercalate_splitOn 46
  rw [(ofRaw_of_strtof hend).2]
  constructor
  · rintro (⟨whole, hpieces, hwhole⟩ | ⟨whole, part, hpieces, hwhole, hpart⟩)
    · -- without a point the cell would be an integer
      rw [hpieces] at hjoin
      obtain rfl : whole = cell := by simpa using hjoin
      exact absurd hwhole hint
    · rw [hpieces, intercalate_pair] at hjoin
      obtain rfl : whole ++ 46 :: part = cell := hjoin
      rw [strtol_snd_eq_nil_iff] at hwhole hpart
      exact ⟨whole, part, rfl, hwhole, isDigit_of_strtof_eq_nil hwhole (noLetters_whole hpart) hend⟩
  · rintro ⟨whole, part, rfl, hwhole, hpart⟩
    exact Or.inr ⟨whole, part, getlinesToEof_point hwhole hpart, (strtol_snd_eq_nil_iff _).mpr hwhole,
      strtol_snd_of_isDigit hpart⟩

/-- The comparator of a float column. -/
theorem cellLess_kFloat_iff {a b : Cell} (ha : parseColumnDataType a = .kFloat)
    (hb : parseColumnDataType b = .kFloat) :
    cellLess .kFloat a b = true ↔
      IsPointNumber a ∧ IsPointNumber b ∧ value (convertValueFloat a) < value (convertValueFloat b) := by
  have hvala := (ofRaw_of_strtof (eq_nil_of_kFloat ha).2).1
  have hvalb := (ofRaw_of_strtof (eq_nil_of_kFloat hb).2).1
  rw [cellLess, FloatStr.lt, Bool.and_eq_true, Bool.and_eq_true, isValid_ofRaw_iff ha, isValid_ofRaw_iff hb,
    decide_eq_true_eq, hvala, hvalb, and_assoc]
  refine and_congr_right fun hpa => and_congr_right fun hpb => ?_
  exact lt_iff_value (isNumber_strtof hpa.noLetters) (isNumber_strtof hpb.noLetters)

/-! ### When the comparator is a strict weak ordering -/

section Cells

variable {cells : List Cell} (hfloat : ∀ cell ∈ cells, parseColumnDataType cell = .kFloat)
include hfloat

theorem strictWeakOrder_of_points (h : ∀ cell ∈ cells, IsPointNumber cell) :
    StrictWeakOrder (cellLess .kFloat) cells := by
  have hless : ∀ a ∈ cells, ∀ b ∈ cells,
      (cellLess .kFloat a b = false ↔ value (convertValueFloat b) ≤ value (convertValueFloat a)) := by
    intro a ha b hb
    rw [← Bool.not_eq_true, cellLess_kFloat_iff (hfloat a ha) (hfloat b hb)]
    simp [h a ha, h b hb]
  apply StrictWeakOrder.of_negTrans
  · intro a ha b hb hab
    rw [cellLess_kFloat_iff (hfloat a ha) (hfloat b hb)] at hab
    exact (hless b hb a ha).mpr hab.2.2.le
  · intro a ha b hb c hc hab hbc
    rw [hless a ha b hb] at hab
    rw [hless b hb c hc] at hbc
    exact (hless a ha c hc).mpr (hbc.trans hab)

/-- No two cells are ordered exactly if the accepted ones have one value. -/
theorem oneValue_iff : OneValue cells ↔ ∀ a ∈ cells, ∀ b ∈ cells, cellLess .kFloat a b = false := by
  have hless : ∀ a ∈ cells, ∀ b ∈ cells, (cellLess .kFloat a b = false ↔
      (IsPointNumber a → IsPointNumber b → value (convertValueFloat b) ≤ value (convertValueFloat a))) := by
    intro a ha b hb
    rw [← Bool.not_eq_true, cellLess_kFloat_iff (hfloat a ha) (hfloat b hb)]
    simp
  constructor
  · intro h a ha b hb
    exact (hless a ha b hb).mpr fun hpa hpb => (h a ha b hb hpa hpb).ge
  · intro h a ha b hb hpa hpb
    exact le_antisymm ((hless b hb a ha).mp (h b hb a ha) hpb hpa) ((hless a ha b hb).mp (h a ha b hb) hpa hpb)

/-- The comparator is a strict weak ordering exactly if all cells are accepted or none are ordered. -/
theorem strictWeakOrder_kFloat_iff :
    StrictWeakOrder (cellLess .kFloat) cells ↔ (∀ cell ∈ cells, IsPointNumber cell) ∨ OneValue cells := by
  constructor
  · intro h
    by_cases hall : ∀ cell ∈ cells, IsPointNumber cell
    · exact Or.inl hall
    · obtain ⟨c, hc, hrejected⟩ := not_forall₂.mp hall
      have hleft : ∀ a ∈ cells, cellLess .kFloat a c = false := by
        intro a ha
        rw [← Bool.not_eq_true, cellLess_kFloat_iff (hfloat a ha) (hfloat c hc)]
        exact fun hless => hrejected hless.2.1
      have hright : ∀ a ∈ cells, cellLess .kFloat c a = false := by
        intro a ha
        rw [← Bool.not_eq_true, cellLess_kFloat_iff (hfloat c hc) (hfloat a ha)]
        exact fun hless => hrejected hless.1
      -- a rejected cell is incomparable with all, so all are incomparable
      exact Or.inr ((oneValue_iff hfloat).mpr fun a ha b hb =>
        h.incomparable_trans a ha c hc b hb (hleft a ha) (hright a ha) (hright b hb) (hleft b hb))
  · rintro (hall | hone)
    · exact strictWeakOrder_of_points hfloat hall
    · have hnone := (oneValue_iff hfloat).mp hone
      refine ⟨fun a ha => hnone a ha a ha, fun a ha b hb _ _ hab => ?_, fun a ha _ _ c hc _ _ _ _ => hnone a ha c hc⟩
      rw [hnone a ha b hb] at hab
      exact Bool.noConfusion hab

end Cells

/-! ### The column -/

section Column

variable {std : StdSort} {p : LogParser} {colName : Bytes} {colIdx : Nat} {dataType : DataType}
  {cells : List Cell}

/-- A column whose comparator is a strict weak ordering of its cells has a listing. -/
theorem ParsedColumn.exists_listing (h : ParsedColumn std p colName colIdx dataType cells)
    (hswo : StrictWeakOrder (cellLess dataType) cells) :
    ∃ rows, Listing p colName colIdx (fun a b => cellLess dataType b a = false) rows := by
  obtain ⟨files, p₀, hparse⟩ := h.parsed
  refine (parse_stored hparse).exists_listing h.name h.colIdx_lt h.type h.rowCnt_lt fun cells' hcells' => ?_
  obtain rfl : cells = cells' := Except.ok.inj (h.cells_eq.symm.trans hcells')
  exact hswo

/-- Every row has one of the cells. -/
theorem ParsedColumn.exists_cell (h : ParsedColumn std p colName colIdx dataType cells) :
    p.rowCnt = p.rawContent.length ∧ ∀ row ∈ p.rawContent, ∃ cell ∈ cells, row[colIdx]? = some cell := by
  obtain ⟨files, p₀, hparse⟩ := h.parsed
  have hstored := parse_stored hparse
  obtain ⟨cells', hcells', hexists⟩ := hstored.exists_cell h.colIdx_lt h.type
  obtain rfl : cells = cells' := Except.ok.inj (h.cells_eq.symm.trans hcells')
  exact ⟨hstored.rowCnt, hexists⟩

/-- A listing in one order is one in every order that holds of the same cells, and its ends bound the cells. -/
theorem ParsedColumn.listing_imp (h : ParsedColumn std p colName colIdx dataType cells)
    {le le' : Cell → Cell → Prop} {rows : List Row} (hrows : Listing p colName colIdx le rows)
    (himp : ∀ c ∈ cells, ∀ c' ∈ cells, le c c' → le' c c') (hrefl : ∀ c ∈ cells, le' c c) :
    Listing p colName colIdx le' rows ∧ BetweenMinMax p colName colIdx le' := by
  obtain ⟨hrowCnt, hexists⟩ := h.exists_cell
  have hmem : ∀ row ∈ p.rawContent, ∀ cell, row[colIdx]? = some cell → cell ∈ cells := by
    intro row hrow cell hcell
    obtain ⟨cell', hmem, hcell'⟩ := hexists row hrow
    obtain rfl : cell = cell' := Option.some.inj (hcell.symm.trans hcell')
    exact hmem
  have hrows' := hrows.imp fun row hrow row' hrow' c c' hc hc' => himp c (hmem row hrow c hc) c' (hmem row' hrow' c' hc')
  refine ⟨hrows', hrows'.between (fun row hrow => ?_) hrowCnt⟩
  obtain ⟨cell, hcell, hget⟩ := hexists row hrow
  exact ⟨cell, cell, hget, hget, hrefl cell hcell⟩

theorem ParsedColumn.minNotGreater (h : ParsedColumn std p colName colIdx .kFloat cells)
    (hswo : StrictWeakOrder (cellLess .kFloat) cells) : MinNotGreater p colName colIdx := by
  obtain ⟨rows, hrows⟩ := h.exists_listing hswo
  obtain ⟨-, minCell, maxCell, hmin, -, hrow, -, hbetween⟩ :=
    h.listing_imp hrows (fun _ _ _ _ => id) hswo.irrefl
  refine ⟨minCell, hmin, hrow, fun row hrow => ?_⟩
  obtain ⟨cell, hcell, hle, -⟩ := hbetween row hrow
  exact ⟨cell, hcell, hle⟩

end Column

/-- The comparator of a float column is a strict weak ordering exactly if every cell is a number with a point, or
all cells that are have one value; and then the minimum is one. -/
theorem orderedAsFloats_iff {cells : List Cell} (hfloat : ∀ cell ∈ cells, parseColumnDataType cell = .kFloat) :
    OrderedAsFloats cells ↔ (∀ cell ∈ cells, IsPointNumber cell) ∨ OneValue cells := by
  rw [← strictWeakOrder_kFloat_iff hfloat]
  constructor
  · exact fun h => h.strictWeakOrder
  · exact fun h => ⟨h, fun _ _ _ _ hcolumn => hcolumn.minNotGreater h⟩

/-- Three float cells, the second with an exponent. -/
def exponentCells : List Cell := [ascii "2.5", ascii "1e5", ascii "1.5"]

theorem orderedAsFloats_iff_exponentCells :
    OrderedAsFloats exponentCells ↔ (∀ cell ∈ exponentCells, IsPointNumber cell) ∨ OneValue exponentCells :=
  orderedAsFloats_iff (by decide)

/-- The smaller number is neither less nor greater than the one with an exponent, nor is that than the larger. -/
theorem not_orderedAsFloats_exponentCells :
    (∀ cell ∈ exponentCells, parseColumnDataType cell = .kFloat) ∧ ¬OrderedAsFloats exponentCells := by
  refine ⟨by decide, fun h => ?_⟩
  have hless : cellLess .kFloat (ascii "1.5") (ascii "2.5") = true := by decide
  have hincomparable := h.strictWeakOrder.incomparable_trans (ascii "1.5") (by decide) (ascii "1e5") (by decide)
    (ascii "2.5") (by decide) (by decide) (by decide) (by decide) (by decide)
  rw [hless] at hincomparable
  exact Bool.noConfusion hincomparable

end ToyBox.LogParser
