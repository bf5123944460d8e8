import ToyBox.LogParser.GenLog
import ToyBox.LogParser.Outcome
import ToyBox.LogParser.Written

/-! What the parser makes of generated logs. Every row comes back cell by cell, and is dropped only where the type of
a string or of a timestamp is not that of the first row. A merge takes a generated file whole or not at all. -/

namespace ToyBox.LogParser

open Cxx

/-! ### Reading a written table -/

/-- A cell that can be read back. -/
def IsPlain (cell : Cell) : Prop := cell ≠ [] ∧ tab ∉ cell ∧ newline ∉ cell

/-- The tab and the newline are small. -/
theorem isPlain_of_lt {cell : Cell} (hne : cell ≠ []) (h : ∀ b ∈ cell, 13 < b.toNat) : IsPlain cell := by
  refine ⟨hne, fun hmem => ?_, fun hmem => ?_⟩
  · exact absurd (h tab hmem) (by decide)
  · exact absurd (h newline hmem) (by decide)

theorem parseLineContent_plain {cells : Row} (h : ∀ cell ∈ cells, IsPlain cell) :
    parseLineContent (joinCells cells) = cells := by
  rcases List.eq_nil_or_concat' cells with rfl | ⟨init, last, rfl⟩
  · rfl
  · have hlast := h last (by simp)
    rw [parseLineContent_joinCells (fun cell hcell => (h cell (List.mem_append_left _ hcell)).2.1) hlast.2.1,
      if_neg hlast.1]

theorem joinCells_plain {cells : Row} (hne : cells ≠ []) (h : ∀ cell ∈ cells, IsPlain cell) :
    joinCells cells ≠ [] ∧ newline ∉ joinCells cells := by
  obtain ⟨init, last, rfl⟩ := (List.eq_nil_or_concat' cells).resolve_left hne
  have hlast := h last (by simp)
  rw [joinCells_concat]
  constructor
  · intro hnil
    exact hlast.1 (List.append_eq_nil_iff.mp hnil).2
  · rw [joinLines, List.mem_append, List.mem_flatMap]
    rintro (⟨cell, hcell, hmem⟩ | hmem)
    · rcases List.mem_append.mp hmem with hmem | hmem
      · exact (h cell (List.mem_append_left _ hcell)).2.2 hmem
      · exact absurd hmem (by decide)
    · exact hlast.2.2 hmem

section WriteTable

variable {colNames : Row} {rows : List Row} (hwidth : ∀ row ∈ rows, row.length = colNames.length)
  (hne : colNames ≠ []) (hplain : ∀ row ∈ colNames :: rows, ∀ cell ∈ row, IsPlain cell)

include hwidth hne hplain in
theorem nonemptyLines_writeTable :
    nonemptyLines (writeTable colNames rows) = (colNames :: rows).map joinCells := by
  have hrow : ∀ row ∈ colNames :: rows, row ≠ [] := by
    intro row hrow
    rcases List.mem_cons.mp hrow with rfl | hrow
    · exact hne
    · exact List.ne_nil_of_length_pos (by rw [hwidth row hrow]; exact List.length_pos_iff.mpr hne)
  have hlines : getlines newline (writeTable colNames rows) = (colNames :: rows).map joinCells := by
    have hwrite : writeTable colNames rows = joinLines newline ((colNames :: rows).map joinCells) := by
      rw [joinLines, List.flatMap_map]
      rfl
    rw [hwrite]
    apply getlines_joinLines
    intro line hline
    obtain ⟨row, hmem, rfl⟩ := List.mem_map.mp hline
    exact (joinCells_plain (hrow row hmem) (hplain row hmem)).2
  rw [nonemptyLines, hlines, List.filter_eq_self]
  intro line hline
  obtain ⟨row, hmem, rfl⟩ := List.mem_map.mp hline
  exact decide_eq_true (joinCells_plain (hrow row hmem) (hplain row hmem)).1

include hwidth hne hplain in
theorem headerRow_writeTable : headerRow (writeTable colNames rows) = colNames := by
  rw [headerRow, headerLine?, nonemptyLines_writeTable hwidth hne hplain]
  exact parseLineContent_plain (hplain colNames List.mem_cons_self)

include hwidth hne hplain in
theorem wideRows_writeTable : wideRows (writeTable colNames rows) = rows := by
  have hlines := nonemptyLines_writeTable hwidth hne hplain
  have hbody : bodyLines (writeTable colNames rows) = rows.map joinCells := by rw [bodyLines, hlines]; rfl
  have hread : (rows.map joinCells).map parseLineContent = rows := by
    rw [List.map_map]
    refine (List.map_congr_left fun row hrow => ?_).trans (List.map_id rows)
    exact parseLineContent_plain (hplain row (List.mem_cons_of_mem _ hrow))
  have hfilter : (rows.map joinCells).filter (· ≠ []) = rows.map joinCells := by
    have htail : (nonemptyLines (writeTable colNames rows)).filter (· ≠ []) =
        nonemptyLines (writeTable colNames rows) := by simp [nonemptyLines]
    rw [hlines, List.filter_eq_self] at htail
    exact List.filter_eq_self.mpr fun line hline => htail line (List.mem_cons_of_mem _ hline)
  rw [wideRows, headerRow_writeTable hwidth hne hplain, rowsOfWidth, hbody, hfilter, hread, List.filter_eq_self]
  exact fun row hrow => decide_eq_true (hwidth row hrow)

end WriteTable

/-! ### Generated cells and rows -/

theorem lt_toNat_of_isDigit {b : UInt8} (h : isDigit b) : 13 < b.toNat := by
  have hb := (isDigit_iff.mp h).1
  omega

theorem isPlain_toStringInt (n : Int) : IsPlain (toStringInt n) := by
  have hdigits : ∀ b ∈ decimal n.natAbs, 13 < b.toNat := fun b hb =>
    lt_toNat_of_isDigit (forall_isDigit_decimal _ b hb)
  rw [toStringInt]
  split
  · refine isPlain_of_lt (List.cons_ne_nil _ _) fun b hb => ?_
    rcases List.mem_cons.mp hb with rfl | hb
    · decide
    · exact hdigits b hb
  · exact isPlain_of_lt (decimal_ne_nil _) hdigits

theorem isPlain_floatText (x : FloatText) : IsPlain x.text := by
  cases x with
  | fixed l =>
      have hpoint : (46 : UInt8) ∈ l.text := by simp [DecimalLiteral.text]
      refine isPlain_of_lt (List.ne_nil_of_mem hpoint) fun b hb => ?_
      rw [FloatText.text, DecimalLiteral.text, DecimalLiteral.sign, List.mem_append, List.mem_append,
        List.mem_cons] at hb
      rcases hb with hb | hb | rfl | hb
      · split at hb
        · rw [List.mem_singleton.mp hb]
          decide
        · cases hb
      · exact lt_toNat_of_isDigit (l.isDigit_of_mem_whole b hb)
      · decide
      · exact lt_toNat_of_isDigit (l.isDigit_of_mem_part b hb)
  | scientific l =>
      have hmark : (101 : UInt8) ∈ l.text := by simp [ExponentLiteral.text, ExponentLiteral.body, ExponentLiteral.powerText]
      refine isPlain_of_lt (List.ne_nil_of_mem hmark) fun b hb => ?_
      rw [FloatText.text, ExponentLiteral.text, ExponentLiteral.body, ExponentLiteral.mantissaPart,
        ExponentLiteral.powerText, List.mem_append, List.mem_append, List.mem_append, List.mem_cons,
        List.mem_cons] at hb
      rcases hb with hb | hb | hb | rfl | rfl | hb
      · split at hb
        · rw [List.mem_singleton.mp hb]
          decide
        · cases hb
      · exact lt_toNat_of_isDigit (l.isDigit_of_mem_whole b hb)
      · split at hb
        · cases hb
        · rcases List.mem_cons.mp hb with rfl | hb
          · decide
          · exact lt_toNat_of_isDigit (l.isDigit_of_mem_part b hb)
      · decide
      · decide
      · exact lt_toNat_of_isDigit (l.isDigit_of_mem_power b hb)

theorem isPlain_string {chars : List (Fin baseStr.length)} (hne : chars ≠ []) :
    IsPlain (chars.map baseStr.get) := by
  have hbase : ∀ b ∈ baseStr, 13 < b.toNat := by decide +kernel
  refine isPlain_of_lt (by simpa using hne) fun b hb => ?_
  obtain ⟨i, -, rfl⟩ := List.mem_map.mp hb
  exact hbase _ (List.get_mem baseStr i)

theorem isPlain_date (d : MovieAnalysis.Date) : IsPlain d.text := by
  have hdigits : ∀ width n, ∀ b ∈ MovieAnalysis.padded width n, 13 < b.toNat := fun width n b hb =>
    lt_toNat_of_isDigit (MovieAnalysis.forall_isDigit_padded width n b hb)
  refine isPlain_of_lt (List.append_ne_nil_of_right_ne_nil _ (List.cons_ne_nil _ _)) fun b hb => ?_
  rw [MovieAnalysis.Date.text, List.mem_append, List.mem_append, List.mem_cons, List.mem_cons] at hb
  rcases hb with hb | (rfl | hb) | (rfl | hb)
  · exact hdigits 4 d.year b hb
  · decide
  · exact hdigits 2 d.month b hb
  · decide
  · exact hdigits 2 d.day b hb

/-- A generated cell can be read back. -/
theorem isPlain_genRandomData {typ : GenType} (draw : Draw typ) : IsPlain (genRandomData draw) := by
  cases draw with
  | int n hn => exact isPlain_toStringInt n
  | float x => exact isPlain_floatText x
  | string chars hlen =>
      refine isPlain_string ?_
      rintro rfl
      exact absurd hlen.1 (by decide)
  | phone mobile number hnumber =>
      obtain ⟨hlength, hdigits, -⟩ := isTelephone_phone mobile hnumber.1
      refine isPlain_of_lt (fun hnil => ?_) fun b hb => lt_toNat_of_isDigit (hdigits b hb)
      rw [genRandomData] at hnil
      rw [hnil] at hlength
      cases hlength
  | date d => exact isPlain_date d
  | timestamp now ago hnow hago => exact isPlain_toStringInt _

theorem isPlain_of_mem_cells {row : GenRow} {cell : Cell} (h : cell ∈ row.cells) : IsPlain cell := by
  obtain ⟨draw, -, rfl⟩ := List.mem_map.mp h
  exact isPlain_genRandomData draw.2

/-- The type the parser is meant to give to a column of a type. -/
def GenType.dataType : GenType → DataType
  | .int => .kInt
  | .float => .kFloat
  | .string => .kString
  | .phone => .kTelephone
  | .date => .kDate
  | .timestamp => .kTimestamp

/-- A cell is not taken for one of another type. Only strings and timestamps can be. -/
def Draw.Typical {typ : GenType} : Draw typ → Prop
  | .string chars _ => parseColumnDataType (chars.map baseStr.get) = .kString
  | .timestamp now ago _ _ => kMinTimestamp ≤ (now : Int) - ago ∧ (now : Int) - ago ≤ kMaxTimestamp
  | _ => True

theorem Draw.typical_iff {typ : GenType} (draw : Draw typ) : draw.Typical ↔ draw.dataType = typ.dataType := by
  cases draw with
  | timestamp now ago hnow hago =>
      rw [Typical, dataType]
      split
      · exact iff_of_true ‹_› rfl
      · exact iff_of_false ‹_› DataType.noConfusion
  | string chars hlen => exact Iff.rfl
  | _ => exact iff_of_true trivial rfl

/-- Two cells of one column, the only ones of a type that need not have one type for the parser. -/
theorem Draw.ambiguous {a b : Sigma Draw} (htyp : a.1 = b.1) (hne : a.2.dataType ≠ b.2.dataType) :
    a.1 = .string ∨ a.1 = .timestamp := by
  have htypical : ∀ draw : Sigma Draw, draw.1 ≠ .string → draw.1 ≠ .timestamp →
      draw.2.dataType = draw.1.dataType := by
    rintro ⟨typ, draw⟩ hstring htimestamp
    rw [← Draw.typical_iff]
    cases draw with
    | string => exact absurd rfl hstring
    | timestamp => exact absurd rfl htimestamp
    | _ => trivial
  by_contra hor
  obtain ⟨hstring, htimestamp⟩ := not_or.mp hor
  rw [htypical a hstring htimestamp, htypical b (htyp ▸ hstring) (htyp ▸ htimestamp), htyp] at hne
  exact hne rfl

/-- The types of a row of typical cells are those of the columns. -/
theorem GenRow.dataTypes_of_typical {row : GenRow} (h : ∀ draw ∈ row, draw.2.Typical) :
    row.dataTypes = (row.map Sigma.fst).map GenType.dataType := by
  rw [GenRow.dataTypes, List.map_map]
  exact List.map_congr_left fun draw hdraw => (Draw.typical_iff draw.2).mp (h draw hdraw)

/-! ### Generated tables -/

/-- What a call of `gen_log_file` writes: the names of the columns, and rows with a draw for every column. -/
structure GenTable where
  colNames : Row
  colTypes : List GenType
  rows : List GenRow
  isPlain_of_mem : ∀ name ∈ colNames, IsPlain name
  nodup_colNames : colNames.Nodup
  colNames_ne_nil : colNames ≠ []
  length_colTypes : colTypes.length = colNames.length
  types_eq : ∀ row ∈ rows, row.map Sigma.fst = colTypes
  rows_ne_nil : rows ≠ []

namespace GenTable

variable (t : GenTable)

def content : Bytes := writeTable t.colNames (t.rows.map GenRow.cells)

/-- The row that decides the types of the columns. -/
def typeRow : GenRow := t.rows.head t.rows_ne_nil

/-- The rows of its types. -/
def kept : List GenRow := t.rows.filter (·.dataTypes = t.typeRow.dataTypes)

theorem typeRow_mem_kept : t.typeRow ∈ t.kept :=
  List.mem_filter.mpr ⟨List.head_mem _, by simp⟩

theorem length_of_mem {row : GenRow} (hrow : row ∈ t.rows) : row.length = t.colNames.length := by
  rw [← t.length_colTypes, ← t.types_eq row hrow, List.length_map]

theorem wideRows_content : wideRows t.content = t.rows.map GenRow.cells ∧ headerRow t.content = t.colNames := by
  have hwidth : ∀ row ∈ t.rows.map GenRow.cells, row.length = t.colNames.length := by
    intro row hrow
    obtain ⟨draws, hdraws, rfl⟩ := List.mem_map.mp hrow
    rw [GenRow.cells, List.length_map, t.length_of_mem hdraws]
  have hplain : ∀ row ∈ t.colNames :: t.rows.map GenRow.cells, ∀ cell ∈ row, IsPlain cell := by
    intro row hrow cell hcell
    rcases List.mem_cons.mp hrow with rfl | hrow
    · exact t.isPlain_of_mem cell hcell
    · obtain ⟨draws, hdraws, rfl⟩ := List.mem_map.mp hrow
      exact isPlain_of_mem_cells hcell
  exact ⟨wideRows_writeTable hwidth t.colNames_ne_nil hplain, headerRow_writeTable hwidth t.colNames_ne_nil hplain⟩

/-- The table the parser makes of the file. -/
def table : Table where
  header := t.colNames
  types := t.typeRow.dataTypes
  rows := t.kept.map GenRow.cells
  length_types := by
    rw [GenRow.dataTypes, List.length_map, t.length_of_mem (List.mem_filter.mp t.typeRow_mem_kept).1]
  rowTypes_eq := by
    intro row hrow
    obtain ⟨draws, hdraws, rfl⟩ := List.mem_map.mp hrow
    rw [rowTypes_cells]
    simpa using (List.mem_filter.mp hdraws).2
  rows_ne_nil := List.ne_nil_of_mem (List.mem_map_of_mem t.typeRow_mem_kept)

theorem ofContent : Table.ofContent t.content = some t.table := by
  obtain ⟨hwide, hheader⟩ := t.wideRows_content
  have hrows : t.rows = t.typeRow :: t.rows.tail := (List.cons_head_tail t.rows_ne_nil).symm
  have hcons : wideRows t.content = t.typeRow.cells :: t.rows.tail.map GenRow.cells := by
    rw [hwide]
    exact congrArg (List.map GenRow.cells) hrows
  obtain ⟨table, htable, hth, htt, htr⟩ := Table.ofContent_eq_some hcons
  have hkept : typedRows t.typeRow.cells (wideRows t.content) = t.kept.map GenRow.cells := by
    rw [typedRows, hwide, List.filter_map, kept]
    congr 1
    apply List.filter_congr
    intro row _
    simp only [Function.comp_apply, rowTypes_cells]
  rw [htable, Option.some_inj]
  obtain ⟨header, types, rows⟩ := table
  obtain rfl : header = t.colNames := hth.trans hheader
  obtain rfl : types = t.typeRow.dataTypes := htt.trans (rowTypes_cells _)
  obtain rfl : rows = t.kept.map GenRow.cells := htr.trans hkept
  rfl

/-- When all cells are typical, no row is dropped. -/
theorem kept_of_typical (h : ∀ row ∈ t.rows, ∀ draw ∈ row, draw.2.Typical) : t.kept = t.rows := by
  rw [kept, List.filter_eq_self]
  intro row hrow
  have hfirst : t.typeRow ∈ t.rows := List.head_mem _
  rw [GenRow.dataTypes_of_typical (h row hrow), GenRow.dataTypes_of_typical (h _ hfirst), t.types_eq row hrow,
    t.types_eq _ hfirst]
  exact decide_eq_true rfl

/-- A row that is dropped has a string or a timestamp which the parser takes for another type than that of the same
column in the first row. -/
theorem exists_ambiguous {row : GenRow} (hrow : row ∈ t.rows) (hdropped : row ∉ t.kept) :
    ∃ (col : Nat) (draw first : Sigma Draw), row[col]? = some draw ∧ t.typeRow[col]? = some first ∧
      (draw.1 = .string ∨ draw.1 = .timestamp) ∧ draw.2.dataType ≠ first.2.dataType := by
  have hfirst : t.typeRow ∈ t.rows := List.head_mem _
  have htypes : row.map Sigma.fst = t.typeRow.map Sigma.fst := by rw [t.types_eq row hrow, t.types_eq _ hfirst]
  have hne : row.dataTypes ≠ t.typeRow.dataTypes := fun heq =>
    hdropped (List.mem_filter.mpr ⟨hrow, decide_eq_true heq⟩)
  obtain ⟨col, hcol⟩ : ∃ col : Nat, row.dataTypes[col]? ≠ t.typeRow.dataTypes[col]? :=
    not_forall.mp fun h => hne (List.ext_getElem? h)
  have hfst : (row[col]?).map Sigma.fst = (t.typeRow[col]?).map Sigma.fst := by
    rw [← List.getElem?_map, ← List.getElem?_map, htypes]
  rw [GenRow.dataTypes, GenRow.dataTypes, List.getElem?_map, List.getElem?_map] at hcol
  cases hdraw : row[col]? with
  | none =>
      cases hhead : t.typeRow[col]? with
      | none =>
          rw [hdraw, hhead] at hcol
          exact absurd rfl hcol
      | some first =>
          rw [hdraw, hhead] at hfst
          cases hfst
  | some draw =>
      cases hhead : t.typeRow[col]? with
      | none =>
          rw [hdraw, hhead] at hfst
          cases hfst
      | some first =>
          rw [hdraw, hhead] at hfst hcol
          have htyp : draw.1 = first.1 := Option.some.inj hfst
          have hdata : draw.2.dataType ≠ first.2.dataType := fun heq => hcol (congrArg some heq)
          exact ⟨col, draw, first, hdraw, hhead, Draw.ambiguous htyp hdata, hdata⟩

end GenTable

/-! ### One test log -/

theorem isPlain_colName {name : Bytes} (h : name ∈ GenType.dataTypeList.map GenType.colName) : IsPlain name := by
  have hnames : ∀ name ∈ GenType.dataTypeList.map GenType.colName, name ≠ [] ∧ ∀ b ∈ name, 13 < b.toNat := by
    decide +kernel
  exact isPlain_of_lt (hnames name h).1 (hnames name h).2

/-- The file of a test log. -/
def TestLog.genTable (log : TestLog) : GenTable where
  colNames := GenType.dataTypeList.map GenType.colName
  colTypes := GenType.dataTypeList
  rows := log.rows
  isPlain_of_mem := fun _ h => isPlain_colName h
  nodup_colNames := by decide +kernel
  colNames_ne_nil := List.cons_ne_nil _ _
  length_colTypes := (List.length_map _).symm
  types_eq := log.types_eq
  rows_ne_nil := List.ne_nil_of_length_pos (by have := log.length_mem; omega)

/-- `Parse` on a test log. The columns have the names and, for the parser, the types of the first row, and of the
rows nothing is lost but those with a string or a timestamp that looks like another type than the first. -/
theorem parse_testLog (std : StdSort) {files : Files} {filePath : Bytes} (log : TestLog)
    (hopen : files filePath = some log.content) :
    ∃ p, (ofFile filePath).parse std files = .ok (true, p) ∧
      p.colNameList = GenType.dataTypeList.map GenType.name ∧
      (∀ i, p.colIdx2colDataType.lookup i = log.genTable.typeRow.dataTypes[i]?) ∧
      p.rawContent = log.genTable.kept.map GenRow.cells ∧
      (∀ row ∈ log.rows, row ∉ log.genTable.kept → ∃ (col : Nat) (draw first : Sigma Draw),
        row[col]? = some draw ∧ log.genTable.typeRow[col]? = some first ∧
        (draw.1 = .string ∨ draw.1 = .timestamp) ∧ draw.2.dataType ≠ first.2.dataType) ∧
      ((∀ row ∈ log.rows, ∀ draw ∈ row, draw.2.Typical) → p.rawContent = log.rows.map GenRow.cells) := by
  have htable : tableOf files filePath = some log.genTable.table := by
    rw [tableOf, hopen, Option.bind_some]
    exact log.genTable.ofContent
  obtain ⟨p, hparse, hholds, -⟩ := parse_ofFile_some std htable
  have hnames : GenType.dataTypeList.map GenType.colName = GenType.dataTypeList.map GenType.name := by decide +kernel
  refine ⟨p, hparse, hholds.colNameList.trans hnames, hholds.dataType, hholds.rawContent, ?_, ?_⟩
  · exact fun row hrow hdropped => log.genTable.exists_ambiguous hrow hdropped
  · intro htypical
    have hkept : log.genTable.kept = log.rows := log.genTable.kept_of_typical htypical
    rw [← hkept]
    exact hholds.rawContent

/-- The letter of the row below. -/
def letterA : Fin baseStr.length := ⟨0, by decide⟩

/-- A row of a test log with the string "AAA". -/
def testRow : GenRow :=
  [⟨.int, .int 7 (by decide)⟩,
   ⟨.float, .float (.fixed
      { negative := true, whole := [49], part := [53], isDigit_of_mem_whole := List.all_eq_true.mp rfl
        isDigit_of_mem_part := List.all_eq_true.mp rfl, whole_ne_nil := by decide, part_ne_nil := by decide })⟩,
   ⟨.string, .string [letterA, letterA, letterA] (by decide)⟩,
   ⟨.phone, .phone ⟨0, by decide⟩ [0, 1, 2, 3, 4, 5, 6, 7] (by decide)⟩,
   ⟨.date, .date { year := 2023, month := 2, day := 28, year_mem := by decide, month_mem := by decide,
                   day_mem := by decide }⟩,
   ⟨.timestamp, .timestamp 1700000000 100 (by decide) (by decide)⟩]

theorem typical_testRow : ∀ draw ∈ testRow, draw.2.Typical := by
  have hstring : parseColumnDataType ([letterA, letterA, letterA].map baseStr.get) = .kString := by decide +kernel
  have htimestamp : kMinTimestamp ≤ ((1700000000 : Nat) : Int) - (100 : Nat) ∧
      ((1700000000 : Nat) : Int) - (100 : Nat) ≤ kMaxTimestamp := by decide
  intro draw hdraw
  simp only [testRow, List.mem_cons, List.not_mem_nil, or_false] at hdraw
  rcases hdraw with rfl | rfl | rfl | rfl | rfl | rfl
  · trivial
  · trivial
  · exact hstring
  · trivial
  · trivial
  · exact htimestamp

/-- Fifty times this row. -/
def fiftyRows : TestLog where
  rows := List.replicate 50 testRow
  types_eq := fun row hrow => by rw [List.eq_of_mem_replicate hrow]; rfl
  length_mem := by simp

theorem parse_testLog_fiftyRows :
    ∃ p, (ofFile (ascii "log")).parse .insertion (fun _ => some fiftyRows.content) = .ok (true, p) ∧
      p.rawContent = List.replicate 50 testRow.cells := by
  obtain ⟨p, hparse, -, -, -, -, hall⟩ :=
    @parse_testLog .insertion (fun _ => some fiftyRows.content) (ascii "log") fiftyRows rfl
  have hrows := hall fun row hrow => by
    rw [List.eq_of_mem_replicate hrow]
    exact typical_testRow
  exact ⟨p, hparse, hrows.trans List.map_replicate⟩

/-! ### The logs of one run -/

theorem isPlain_fakeColName (i : Nat) : IsPlain (fakeColName i) := by
  have hcol : ∀ b ∈ ascii "col_", 13 < b.toNat := by decide +kernel
  refine isPlain_of_lt (List.append_ne_nil_of_right_ne_nil _ (decimal_ne_nil i)) fun b hb => ?_
  rcases List.mem_append.mp hb with hb | hb
  · exact hcol b hb
  · exact lt_toNat_of_isDigit (forall_isDigit_decimal i b hb)

theorem fakeColName_injective : Function.Injective fakeColName := fun _ _ h =>
  decimal_injective (List.append_cancel_left h)

/-- The file of a fake log. -/
def FakeLog.genTable {colCnt : Nat} (log : FakeLog colCnt) (hcolCnt : 0 < colCnt) : GenTable where
  colNames := (List.range colCnt).map fakeColName
  colTypes := log.colTypes
  rows := log.rows
  isPlain_of_mem := by
    intro name hname
    obtain ⟨i, -, rfl⟩ := List.mem_map.mp hname
    exact isPlain_fakeColName i
  nodup_colNames := List.nodup_range.map fakeColName_injective
  colNames_ne_nil := List.ne_nil_of_length_pos (by rw [List.length_map, List.length_range]; exact hcolCnt)
  length_colTypes := by rw [log.length_colTypes, List.length_map, List.length_range]
  types_eq := log.types_eq
  rows_ne_nil := List.ne_nil_of_length_pos (by have := log.length_mem; omega)

/-- One run of `gen_fake_log.py`: between one and a hundred logs with one number of columns. -/
structure FakeRun where
  colCnt : Nat
  colCnt_mem : 10 ≤ colCnt ∧ colCnt ≤ 20
  first : FakeLog colCnt
  rest : List (FakeLog colCnt)
  length_rest : rest.length < 100

namespace FakeRun

variable (run : FakeRun)

/-- `gen_log_file` is called once for every log. -/
def logs : List (FakeLog run.colCnt) := run.first :: run.rest

def genTable (log : FakeLog run.colCnt) : GenTable := log.genTable (Nat.lt_of_lt_of_le (by decide) run.colCnt_mem.1)

/-- The types the parser gives to the columns of a log. -/
def dataTypes (log : FakeLog run.colCnt) : List DataType := (run.genTable log).typeRow.dataTypes

/-- The logs that have the column types of the first one. -/
def alike : List (FakeLog run.colCnt) := run.logs.filter (run.dataTypes · = run.dataTypes run.first)

theorem tablesOf_logs {files : Files} {filePaths : List Bytes} {logs : List (FakeLog run.colCnt)}
    (hopen : List.Forall₂ (fun filePath log => files filePath = some log.content) filePaths logs) :
    tablesOf files filePaths = logs.map fun log => (run.genTable log).table := by
  induction hopen with
  | nil => rfl
  | @cons filePath log _ _ hfile _ ih =>
      have htable : tableOf files filePath = some (run.genTable log).table := by
        rw [tableOf, hfile, Option.bind_some]
        exact (run.genTable log).ofContent
      rw [tablesOf, List.filterMap_cons_some htable, List.map_cons, ← ih, tablesOf]

theorem length_dataTypes (log : FakeLog run.colCnt) : (run.dataTypes log).length = run.colCnt := by
  have hheader : (run.genTable log).colNames.length = run.colCnt :=
    (List.length_map _).trans List.length_range
  rw [← hheader]
  exact (run.genTable log).table.length_types

/-- The merge takes all rows of a log, or none. -/
theorem filter_rows (log : FakeLog run.colCnt) :
    ((run.genTable log).table.rows.filter fun row => agree (rowTypes row) (run.dataTypes run.first)) =
      if run.dataTypes log = run.dataTypes run.first then (run.genTable log).kept.map GenRow.cells else [] := by
  have hrow : ∀ row ∈ (run.genTable log).table.rows, rowTypes row = run.dataTypes log :=
    (run.genTable log).table.rowTypes_eq
  split
  case isTrue heq =>
    rw [List.filter_eq_self.mpr]
    · rfl
    · intro row hmem
      rw [hrow row hmem, heq]
      exact agree_self _
  case isFalse hne =>
    rw [List.filter_eq_nil_iff]
    intro row hmem hagree
    rw [hrow row hmem] at hagree
    exact hne (eq_of_agree hagree (by rw [length_dataTypes, length_dataTypes]))

theorem mergedRows_logs (logs : List (FakeLog run.colCnt)) :
    mergedRows (run.genTable run.first).table (logs.map fun log => (run.genTable log).table) =
      ((logs.filter (run.dataTypes · = run.dataTypes run.first)).flatMap fun log =>
        (run.genTable log).kept).map GenRow.cells := by
  induction logs with
  | nil => rfl
  | cons log logs ih =>
      have hlog := run.filter_rows log
      rw [mergedRows] at ih
      rw [mergedRows, List.map_cons, List.flatMap_cons, List.filter_append, ih, List.filter_cons]
      rw [show (run.genTable run.first).table.types = run.dataTypes run.first from rfl, hlog]
      by_cases heq : run.dataTypes log = run.dataTypes run.first
      · rw [if_pos heq, if_pos (decide_eq_true heq), List.flatMap_cons, List.map_append]
      · rw [if_neg heq, if_neg (by simpa using heq), List.nil_append]

end FakeRun

/-- `Parse` on the logs of one run. It returns true and reads nothing out of bounds, though the types of the columns
are drawn for every log. The merged parser has the rows of those logs that have the column types of the first one,
and nothing of the others. -/
theorem parseFresh_fakeRun (std : StdSort) {files : Files} {filePaths : List Bytes} (run : FakeRun)
    (hopen : List.Forall₂ (fun filePath log => files filePath = some log.content) filePaths run.logs) :
    ∃ m p, parseFresh std files filePaths = .ok (true, m) ∧ m.mergedLogParser = some p ∧
      p.colNameList = (List.range run.colCnt).map fakeColName ∧
      (∀ i, p.colIdx2colDataType.lookup i = (run.dataTypes run.first)[i]?) ∧
      p.rawContent = (run.alike.flatMap fun log => (run.genTable log).kept).map GenRow.cells := by
  have htables := run.tablesOf_logs hopen
  have hheader : ∀ table ∈ run.logs.map fun log => (run.genTable log).table,
      table.header = (List.range run.colCnt).map fakeColName := by
    intro table htable
    obtain ⟨log, -, rfl⟩ := List.mem_map.mp htable
    rfl
  have hnodup : (run.genTable run.first).table.header.Nodup := (run.genTable run.first).nodup_colNames
  obtain ⟨m, p, hparse, hmerged, hholds, -⟩ := parseFresh_merged std htables hnodup fun table htable _ => by
    rw [hheader table htable]
    exact le_refl _
  refine ⟨m, p, hparse, hmerged, hholds.colNameList, hholds.dataType, ?_⟩
  rw [hholds.rawContent]
  exact run.mergedRows_logs run.logs

/-- A log with the same number in ten columns, which are of one of the two types of numbers. -/
def tenColumns (draw : Sigma Draw) : FakeLog 10 where
  colTypes := List.replicate 10 draw.1
  length_colTypes := List.length_replicate
  rows := List.replicate 500 (List.replicate 10 draw)
  types_eq := fun row hrow => by rw [List.eq_of_mem_replicate hrow, List.map_replicate]
  length_mem := by
    rw [List.length_replicate]
    decide

/-- A log of integers and a log of timestamps. -/
def twoLogs : FakeRun where
  colCnt := 10
  colCnt_mem := by decide
  first := tenColumns ⟨.int, .int 7 (by decide)⟩
  rest := [tenColumns ⟨.timestamp, .timestamp 1700000000 100 (by decide) (by decide)⟩]
  length_rest := by decide

/-- The timestamps are lost. -/
theorem parseFresh_fakeRun_twoLogs :
    ∃ files m p, parseFresh .insertion files [ascii "a", ascii "b"] = .ok (true, m) ∧ m.mergedLogParser = some p ∧
      p.rawContent = List.replicate 500 (List.replicate 10 (ascii "7")) := by
  let files : Files := fun filePath =>
    if filePath = ascii "a" then some twoLogs.first.content
    else some (tenColumns ⟨.timestamp, .timestamp 1700000000 100 (by decide) (by decide)⟩).content
  have hopen : List.Forall₂ (fun filePath log => files filePath = some log.content) [ascii "a", ascii "b"]
      twoLogs.logs := .cons (if_pos rfl) (.cons (if_neg (by decide)) .nil)
  obtain ⟨m, p, hparse, hmerged, -, -, hrows⟩ := parseFresh_fakeRun .insertion twoLogs hopen
  have halike : twoLogs.alike = [twoLogs.first] := rfl
  have hkept : (twoLogs.genTable twoLogs.first).kept = twoLogs.first.rows :=
    (twoLogs.genTable twoLogs.first).kept_of_typical fun row hrow draw hdraw => by
      rw [List.eq_of_mem_replicate hrow] at hdraw
      rw [List.eq_of_mem_replicate hdraw]
      trivial
  refine ⟨files, m, p, hparse, hmerged, ?_⟩
  rw [hrows, halike, List.flatMap_singleton, hkept]
  exact List.map_replicate

end ToyBox.LogParser
