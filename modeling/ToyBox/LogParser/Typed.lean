import ToyBox.LogParser.FromFile
import ToyBox.LogParser.Loaded
import ToyBox.LogParser.ColumnOrder

/-! The types of the stored cells, over the whole life of a parser. `Parse` can be called again on the same
object while the file changes; a second header widens the columns past the rows of the first file, and then
the metrics of the new columns read past the end of these rows. So whenever `Parse` returns true, every cell
has the type of its column. -/

namespace ToyBox.LogParser

open Cxx Checked

/-- The parsers that a constructor and calls of `Parse` make. -/
inductive Reached (std : StdSort) : LogParser → Prop where
  | ofFile (logFilePath : Bytes) : Reached std (ofFile logFilePath)
  | ofRows (rawContent : List Row) (colName2colIdx : AList fun _ : Bytes => Nat)
      (colIdx2colDataType : AList fun _ : Nat => DataType) (colNameList : List Bytes) :
      Reached std (ofRows rawContent colName2colIdx colIdx2colDataType colNameList)
  | parse {p p' : LogParser} {files : Files} {ok : Bool} (h : Reached std p)
      (hparse : p.parse std files = .ok (ok, p')) : Reached std p'

/-- Every cell of a row in the columns has the type of its column. -/
def TypedRow (p : LogParser) (row : Row) : Prop :=
  ∀ i < p.colCnt, ∃ cell, row[i]? = some cell ∧ p.colIdx2colDataType.lookup i = some (parseColumnDataType cell)

/-- The rows of a parser that reads a file: those of the columns as they are, which are typed, and those of
an earlier file, which are narrower. -/
structure FileRows (p : LogParser) : Prop where
  colCnt : p.colCnt = p.colNameList.length
  rows : ∀ row ∈ p.rawContent, row.length < p.colCnt ∨ row.length = p.colCnt ∧ TypedRow p row

/-- The loop over the lines: between the header and the type line every row is narrower. -/
structure LoopRows (s : LineLoop) : Prop extends FileRows s.parser where
  narrow : s.validLineCnt = 1 → ∀ row ∈ s.parser.rawContent, row.length < s.parser.colCnt

theorem typedRow_of_isMismatchDataType {p : LogParser} {row : Row} (hlen : row.length = p.colCnt)
    (h : isMismatchDataType p 0 row = false) : TypedRow p row := by
  intro i hi
  have hi : i < row.length := hlen ▸ hi
  refine ⟨row[i], List.getElem?_eq_getElem hi, ?_⟩
  have htype := (isMismatchDataType_eq_false_iff p 0 row).mp h i row[i] (List.getElem?_eq_getElem hi)
  rwa [Nat.zero_add] at htype

/-- A stored line is typed; a line that is not stored changes no row. -/
theorem storeLine_rows {s : LineLoop} (colValList : List Cell) (h : FileRows s.parser)
    (hcnt : s.validLineCnt ≠ 0) (hnarrow : s.validLineCnt = 1 → ∀ row ∈ s.parser.rawContent,
      row.length < s.parser.colCnt) : LoopRows (storeLine s colValList) := by
  rw [storeLine]
  split
  case isTrue => exact ⟨h, hnarrow⟩
  case isFalse hlen =>
    split
    case isTrue => exact ⟨h, hnarrow⟩
    case isFalse hmismatch =>
      refine ⟨⟨h.colCnt, fun row hrow => ?_⟩, fun hone => ?_⟩
      · rcases List.mem_append.mp hrow with hrow | hrow
        · exact h.rows row hrow
        · obtain rfl := List.mem_singleton.mp hrow
          have hlen : row.length = s.parser.colCnt := not_not.mp hlen
          have hmatch : isMismatchDataType s.parser 0 row = false := by simpa using hmismatch
          have htyped : TypedRow s.parser row := typedRow_of_isMismatchDataType hlen hmatch
          exact Or.inr ⟨hlen, htyped⟩
      · exact absurd hone (by simp [hcnt])

/-- One line keeps the invariant of the loop. -/
theorem readLine_rows {s s' : LineLoop} {line : Bytes} (h : LoopRows s) (hline : readLine s line = .ok s') :
    LoopRows s' := by
  rw [readLine] at hline
  split at hline
  case isTrue =>
    cases hline
    exact ⟨h.toFileRows, h.narrow⟩
  case isFalse hne =>
    split at hline
    case isTrue hzero =>
      dsimp only at hline
      split at hline
      · cases hline
      · cases hline
        have hgrow : s.parser.colCnt < (s.parser.colNameList ++ parseLineContent line).length := by
          have := List.length_pos_of_ne_nil (parseLineContent_ne_nil hne)
          rw [List.length_append, ← h.colCnt]
          omega
        have hnarrow : ∀ row ∈ s.parser.rawContent,
            row.length < (s.parser.colNameList ++ parseLineContent line).length := by
          intro row hrow
          rcases h.rows row hrow with hlt | ⟨heq, -⟩
          · exact hlt.trans hgrow
          · exact heq ▸ hgrow
        exact ⟨⟨rfl, fun row hrow => Or.inl (hnarrow row hrow)⟩, fun _ => hnarrow⟩
    case isFalse hzero =>
      split at hline
      case isTrue hone =>
        dsimp only at hline
        split at hline
        case isTrue =>
          cases hline
          exact ⟨h.toFileRows, h.narrow⟩
        case isFalse =>
          cases hline
          obtain ⟨names, types, hcolumns⟩ :=
            setColumns_frame s.parser 0 s.parser.colNameList (parseLineContent line)
          rw [hcolumns]
          have hnarrow := h.narrow hone
          exact storeLine_rows _ ⟨h.colCnt, fun row hrow => Or.inl (hnarrow row hrow)⟩ hzero fun _ => hnarrow
      case isFalse =>
        cases hline
        exact storeLine_rows _ h.toFileRows hzero h.narrow

/-- No line ends the parse: a line that is not empty has a cell. -/
theorem readLine_ne_error (s : LineLoop) (line : Bytes) (p : LogParser) : readLine s line ≠ .error p := by
  intro hline
  rw [readLine] at hline
  split at hline
  · cases hline
  case isFalse hne =>
    split at hline
    · dsimp only at hline
      split at hline
      case isTrue hcolCnt =>
        have := List.length_pos_of_ne_nil (parseLineContent_ne_nil hne)
        rw [List.length_append] at hcolCnt
        omega
      case isFalse => cases hline
    · split at hline
      · dsimp only at hline
        split at hline <;> cases hline
      · cases hline

/-- The loop ends, and keeps its invariant. -/
theorem readLines_rows (lines : List Bytes) {s : LineLoop} (h : LoopRows s) :
    ∃ s', readLines s lines = .ok s' ∧ LoopRows s' := by
  induction lines generalizing s with
  | nil => exact ⟨s, rfl, h⟩
  | cons line lines ih =>
      cases hline : readLine s line with
      | error p => exact (readLine_ne_error s line p hline).elim
      | ok s₁ =>
          obtain ⟨s', hlines, hrows⟩ := ih (readLine_rows h hline)
          exact ⟨s', (readLines_cons hline lines).trans hlines, hrows⟩

/-- `ParseRawContentFromFile` keeps the rows in this state, whatever it returns. -/
theorem parseRawContentFromFile_rows (files : Files) {p : LogParser} (h : FileRows p) :
    FileRows (p.parseRawContentFromFile files).2 ∧
      (p.parseRawContentFromFile files).2.isFromFile = p.isFromFile := by
  rw [parseRawContentFromFile]
  cases files p.filePath with
  | none => exact ⟨h, rfl⟩
  | some content =>
      obtain ⟨s, hlines, hrows⟩ := readLines_rows (getlines newline content)
        (s := { parser := p }) ⟨h, fun hone => by cases hone⟩
      obtain ⟨_, _, _, _, _, hframe⟩ := readLines_frame hlines
      have hfile : s.parser.isFromFile = p.isFromFile := by rw [hframe]
      simp only [hlines]
      split
      · exact ⟨hrows.toFileRows, hfile⟩
      · exact ⟨⟨hrows.colCnt, hrows.rows⟩, hfile⟩

/-- `Parse` keeps the kind of a parser, and the state of the rows of one that reads a file. -/
theorem parse_rows {std : StdSort} {files : Files} {p p' : LogParser} {ok : Bool}
    (h : p.isFromFile = true → FileRows p) (hparse : p.parse std files = .ok (ok, p')) :
    p'.isFromFile = p.isFromFile ∧ (p'.isFromFile = true → FileRows p') := by
  obtain ⟨⟨ok', q⟩, hread, hparse⟩ := bind_eq_ok_iff.mp hparse
  have hq : q.isFromFile = p.isFromFile ∧ (q.isFromFile = true → FileRows q) := by
    rw [readContent] at hread
    split at hread
    case isTrue hfile =>
      obtain ⟨hrows, hkind⟩ := parseRawContentFromFile_rows files (h hfile)
      rw [Except.ok.inj hread] at hrows hkind
      exact ⟨hkind, fun _ => hrows⟩
    case isFalse hmem =>
      have hq : q.isFromFile = p.isFromFile := by
        rw [parseRawContent] at hread
        split at hread
        · cases hread
          rfl
        · obtain ⟨rows, -, hread⟩ := bind_eq_ok_iff.mp hread
          cases hread
          rfl
      exact ⟨hq, fun hfile => absurd (hq.symm.trans hfile) hmem⟩
  cases ok' with
  | false =>
      cases hparse
      exact hq
  | true =>
      obtain ⟨sorted, metrics, rfl⟩ := finish_frame hparse
      exact ⟨hq.1, fun hfile => ⟨(hq.2 hfile).colCnt, (hq.2 hfile).rows⟩⟩

theorem Reached.fileRows {std : StdSort} {p : LogParser} (h : Reached std p) :
    p.isFromFile = true → FileRows p := by
  induction h with
  | ofFile logFilePath => exact fun _ => ⟨rfl, fun row hrow => absurd hrow List.not_mem_nil⟩
  | ofRows => exact fun hfile => by cases hfile
  | parse _ hparse ih => exact (parse_rows ih hparse).2

/-- The rows that `ParseRawContent` keeps are typed. -/
theorem isMismatchRow_eq_false {p : LogParser} {row : Row} {colIdxs : List Nat}
    (h : isMismatchRow p row colIdxs = .ok false) :
    ∀ i ∈ colIdxs, ∃ cell, row[i]? = some cell ∧
      p.colIdx2colDataType.lookup i = some (parseColumnDataType cell) := by
  induction colIdxs with
  | nil => exact fun i hi => absurd hi List.not_mem_nil
  | cons colIdx colIdxs ih =>
      obtain ⟨cell, hcell, h⟩ := bind_eq_ok_iff.mp h
      split at h
      case isTrue => cases h
      case isFalse htype =>
        intro i hi
        rcases List.mem_cons.mp hi with rfl | hi
        · exact ⟨cell, subscript_eq_ok_iff.mp hcell, (not_not.mp htype).symm⟩
        · exact ih h i hi

theorem filterRows_typed {p : LogParser} {rows kept : List Row} (h : filterRows p rows = .ok kept) :
    ∀ row ∈ kept, TypedRow p row := by
  induction rows generalizing kept with
  | nil =>
      cases h
      exact fun row hrow => absurd hrow List.not_mem_nil
  | cons row rows ih =>
      obtain ⟨mismatch, hrow, h⟩ := bind_eq_ok_iff.mp h
      obtain ⟨parsed, hrows, h⟩ := bind_eq_ok_iff.mp h
      cases h
      cases mismatch with
      | true => exact ih hrows
      | false =>
          intro row' hrow'
          rcases List.mem_cons.mp hrow' with rfl | hrow'
          · exact fun i hi => isMismatchRow_eq_false hrow i (List.mem_range.mpr hi)
          · exact ih hrows row' hrow'

/-- When `Parse` returns true, no row of an earlier file is left, since the metrics of the last column
would have read past its end. -/
theorem Stored.typed_of_fileRows {std : StdSort} {p : LogParser} (h : Stored std p) (hrows : FileRows p) :
    ∀ row ∈ p.rawContent, TypedRow p row := by
  intro row hrow i hi
  have hlast : p.colCnt - 1 < p.colCnt := by omega
  -- the row of the minimum in the last column is wide enough, so it is typed, and the column has a type
  obtain ⟨metrics2value, minCell, -, -, -, hmin, -⟩ := h.metrics (p.colCnt - 1) hlast
  obtain ⟨column, -, hmin⟩ := bind_eq_ok_iff.mp hmin
  obtain ⟨rowIdx, -, hmin⟩ := bind_eq_ok_iff.mp hmin
  obtain ⟨minRow, hminRow, hminCell⟩ := bind_eq_ok_iff.mp hmin
  rw [subscript_eq_ok_iff] at hminRow hminCell
  have hwide := (List.getElem?_eq_some_iff.mp hminCell).1
  obtain ⟨-, htyped⟩ := (hrows.rows minRow (List.mem_of_getElem? hminRow)).resolve_left (by omega)
  obtain ⟨_, -, htype⟩ := htyped _ hlast
  -- then sorting it reads the cells of all rows
  obtain ⟨cells, -, hcells⟩ := h.exists_cell hlast htype
  obtain ⟨cell, -, hcell⟩ := hcells row hrow
  have hwide := (List.getElem?_eq_some_iff.mp hcell).1
  exact ((hrows.rows row hrow).resolve_left (by omega)).2 i hi

/-- After a `Parse` that returned true every cell has the type of its column. -/
theorem parse_typed {std : StdSort} {files : Files} {p₀ p : LogParser} (h : Reached std p₀)
    (hparse : p₀.parse std files = .ok (true, p)) : ∀ row ∈ p.rawContent, TypedRow p row := by
  obtain ⟨hkind, hrows⟩ := parse_rows h.fileRows hparse
  cases hfile : p₀.isFromFile with
  | true => exact (parse_stored hparse).typed_of_fileRows (hrows (hkind.trans hfile))
  | false =>
      obtain ⟨q, hread, hfinish⟩ := parse_eq_true hparse
      obtain ⟨sorted, metrics, rfl⟩ := finish_frame hfinish
      rw [readContent, if_neg (by simp [hfile]), parseRawContent] at hread
      split at hread
      · cases hread
      · obtain ⟨rows, hfilter, hread⟩ := bind_eq_ok_iff.mp hread
        cases hread
        have htyped : ∀ row ∈ rows, TypedRow p₀ row := filterRows_typed hfilter
        exact htyped

end ToyBox.LogParser
