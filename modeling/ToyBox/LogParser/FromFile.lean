import ToyBox.LogParser.LogParser
import ToyBox.LogParser.Table

/-! `ParseRawContentFromFile` reads exactly the table of its file. The loop has three phases, told
apart by `valid_line_cnt`: no header yet, a header but no types, and types. In the last one the types
stay fixed and the loop only appends rows. -/

namespace ToyBox.LogParser

open Cxx

/-- `j` is the last position of a name. -/
def IsLastIndex (names : List Bytes) (name : Bytes) (j : Nat) : Prop :=
  names[j]? = some name ∧ ∀ l, j < l → names[l]? ≠ some name

theorem isLastIndex_cons (name' : Bytes) (names : List Bytes) (name : Bytes) (j : Nat) :
    IsLastIndex (name' :: names) name j ↔
      (∃ k, j = k + 1 ∧ IsLastIndex names name k) ∨ (j = 0 ∧ name' = name ∧ name ∉ names) := by
  cases j with
  | zero =>
      constructor
      · rintro ⟨hname, hlast⟩
        refine Or.inr ⟨rfl, by simpa using hname, fun hmem => ?_⟩
        obtain ⟨l, hl⟩ := List.mem_iff_getElem?.mp hmem
        exact hlast (l + 1) (Nat.succ_pos l) (by simpa using hl)
      · rintro (⟨k, hk, -⟩ | ⟨-, rfl, hnot⟩)
        · exact absurd hk (by omega)
        · refine ⟨rfl, fun l hl hget => hnot ?_⟩
          cases l with
          | zero => exact absurd hl (lt_irrefl 0)
          | succ l => exact List.mem_of_getElem? (by simpa using hget)
  | succ j =>
      constructor
      · rintro ⟨hname, hlast⟩
        exact Or.inl ⟨j, rfl, by simpa using hname,
          fun l hl => by simpa using hlast (l + 1) (by omega)⟩
      · rintro (⟨k, hk, hname, hlast⟩ | ⟨h0, -⟩)
        · obtain rfl : j = k := by omega
          refine ⟨by simpa using hname, fun l hl => ?_⟩
          cases l with
          | zero => exact absurd hl (by omega)
          | succ l => simpa using hlast l (by omega)
        · exact absurd h0 (by omega)

theorem exists_isLastIndex {names : List Bytes} {name : Bytes} (hname : name ∈ names) :
    ∃ j, IsLastIndex names name j := by
  induction names with
  | nil => exact absurd hname List.not_mem_nil
  | cons name' names ih =>
      by_cases hmem : name ∈ names
      · obtain ⟨j, hj⟩ := ih hmem
        exact ⟨j + 1, (isLastIndex_cons ..).mpr (Or.inl ⟨j, rfl, hj⟩)⟩
      · have heq : name' = name := by
          rcases List.mem_cons.mp hname with h | h
          · exact h.symm
          · exact absurd h hmem
        exact ⟨0, (isLastIndex_cons ..).mpr (Or.inr ⟨rfl, heq, hmem⟩)⟩

/-- The column types of a parser are the given ones. -/
def TypedBy (p : LogParser) (types : List DataType) : Prop :=
  p.colCnt = types.length ∧ ∀ i, p.colIdx2colDataType.lookup i = types[i]?

/-! ### The type line -/

section Frame

variable (p : LogParser) (i : Nat) (colNames : List Bytes) (colVals : List Cell)

/-- The type line only changes the two column maps. -/
theorem setColumns_frame :
    ∃ names types, setColumns p i colNames colVals =
      { p with colName2colIdx := names, colIdx2colDataType := types } := by
  induction colNames generalizing p i colVals with
  | nil => exact ⟨_, _, rfl⟩
  | cons colName colNames ih =>
      cases colVals with
      | nil => exact ⟨_, _, rfl⟩
      | cons colVal colVals =>
          obtain ⟨names, types, h⟩ := ih { p with
            colName2colIdx := p.colName2colIdx.insert colName i
            colIdx2colDataType := p.colIdx2colDataType.insert i (parseColumnDataType colVal) }
            (i + 1) colVals
          exact ⟨names, types, h⟩

@[simp] theorem setColumns_colCnt : (setColumns p i colNames colVals).colCnt = p.colCnt := by
  obtain ⟨names, types, h⟩ := setColumns_frame p i colNames colVals
  rw [h]

@[simp] theorem setColumns_rawContent :
    (setColumns p i colNames colVals).rawContent = p.rawContent := by
  obtain ⟨names, types, h⟩ := setColumns_frame p i colNames colVals
  rw [h]

@[simp] theorem setColumns_colNameList :
    (setColumns p i colNames colVals).colNameList = p.colNameList := by
  obtain ⟨names, types, h⟩ := setColumns_frame p i colNames colVals
  rw [h]

end Frame

theorem lookup_type_setColumns (p : LogParser) (i : Nat) (colNames : List Bytes)
    (colVals : List Cell) (hlen : colNames.length = colVals.length) (j : Nat) :
    (setColumns p i colNames colVals).colIdx2colDataType.lookup j =
      if i ≤ j ∧ j < i + colVals.length then (rowTypes colVals)[j - i]?
      else p.colIdx2colDataType.lookup j := by
  induction colNames generalizing p i colVals with
  | nil =>
      obtain rfl : colVals = [] := List.length_eq_zero_iff.mp hlen.symm
      exact (if_neg (by simp)).symm
  | cons colName colNames ih =>
      cases colVals with
      | nil => exact absurd hlen (by simp)
      | cons colVal colVals =>
          rw [setColumns, ih _ _ colVals (by simpa using hlen)]
          by_cases hj : j = i
          · subst hj
            rw [if_neg (by omega), if_pos (by simp), AList.lookup_insert]
            simp [rowTypes]
          · rw [AList.lookup_insert_ne hj]
            by_cases hin : i + 1 ≤ j ∧ j < i + 1 + colVals.length
            · rw [if_pos hin, if_pos (by simp; omega),
                show j - i = (j - (i + 1)) + 1 by omega]
              simp [rowTypes]
            · rw [if_neg hin, if_neg (by simp; omega)]

theorem lookup_name_setColumns (p : LogParser) (i : Nat) (colNames : List Bytes)
    (colVals : List Cell) (hlen : colNames.length = colVals.length) (name : Bytes) (k : Nat) :
    (setColumns p i colNames colVals).colName2colIdx.lookup name = some k ↔
      (∃ j, k = i + j ∧ IsLastIndex colNames name j) ∨
        (name ∉ colNames ∧ p.colName2colIdx.lookup name = some k) := by
  induction colNames generalizing p i colVals with
  | nil => simp [setColumns, IsLastIndex]
  | cons colName colNames ih =>
      cases colVals with
      | nil => exact absurd hlen (by simp)
      | cons colVal colVals =>
          rw [setColumns, ih _ _ colVals (by simpa using hlen)]
          constructor
          · rintro (⟨j, rfl, hlast⟩ | ⟨hnot, hlookup⟩)
            · exact Or.inl ⟨j + 1, by omega, (isLastIndex_cons ..).mpr (Or.inl ⟨j, rfl, hlast⟩)⟩
            · by_cases hname : name = colName
              · subst hname
                rw [AList.lookup_insert] at hlookup
                cases hlookup
                exact Or.inl ⟨0, rfl, (isLastIndex_cons ..).mpr (Or.inr ⟨rfl, rfl, hnot⟩)⟩
              · rw [AList.lookup_insert_ne hname] at hlookup
                exact Or.inr ⟨by simp [hname, hnot], hlookup⟩
          · rintro (⟨j, rfl, hlast⟩ | ⟨hnot, hlookup⟩)
            · rcases (isLastIndex_cons ..).mp hlast with ⟨k, rfl, hk⟩ | ⟨rfl, rfl, hnot⟩
              · exact Or.inl ⟨k, by omega, hk⟩
              · exact Or.inr ⟨hnot, AList.lookup_insert _⟩
            · simp only [List.mem_cons, not_or] at hnot
              exact Or.inr ⟨hnot.2, by rw [AList.lookup_insert_ne hnot.1]; exact hlookup⟩

/-! ### The type check of a row -/

theorem isMismatchDataType_eq_false_iff (p : LogParser) (i : Nat) (colVals : List Cell) :
    isMismatchDataType p i colVals = false ↔
      ∀ j colVal, colVals[j]? = some colVal →
        p.colIdx2colDataType.lookup (i + j) = some (parseColumnDataType colVal) := by
  induction colVals generalizing i with
  | nil => simp [isMismatchDataType]
  | cons colVal colVals ih =>
      rw [isMismatchDataType]
      split
      case isTrue hne =>
        simp only [Bool.true_eq_false, false_iff]
        intro h
        exact hne (h 0 colVal rfl).symm
      case isFalse heq =>
        rw [ih]
        constructor
        · intro h j colVal' hj
          cases j with
          | zero =>
              obtain rfl : colVal = colVal' := by simpa using hj
              exact (not_not.mp heq).symm
          | succ j =>
              rw [show i + (j + 1) = i + 1 + j by omega]
              exact h j colVal' (by simpa using hj)
        · intro h j colVal' hj
          rw [show i + 1 + j = i + (j + 1) by omega]
          exact h (j + 1) colVal' (by simpa using hj)

/-- A row of the right width passes the check when its types are those of the columns. -/
theorem isMismatchDataType_eq {p : LogParser} {types : List DataType} (hp : TypedBy p types)
    {row : Row} (hrow : row.length = p.colCnt) :
    isMismatchDataType p 0 row = decide (rowTypes row ≠ types) := by
  have hiff : isMismatchDataType p 0 row = false ↔ rowTypes row = types := by
    rw [isMismatchDataType_eq_false_iff]
    constructor
    · intro h
      apply List.ext_getElem?
      intro i
      rw [rowTypes_getElem?]
      cases hi : row[i]? with
      | none =>
          rw [Option.map_none, eq_comm, List.getElem?_eq_none_iff, ← hp.1, ← hrow]
          exact List.getElem?_eq_none_iff.mp hi
      | some colVal =>
          rw [Option.map_some, ← h i colVal hi, Nat.zero_add, hp.2]
    · rintro rfl j colVal hj
      rw [Nat.zero_add, hp.2, rowTypes_getElem?, hj, Option.map_some]
  cases hcheck : isMismatchDataType p 0 row with
  | false => simp [hiff.mp hcheck]
  | true =>
      have hne : rowTypes row ≠ types := fun h => by rw [hiff.mpr h] at hcheck; exact Bool.noConfusion hcheck
      simp [hne]

/-! ### The three phases of the loop -/

theorem readLines_cons {s s' : LineLoop} {line : Bytes} (h : readLine s line = .ok s')
    (lines : List Bytes) : readLines s (line :: lines) = readLines s' lines := by
  rw [readLines, h]
  rfl

theorem readLine_nil (s : LineLoop) :
    readLine s [] = .ok { s with emptyLineCnt := s.emptyLineCnt + 1 } :=
  if_pos rfl

/-- With types, the loop appends the rows of these types. -/
theorem readLines_typed (types : List DataType) (lines : List Bytes) (s : LineLoop)
    (hs : TypedBy s.parser types) (hcnt : 2 ≤ s.validLineCnt) :
    ∃ s', readLines s lines = .ok s' ∧ s'.parser = { s.parser with
      rawContent := s.parser.rawContent ++
        (rowsOfWidth s.parser.colCnt lines).filter (rowTypes · = types) } := by
  induction lines generalizing s with
  | nil => exact ⟨s, rfl, by rw [rowsOfWidth_nil, List.filter_nil, List.append_nil]⟩
  | cons line lines ih =>
      by_cases hline : line = []
      · subst hline
        obtain ⟨s', hrun, hparser⟩ := ih { s with emptyLineCnt := s.emptyLineCnt + 1 } hs hcnt
        exact ⟨s', by rw [readLines_cons (readLine_nil s), hrun],
          by rw [hparser, rowsOfWidth_cons, if_neg (by simp)]⟩
      have hread : readLine s line = .ok (storeLine s (parseLineContent line)) := by
        rw [readLine, if_neg hline, if_neg (by omega), if_neg (by omega)]
      rw [readLines_cons hread]
      by_cases hwidth : (parseLineContent line).length = s.parser.colCnt
      · by_cases htypes : rowTypes (parseLineContent line) = types
        · have hstore : storeLine s (parseLineContent line) = { s with
              validLineCnt := s.validLineCnt + 1
              parser := { s.parser with
                rawContent := s.parser.rawContent ++ [parseLineContent line] } } := by
            rw [storeLine, if_neg (not_not.mpr hwidth), isMismatchDataType_eq hs hwidth,
              if_neg (by simp [htypes])]
          obtain ⟨s', hrun, hparser⟩ := ih (storeLine s (parseLineContent line))
            (by rw [hstore]; exact hs) (by rw [hstore]; exact hcnt.trans (Nat.le_succ _))
          refine ⟨s', hrun, ?_⟩
          rw [hparser, hstore, rowsOfWidth_cons, if_pos ⟨hline, hwidth⟩]
          simp [htypes]
        · have hstore : storeLine s (parseLineContent line) =
              { s with mismatchDataTypeCnt := s.mismatchDataTypeCnt + 1 } := by
            rw [storeLine, if_neg (not_not.mpr hwidth), isMismatchDataType_eq hs hwidth,
              if_pos (by simpa using htypes)]
          obtain ⟨s', hrun, hparser⟩ := ih (storeLine s (parseLineContent line))
            (by rw [hstore]; exact hs) (by rw [hstore]; exact hcnt)
          refine ⟨s', hrun, ?_⟩
          rw [hparser, hstore, rowsOfWidth_cons, if_pos ⟨hline, hwidth⟩]
          simp [htypes]
      · have hstore : storeLine s (parseLineContent line) =
            { s with mismatchColCnt := s.mismatchColCnt + 1 } := by
          rw [storeLine, if_pos hwidth]
        obtain ⟨s', hrun, hparser⟩ := ih (storeLine s (parseLineContent line))
          (by rw [hstore]; exact hs) (by rw [hstore]; exact hcnt)
        refine ⟨s', hrun, ?_⟩
        rw [hparser, hstore, rowsOfWidth_cons, if_neg (by simp [hwidth])]

/-- The types of the type line are the types of the columns from then on. -/
theorem typedBy_setColumns (p : LogParser) (colVals : List Cell)
    (hnames : p.colNameList.length = p.colCnt) (hvals : colVals.length = p.colCnt)
    (hfresh : p.colIdx2colDataType = ∅) :
    TypedBy (setColumns p 0 p.colNameList colVals) (rowTypes colVals) := by
  constructor
  · rw [length_rowTypes, hvals, setColumns_colCnt]
  · intro i
    rw [lookup_type_setColumns _ _ _ _ (hnames.trans hvals.symm), hfresh, AList.lookup_empty]
    by_cases hi : i < colVals.length
    · rw [if_pos (by omega), Nat.sub_zero]
    · rw [if_neg (by omega), eq_comm, List.getElem?_eq_none_iff, length_rowTypes]
      omega

/-- With a header but no types, the loop skips the lines of another width; the first line of the
right width sets the types and is the first row. -/
theorem readLines_header (lines : List Bytes) (s : LineLoop) (hcnt : s.validLineCnt = 1)
    (hnames : s.parser.colNameList.length = s.parser.colCnt) (hfresh : s.parser.colIdx2colDataType = ∅)
    (hrows : s.parser.rawContent = []) :
    ∃ s', readLines s lines = .ok s' ∧
      s'.parser = match rowsOfWidth s.parser.colCnt lines with
        | [] => s.parser
        | typeRow :: rest =>
            { setColumns s.parser 0 s.parser.colNameList typeRow with
              rawContent := typedRows typeRow (typeRow :: rest) } := by
  induction lines generalizing s with
  | nil => exact ⟨s, rfl, rfl⟩
  | cons line lines ih =>
      by_cases hline : line = []
      · subst hline
        obtain ⟨s', hrun, hparser⟩ :=
          ih { s with emptyLineCnt := s.emptyLineCnt + 1 } hcnt hnames hfresh hrows
        exact ⟨s', by rw [readLines_cons (readLine_nil s), hrun],
          by rw [hparser, rowsOfWidth_cons, if_neg (by simp)]⟩
      by_cases hwidth : (parseLineContent line).length = s.parser.colCnt
      · have htyped := typedBy_setColumns s.parser (parseLineContent line) hnames hwidth hfresh
        let typed : LineLoop :=
          { s with parser := setColumns s.parser 0 s.parser.colNameList (parseLineContent line) }
        have hread : readLine s line = .ok (storeLine typed (parseLineContent line)) := by
          rw [readLine, if_neg hline, if_neg (by omega), if_pos hcnt, if_neg (not_not.mpr hwidth)]
        have hstore : storeLine typed (parseLineContent line) =
            { typed with
              validLineCnt := s.validLineCnt + 1
              parser := { typed.parser with rawContent := [parseLineContent line] } } := by
          rw [storeLine, if_neg (by simp [typed, hwidth]),
            isMismatchDataType_eq htyped (by simp [hwidth]), if_neg (by simp)]
          simp [typed, setColumns_rawContent, hrows]
        obtain ⟨s', hrun, hparser⟩ := readLines_typed (rowTypes (parseLineContent line)) lines
          (storeLine typed (parseLineContent line)) (by rw [hstore]; exact htyped)
          (by rw [hstore, hcnt])
        refine ⟨s', by rw [readLines_cons hread, hrun], ?_⟩
        rw [hparser, hstore, rowsOfWidth_cons, if_pos ⟨hline, hwidth⟩]
        simp [typed, typedRows]
      · have hread : readLine s line = .ok { s with mismatchColCnt := s.mismatchColCnt + 1 } := by
          rw [readLine, if_neg hline, if_neg (by omega), if_pos hcnt, if_pos hwidth]
        obtain ⟨s', hrun, hparser⟩ :=
          ih { s with mismatchColCnt := s.mismatchColCnt + 1 } hcnt hnames hfresh hrows
        exact ⟨s', by rw [readLines_cons hread, hrun],
          by rw [hparser, rowsOfWidth_cons, if_neg (by simp [hwidth])]⟩

/-- Without a header, the loop takes the first nonempty line as one. -/
theorem readLines_start (lines : List Bytes) (s : LineLoop) (hcnt : s.validLineCnt = 0)
    (hnames : s.parser.colNameList = []) (hfresh : s.parser.colIdx2colDataType = ∅)
    (hrows : s.parser.rawContent = []) :
    ∃ s', readLines s lines = .ok s' ∧
      s'.parser = match lines.filter (· ≠ []) with
        | [] => s.parser
        | header :: body =>
            let p : LogParser := { s.parser with
              colNameList := parseLineContent header
              colCnt := (parseLineContent header).length }
            match rowsOfWidth p.colCnt body with
            | [] => p
            | typeRow :: rest =>
                { setColumns p 0 p.colNameList typeRow with
                  rawContent := typedRows typeRow (typeRow :: rest) } := by
  induction lines generalizing s with
  | nil => exact ⟨s, rfl, rfl⟩
  | cons line lines ih =>
      by_cases hline : line = []
      · subst hline
        obtain ⟨s', hrun, hparser⟩ :=
          ih { s with emptyLineCnt := s.emptyLineCnt + 1 } hcnt hnames hfresh hrows
        exact ⟨s', by rw [readLines_cons (readLine_nil s), hrun], hparser⟩
      let p : LogParser := { s.parser with
        colNameList := parseLineContent line
        colCnt := (parseLineContent line).length }
      have hread : readLine s line = .ok { s with parser := p, validLineCnt := 1 } := by
        have hwidth : (parseLineContent line).length ≠ 0 := by
          simpa using parseLineContent_ne_nil hline
        rw [readLine, if_neg hline, if_pos hcnt]
        simp only [hnames, List.nil_append, hcnt]
        rw [if_neg hwidth]
      obtain ⟨s', hrun, hparser⟩ :=
        readLines_header lines { s with parser := p, validLineCnt := 1 } rfl rfl hfresh hrows
      refine ⟨s', by rw [readLines_cons hread, hrun], ?_⟩
      rw [hparser, List.filter_cons_of_pos (by simpa using hline)]
      simp only [rowsOfWidth_filter]
      rfl

/-! ### The whole file -/

/-- A parser that has read a table. -/
structure Holds (p : LogParser) (table : Table) : Prop where
  colNameList : p.colNameList = table.header
  colCnt : p.colCnt = table.header.length
  rawContent : p.rawContent = table.rows
  rowCnt : p.rowCnt = table.rows.length
  dataType : ∀ i, p.colIdx2colDataType.lookup i = table.types[i]?
  colIdx : ∀ name i, p.colName2colIdx.lookup name = some i ↔ IsLastIndex table.header name i

/-- Reading a file gives its table, and fails when it has none. -/
theorem parseRawContentFromFile_ofFile (files : Files) (filePath content : Bytes)
    (hopen : files filePath = some content) :
    match Table.ofContent content with
    | none => ((ofFile filePath).parseRawContentFromFile files).1 = false
    | some table => ((ofFile filePath).parseRawContentFromFile files).1 = true ∧
        Holds ((ofFile filePath).parseRawContentFromFile files).2 table := by
  obtain ⟨s, hrun, hparser⟩ := readLines_start (getlines newline content)
    { parser := ofFile filePath } rfl rfl rfl rfl
  have hrow : ∀ p : LogParser, s.parser = p → (ofFile filePath).parseRawContentFromFile files =
      if p.rawContent = [] then (false, p) else (true, { p with rowCnt := p.rawContent.length }) := by
    rintro p rfl
    rw [parseRawContentFromFile, show files (ofFile filePath).filePath = some content from hopen]
    simp only [hrun]
  cases hlines : nonemptyLines content with
  | nil =>
      have hwide : wideRows content = [] := by simp [wideRows, bodyLines, hlines]
      rw [Table.ofContent_eq_none hwide]
      rw [show (getlines newline content).filter (· ≠ []) = [] from hlines] at hparser
      rw [hrow _ hparser]
      rfl
  | cons header body =>
      have hheader : headerRow content = parseLineContent header := by
        simp [headerRow, headerLine?, hlines]
      have hbody : bodyLines content = body := by simp [bodyLines, hlines]
      rw [show (getlines newline content).filter (· ≠ []) = header :: body from hlines] at hparser
      cases hwide : wideRows content with
      | nil =>
          rw [Table.ofContent_eq_none hwide]
          rw [wideRows, hheader, hbody] at hwide
          simp only [hwide] at hparser
          rw [hrow _ hparser]
          rfl
      | cons typeRow rest =>
          obtain ⟨table, htable, hth, htt, htr⟩ := Table.ofContent_eq_some hwide
          have hlen : (parseLineContent header).length = typeRow.length := by
            rw [← hheader]
            exact (length_of_mem_wideRows (hwide ▸ List.mem_cons_self)).symm
          rw [hwide] at htr
          rw [wideRows, hheader, hbody] at hwide
          simp only [hwide] at hparser
          have hne : typedRows typeRow (typeRow :: rest) ≠ [] := by simp [typedRows]
          rw [htable, hrow _ hparser, if_neg hne]
          refine ⟨rfl, ?_, ?_, ?_, ?_, ?_, ?_⟩
          · rw [hth, hheader]; exact setColumns_colNameList ..
          · rw [hth, hheader]; exact setColumns_colCnt ..
          · exact htr.symm
          · exact (congrArg List.length htr).symm
          · intro i
            rw [htt]
            exact (typedBy_setColumns { ofFile filePath with
              colNameList := parseLineContent header
              colCnt := (parseLineContent header).length } typeRow rfl hlen.symm rfl).2 i
          · intro name i
            rw [hth, hheader]
            refine (lookup_name_setColumns _ 0 _ typeRow hlen name i).trans ?_
            constructor
            · rintro (⟨j, rfl, hlast⟩ | ⟨-, hlookup⟩)
              · rwa [Nat.zero_add]
              · exact absurd hlookup (by simp [ofFile])
            · exact fun hlast => Or.inl ⟨i, (Nat.zero_add i).symm, hlast⟩

/-- `ParseRawContentFromFile` on a fresh parser and a file that can be opened. It returns true exactly
when some line below the header is as wide as the header. Then the rows are, in file order, the wide
lines with the types of the first wide line, and both column maps are complete. -/
theorem parseRawContentFromFile_spec (files : Files) (filePath content : Bytes)
    (hopen : files filePath = some content) :
    (((ofFile filePath).parseRawContentFromFile files).1 = true ↔
      ∃ line ∈ bodyLines content, (parseLineContent line).length = (headerRow content).length) ∧
    (((ofFile filePath).parseRawContentFromFile files).1 = true →
      ∃ p typeRow rest, ((ofFile filePath).parseRawContentFromFile files).2 = p ∧
        ((bodyLines content).map parseLineContent).filter
          (·.length = (headerRow content).length) = typeRow :: rest ∧
        p.rawContent = (typeRow :: rest).filter (rowTypes · = rowTypes typeRow) ∧
        p.colNameList = headerRow content ∧ p.colCnt = (headerRow content).length ∧
        p.rowCnt = p.rawContent.length ∧ 1 ≤ p.rowCnt ∧
        (∀ i < p.colCnt, ∃ dataType, p.colIdx2colDataType.lookup i = some dataType ∧
          (rowTypes typeRow)[i]? = some dataType) ∧
        ∀ name i, p.colName2colIdx.lookup name = some i ↔ IsLastIndex (headerRow content) name i) := by
  have hread := parseRawContentFromFile_ofFile files filePath content hopen
  have hbody : (bodyLines content).filter (· ≠ []) = bodyLines content := by
    rw [List.filter_eq_self]
    intro line hline
    exact (List.mem_filter.mp (List.mem_of_mem_tail hline)).2
  have hwideRows : wideRows content = ((bodyLines content).map parseLineContent).filter
      (·.length = (headerRow content).length) := by
    rw [wideRows, rowsOfWidth, hbody]
  have hline : wideRows content ≠ [] ↔
      ∃ line ∈ bodyLines content, (parseLineContent line).length = (headerRow content).length := by
    rw [hwideRows]
    simp
  cases hwide : wideRows content with
  | nil =>
      rw [Table.ofContent_eq_none hwide] at hread
      rw [hwide] at hline
      simp only [hread, Bool.false_eq_true, false_iff, false_implies, and_true]
      exact fun h => hline.mpr h rfl
  | cons typeRow rest =>
      obtain ⟨table, htable, hheader, htypes, hrows⟩ := Table.ofContent_eq_some hwide
      rw [htable] at hread
      obtain ⟨hret, hp⟩ := hread
      refine ⟨iff_of_true hret (hline.mp (by simp [hwide])), fun _ =>
        ⟨_, typeRow, rest, rfl, hwideRows.symm.trans hwide, ?_, ?_, ?_, ?_, ?_, ?_, ?_⟩⟩
      · rw [hp.rawContent, hrows, hwide, typedRows]
      · rw [hp.colNameList, hheader]
      · rw [hp.colCnt, hheader]
      · rw [hp.rowCnt, hp.rawContent]
      · rw [hp.rowCnt]
        exact List.length_pos_of_ne_nil table.rows_ne_nil
      · intro i hi
        rw [hp.colCnt, ← table.length_types] at hi
        refine ⟨table.types[i], ?_, ?_⟩
        · rw [hp.dataType, List.getElem?_eq_getElem hi]
        · rw [← htypes, List.getElem?_eq_getElem hi]
      · intro name i
        rw [← hheader]
        exact hp.colIdx name i

/-- A file with an empty line and a short line before the types, and a line of other types after. -/
def sampleFile : Bytes := ascii "a\tb\n\nx\n1\tx\n2\ty\nz\tz\n"

theorem parseRawContentFromFile_spec_sample :
    ((ofFile (ascii "f")).parseRawContentFromFile fun _ => some sampleFile).1 = true :=
  (parseRawContentFromFile_spec (fun _ => some sampleFile) (ascii "f") sampleFile rfl).1.mpr
    (by decide)

end ToyBox.LogParser
