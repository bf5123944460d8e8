import ToyBox.LogParser.Typed

/-! A second `Parse` of the same file. `ParseRawContentFromFile` appends to the column names and to the rows it
finds in the object, so that the header doubles the columns while the rows of the first call stay as they are;
the second call cannot get through the last column. -/

namespace ToyBox.LogParser

open Cxx Checked

/-- Two index vectors of a column that differ in ties only. -/
def SameUpToTies (p : LogParser) (colIdx : Nat) (column column' : List Nat) : Prop :=
  column.length = column'.length ∧
  ∀ idx a b : Nat, column[idx]? = some a → column'[idx]? = some b →
    ∀ dataType, p.colIdx2colDataType.lookup colIdx = some dataType →
      let cells := p.rawContent.map fun row => row.getD colIdx []
      columnLess dataType cells a b = false ∧ columnLess dataType cells b a = false

/-- `Parse` once more returns true and leaves everything as it was. -/
def ParsesAgain (std : StdSort) (files : Files) (p : LogParser) : Prop :=
  ∃ p', p.parse std files = .ok (true, p') ∧
    p'.rowCnt = p.rowCnt ∧ p'.colCnt = p.colCnt ∧ p'.colNameList = p.colNameList ∧
    p'.rawContent = p.rawContent ∧
    (∀ colIdx, p'.colIdx2colDataType.lookup colIdx = p.colIdx2colDataType.lookup colIdx) ∧
    p'.sortedContentByCol.length = p.sortedContentByCol.length ∧
    (∀ colIdx column column', p.sortedContentByCol[colIdx]? = some column →
      p'.sortedContentByCol[colIdx]? = some column' → SameUpToTies p colIdx column column') ∧
    ∀ colName metricName, p'.calculate colName metricName = p.calculate colName metricName

/-! ### The loop on an object that is not empty -/

/-- The rows stay in front, and the columns do not get fewer. -/
structure Grown (p p' : LogParser) : Prop where
  rows : p.rawContent <+: p'.rawContent
  colCnt : p.colCnt ≤ p'.colCnt

theorem Grown.refl (p : LogParser) : Grown p p := ⟨List.prefix_rfl, Nat.le_refl _⟩

theorem Grown.trans {p p' p'' : LogParser} (h : Grown p p') (h' : Grown p' p'') : Grown p p'' :=
  ⟨h.rows.trans h'.rows, h.colCnt.trans h'.colCnt⟩

theorem storeLine_grown (s : LineLoop) (colValList : List Cell) :
    Grown s.parser (storeLine s colValList).parser := by
  rw [storeLine]
  split
  · exact .refl _
  · split
    · exact .refl _
    · exact ⟨List.prefix_append _ _, Nat.le_refl _⟩

/-- A line adds to the object; the header adds columns. -/
theorem readLine_grown {s s' : LineLoop} {line : Bytes} (hnames : s.parser.colCnt = s.parser.colNameList.length)
    (h : readLine s line = .ok s') :
    Grown s.parser s'.parser ∧
      (line ≠ [] → s.validLineCnt = 0 → s.parser.colCnt < s'.parser.colCnt) := by
  rw [readLine] at h
  split at h
  case isTrue hempty =>
    cases h
    exact ⟨.refl _, fun hline => absurd hempty hline⟩
  case isFalse hne =>
    split at h
    case isTrue hzero =>
      dsimp only at h
      split at h
      · cases h
      · cases h
        have hlength : s.parser.colCnt < (s.parser.colNameList ++ parseLineContent line).length := by
          have := List.length_pos_of_ne_nil (parseLineContent_ne_nil hne)
          rw [List.length_append, ← hnames]
          omega
        exact ⟨⟨List.prefix_rfl, hlength.le⟩, fun _ _ => hlength⟩
    case isFalse hzero =>
      split at h
      · dsimp only at h
        split at h
        · cases h
          exact ⟨.refl _, fun _ => (absurd · hzero)⟩
        · cases h
          obtain ⟨names, types, hcolumns⟩ :=
            setColumns_frame s.parser 0 s.parser.colNameList (parseLineContent line)
          refine ⟨.trans ?_ (storeLine_grown _ _), fun _ => (absurd · hzero)⟩
          rw [hcolumns]
          exact ⟨List.prefix_rfl, Nat.le_refl _⟩
      · cases h
        exact ⟨storeLine_grown s _, fun _ => (absurd · hzero)⟩

/-- All lines together: if one is not empty, there are more columns than before. -/
theorem readLines_grown {lines : List Bytes} {s s' : LineLoop} (hs : LoopRows s)
    (h : readLines s lines = .ok s') :
    Grown s.parser s'.parser ∧
      ((∃ line ∈ lines, line ≠ []) → s.validLineCnt = 0 → s.parser.colCnt < s'.parser.colCnt) := by
  induction lines generalizing s with
  | nil =>
      cases h
      exact ⟨.refl _, fun ⟨line, hline, _⟩ => absurd hline List.not_mem_nil⟩
  | cons line lines ih =>
      obtain ⟨s₁, hline, hlines⟩ := bind_eq_ok_iff.mp h
      obtain ⟨hgrown, hheader⟩ := readLine_grown hs.colCnt hline
      obtain ⟨hgrown', hheader'⟩ := ih (readLine_rows hs hline) hlines
      refine ⟨hgrown.trans hgrown', fun hsome hzero => ?_⟩
      by_cases hempty : line = []
      · -- an empty line counts for nothing
        subst hempty
        rw [readLine_nil] at hline
        cases hline
        obtain ⟨line', hmem, hne⟩ := hsome
        exact hheader' ⟨line', (List.mem_cons.mp hmem).resolve_left hne, hne⟩ hzero
      · exact (hheader hempty hzero).trans_le hgrown'.colCnt

/-- A second reading of a file that was read with success returns true, with more columns and the old rows in
front. -/
theorem parseRawContentFromFile_again {files : Files} {path content : Bytes} {p : LogParser}
    (hopen : files path = some content) (hread : ((ofFile path).parseRawContentFromFile files).1 = true)
    (hpath : p.filePath = path) (hrows : FileRows p) (hne : p.rawContent ≠ []) :
    ∃ p', p.parseRawContentFromFile files = (true, p') ∧ p.rawContent <+: p'.rawContent ∧
      p.colCnt < p'.colCnt := by
  obtain ⟨line, hline, -⟩ := (parseRawContentFromFile_spec files path content hopen).1.mp hread
  have hsome : ∃ line ∈ getlines newline content, line ≠ [] := by
    have hmem := List.mem_filter.mp (List.mem_of_mem_tail hline)
    exact ⟨line, hmem.1, by simpa using hmem.2⟩
  have hs : LoopRows { parser := p } := ⟨hrows, fun hone => by cases hone⟩
  obtain ⟨s', hlines, -⟩ := readLines_rows (getlines newline content) hs
  obtain ⟨hgrown, hcolumns⟩ := readLines_grown hs hlines
  have hne' : s'.parser.rawContent ≠ [] := fun hnil => hne (List.prefix_nil.mp (hnil ▸ hgrown.rows))
  rw [parseRawContentFromFile, hpath, hopen]
  simp only [hlines]
  rw [if_neg hne']
  exact ⟨_, rfl, hgrown.rows, hcolumns hsome rfl⟩

/-- What a first `Parse` that returned true has read. -/
theorem exists_read_of_parse {std : StdSort} {files : Files} {path : Bytes} {p : LogParser}
    (hparse : (ofFile path).parse std files = .ok (true, p)) :
    ∃ content, files path = some content ∧ ((ofFile path).parseRawContentFromFile files).1 = true ∧
      p.isFromFile = true ∧ p.filePath = path ∧ p.rawContent ≠ [] := by
  obtain ⟨q, hread, hfinish⟩ := parse_eq_true hparse
  obtain ⟨sorted, metrics, rfl⟩ := finish_frame hfinish
  replace hread : (ofFile path).parseRawContentFromFile files = (true, q) := Except.ok.inj hread
  have htrue := congrArg Prod.fst hread
  rw [parseRawContentFromFile] at hread
  cases hopen : files (ofFile path).filePath with
  | none =>
      rw [hopen] at hread
      cases hread
  | some content =>
      rw [hopen] at hread
      cases hlines : readLines { parser := ofFile path } (getlines newline content) with
      | error p =>
          simp only [hlines] at hread
          cases hread
      | ok s =>
          simp only [hlines] at hread
          split at hread
          · cases hread
          · rename_i hne
            cases hread
            obtain ⟨_, _, _, _, _, hframe⟩ := readLines_frame hlines
            exact ⟨content, hopen, htrue, by rw [hframe]; rfl, by rw [hframe]; rfl, hne⟩

theorem ok_of_finish {std : StdSort} {p p' : LogParser} {ok : Bool} (h : finish std p = .ok (ok, p')) :
    ok = true := by
  obtain ⟨_, _, h⟩ := bind_eq_ok_iff.mp h
  obtain ⟨_, _, h⟩ := bind_eq_ok_iff.mp h
  cases h
  rfl

/-- Whatever the file, a second `Parse` after one that returned true makes an access out of range. -/
theorem not_parsesAgain (std : StdSort) (files : Files) (path : Bytes) {p : LogParser}
    (hparse : (ofFile path).parse std files = .ok (true, p)) :
    (∃ fault, p.parse std files = .error fault) ∧ ¬ParsesAgain std files p := by
  have hreached : Reached std p := .parse (.ofFile path) hparse
  obtain ⟨content, hopen, hread, hfile, hpath, hne⟩ := exists_read_of_parse hparse
  obtain ⟨p', hagain, hrows, hcolumns⟩ :=
    parseRawContentFromFile_again hopen hread hpath (hreached.fileRows hfile) hne
  have hnot : ∀ ok p'', p.parse std files ≠ .ok (ok, p'') := by
    intro ok p'' hok
    have hfinish : p.parse std files = finish std p' := by
      rw [LogParser.parse, readContent, if_pos hfile, hagain]
      rfl
    rw [hfinish] at hok
    obtain ⟨sorted, metrics, rfl⟩ := finish_frame hok
    obtain rfl := ok_of_finish hok
    obtain ⟨row, rest, hfirst⟩ := List.exists_cons_of_ne_nil hne
    have hmem : row ∈ p.rawContent := hfirst ▸ List.mem_cons_self
    -- a row of the first call has no cell in a column of the second
    have hnarrow : row.length ≤ p.colCnt := by
      rcases (hreached.fileRows hfile).rows row hmem with hlt | ⟨heq, -⟩
      · exact hlt.le
      · exact heq.le
    have htyped : TypedRow p' row := parse_typed hreached (hfinish.trans hok) row (hrows.subset hmem)
    obtain ⟨cell, hcell, -⟩ := htyped p.colCnt hcolumns
    have := (List.getElem?_eq_some_iff.mp hcell).1
    omega
  constructor
  · cases hagain' : p.parse std files with
    | error fault => exact ⟨fault, rfl⟩
    | ok result => exact absurd hagain' (hnot result.1 result.2)
  · rintro ⟨p'', hok, -⟩
    exact hnot true p'' hok

/-- A file of one column and one row. -/
def oneCell : Files := fun _ => some (ascii "a\n1\n")

/-- `not_parsesAgain` for a file of one cell. -/
theorem not_parsesAgain_oneCell :
    ∃ p, (ofFile (ascii "log")).parse .insertion oneCell = .ok (true, p) ∧
      (∃ fault, p.parse .insertion oneCell = .error fault) ∧ ¬ParsesAgain .insertion oneCell p := by
  have hparse : ∃ p, (ofFile (ascii "log")).parse .insertion oneCell = .ok (true, p) := ⟨_, rfl⟩
  obtain ⟨p, hparse⟩ := hparse
  exact ⟨p, hparse, not_parsesAgain .insertion oneCell (ascii "log") hparse⟩

/-- With two parses of it, the second reads past the end of the row. -/
theorem parse_twice_oneCell :
    ∃ p, (ofFile (ascii "log")).parse .insertion oneCell = .ok (true, p) ∧
      p.parse .insertion oneCell = .error (.cell 1) ∧
      ¬∀ std files path p, (ofFile path).parse std files = .ok (true, p) → ParsesAgain std files p := by
  have hrun : ∃ p, (ofFile (ascii "log")).parse .insertion oneCell = .ok (true, p) ∧
      p.parse .insertion oneCell = .error (.cell 1) := ⟨_, rfl, rfl⟩
  obtain ⟨p, hparse, hagain⟩ := hrun
  refine ⟨p, hparse, hagain, fun h => ?_⟩
  obtain ⟨p', hok, -⟩ := h .insertion oneCell (ascii "log") p hparse
  rw [hagain] at hok
  cases hok

end ToyBox.LogParser
