import ToyBox.LogParser.FileOrder

/-! Merging is a homomorphism. Among files with one header and one choice of column types, the merge of the
parsed files is the parse of one file, made of the header and of all lines below the headers. The two take
different ways through the code, but both end in a table, and a table decides what is sorted and stored. -/

namespace ToyBox.LogParser

open Cxx

/-- The lines of a file below its header line, empty ones included. -/
def postHeaderLines (content : Bytes) : List Bytes :=
  ((getlines newline content).dropWhile (· = [])).tail

/-- A header line, and the lines below the headers of some files. -/
def oneFile (header : Bytes) (contents : List Bytes) : Bytes :=
  joinLines newline (header :: contents.flatMap postHeaderLines)

theorem filter_postHeaderLines (content : Bytes) :
    (postHeaderLines content).filter (· ≠ []) = bodyLines content := by
  rw [postHeaderLines, bodyLines, nonemptyLines]
  induction getlines newline content with
  | nil => rfl
  | cons line lines ih =>
      by_cases hline : line = []
      · rw [List.dropWhile_cons_of_pos (by simpa using hline), List.filter_cons_of_neg (by simpa using hline), ih]
      · rw [List.dropWhile_cons_of_neg (by simpa using hline), List.filter_cons_of_pos (by simpa using hline)]
        rfl

theorem newline_notMem_of_mem_postHeaderLines {content line : Bytes} (h : line ∈ postHeaderLines content) :
    newline ∉ line :=
  not_mem_of_mem_getlines newline
    ((List.dropWhile_sublist _).subset ((List.tail_sublist _).subset h))

/-- A header line is a line of its file that is not empty. -/
theorem headerLine_spec {content line : Bytes} (h : headerLine? content = some line) :
    line ≠ [] ∧ newline ∉ line := by
  obtain ⟨hmem, hne⟩ := List.mem_filter.mp (List.mem_of_mem_head? h)
  exact ⟨by simpa using hne, not_mem_of_mem_getlines newline hmem⟩

section OneFile

variable {header : Bytes} (hne : header ≠ []) (hline : newline ∉ header)

include hne hline in
theorem nonemptyLines_oneFile (contents : List Bytes) :
    nonemptyLines (oneFile header contents) = header :: contents.flatMap bodyLines := by
  have hlines : getlines newline (oneFile header contents) = header :: contents.flatMap postHeaderLines := by
    apply getlines_joinLines
    intro line hmem
    rcases List.mem_cons.mp hmem with rfl | hmem
    · exact hline
    · obtain ⟨content, -, hmem⟩ := List.mem_flatMap.mp hmem
      exact newline_notMem_of_mem_postHeaderLines hmem
  rw [nonemptyLines, hlines, List.filter_cons_of_pos (by simpa using hne), List.filter_flatMap]
  simp only [filter_postHeaderLines]

include hne hline in
theorem headerRow_oneFile (contents : List Bytes) :
    headerRow (oneFile header contents) = parseLineContent header := by
  rw [headerRow, headerLine?, nonemptyLines_oneFile hne hline]
  rfl

include hne hline in
/-- The wide rows of the one file are those of the files in turn. -/
theorem wideRows_oneFile {contents : List Bytes}
    (hheader : ∀ content ∈ contents, ∀ line, headerLine? content = some line → line = header) :
    wideRows (oneFile header contents) = contents.flatMap wideRows := by
  have hwide : ∀ content ∈ contents,
      rowsOfWidth (parseLineContent header).length (bodyLines content) = wideRows content := by
    intro content hcontent
    cases h : nonemptyLines content with
    | nil => simp [wideRows, bodyLines, h]
    | cons line body =>
        have hfirst : headerLine? content = some line := by rw [headerLine?, h]; rfl
        rw [wideRows, headerRow, hfirst, hheader content hcontent line hfirst]
        rfl
  rw [wideRows, headerRow_oneFile hne hline, bodyLines, nonemptyLines_oneFile hne hline, List.tail_cons]
  clear hheader
  induction contents with
  | nil => rfl
  | cons content contents ih =>
      rw [List.flatMap_cons, List.flatMap_cons, ← hwide content List.mem_cons_self,
        ← ih fun content' hcontent' => hwide content' (List.mem_cons_of_mem content hcontent')]
      simp only [rowsOfWidth, List.filter_append, List.map_append]

end OneFile

/-- The wide rows of a file that have the types of its table are the rows of the table. -/
theorem filter_wideRows (types : List DataType) (content : Bytes)
    (htypes : ∀ table, Table.ofContent content = some table → table.types = types) :
    (wideRows content).filter (rowTypes · = types) = ((Table.ofContent content).map Table.rows).getD [] := by
  cases hwide : wideRows content with
  | nil =>
      rw [Table.ofContent_eq_none hwide]
      rfl
  | cons typeRow rest =>
      obtain ⟨table, htable, -, htypeRow, hrows⟩ := Table.ofContent_eq_some hwide
      rw [htable, Option.map_some, Option.getD_some, hrows, typedRows, hwide, ← htypeRow,
        htypes table htable]

theorem filter_flatMap_wideRows (types : List DataType) (contents : List Bytes)
    (htypes : ∀ table ∈ contents.filterMap Table.ofContent, table.types = types) :
    (contents.flatMap wideRows).filter (rowTypes · = types) =
      (contents.filterMap Table.ofContent).flatMap Table.rows := by
  induction contents with
  | nil => rfl
  | cons content contents ih =>
      rw [List.flatMap_cons, List.filter_append]
      cases h : Table.ofContent content with
      | none =>
          rw [List.filterMap_cons_none h] at htypes ⊢
          rw [filter_wideRows types content (fun table htable => nomatch h.symm.trans htable), h, ih htypes]
          rfl
      | some table =>
          rw [List.filterMap_cons_some h] at htypes ⊢
          rw [filter_wideRows types content, h, List.flatMap_cons,
            ih fun table' htable' => htypes table' (List.mem_cons_of_mem table htable')]
          · rfl
          · intro table' htable'
            obtain rfl := Option.some.inj (h.symm.trans htable')
            exact htypes table List.mem_cons_self

/-- The first wide row of some files has the types of the first table. -/
theorem exists_typeRow {contents : List Bytes} {first : Table} {rest : List Table}
    (htables : contents.filterMap Table.ofContent = first :: rest) :
    ∃ typeRow rows, contents.flatMap wideRows = typeRow :: rows ∧ rowTypes typeRow = first.types := by
  induction contents with
  | nil => cases htables
  | cons content contents ih =>
      rw [List.flatMap_cons]
      cases hwide : wideRows content with
      | nil =>
          rw [List.filterMap_cons_none (Table.ofContent_eq_none hwide)] at htables
          exact ih htables
      | cons typeRow rows =>
          obtain ⟨table, htable, -, htypeRow, -⟩ := Table.ofContent_eq_some hwide
          rw [List.filterMap_cons_some htable] at htables
          cases htables
          exact ⟨typeRow, _, rfl, htypeRow.symm⟩

/-- All files that parse infer the same column types. -/
def SameTypes (std : StdSort) (files : Files) (filePaths : List Bytes) : Prop :=
  ∀ filePath ∈ filePaths, ∀ filePath' ∈ filePaths, ∀ p p',
    (ofFile filePath).parse std files = .ok (true, p) → (ofFile filePath').parse std files = .ok (true, p') →
      ∀ col, p.colIdx2colDataType.lookup col = p'.colIdx2colDataType.lookup col

section Merging

variable (std : StdSort) {files : Files} {header : Bytes} {filePaths : List Bytes}
  (hheader : SameHeader files header filePaths)

/-- The types of two tables are the same. -/
theorem SameTypes.types_eq {std : StdSort} (h : SameTypes std files filePaths) {table table' : Table}
    (htable : table ∈ tablesOf files filePaths) (htable' : table' ∈ tablesOf files filePaths) :
    table.types = table'.types := by
  obtain ⟨filePath, hpath, htable⟩ := List.mem_filterMap.mp htable
  obtain ⟨filePath', hpath', htable'⟩ := List.mem_filterMap.mp htable'
  obtain ⟨p, hparse, hholds, -⟩ := parse_ofFile_some std htable
  obtain ⟨p', hparse', hholds', -⟩ := parse_ofFile_some std htable'
  apply List.ext_getElem?
  intro col
  rw [← hholds.dataType col, ← hholds'.dataType col]
  exact h filePath hpath filePath' hpath' p p' hparse hparse' col

theorem sameTypes_of_tables {std : StdSort}
    (h : ∀ table ∈ tablesOf files filePaths, ∀ table' ∈ tablesOf files filePaths,
      table.types = table'.types) : SameTypes std files filePaths := by
  have htable : ∀ filePath ∈ filePaths, ∀ p, (ofFile filePath).parse std files = .ok (true, p) →
      ∃ table ∈ tablesOf files filePaths, Holds p table := by
    intro filePath hpath p hparse
    cases htable : tableOf files filePath with
    | none =>
        obtain ⟨p', hfalse⟩ := parse_ofFile_none std htable
        cases hparse.symm.trans hfalse
    | some table =>
        obtain ⟨p', hparse', hholds, -⟩ := parse_ofFile_some std htable
        cases hparse.symm.trans hparse'
        exact ⟨table, List.mem_filterMap.mpr ⟨filePath, hpath, htable⟩, hholds⟩
  intro filePath hpath filePath' hpath' p p' hparse hparse' col
  obtain ⟨table, hmem, hholds⟩ := htable filePath hpath p hparse
  obtain ⟨table', hmem', hholds'⟩ := htable filePath' hpath' p' hparse'
  rw [hholds.dataType, hholds'.dataType, h table hmem table' hmem']

theorem tablesOf_eq_filterMap : tablesOf files filePaths =
    (filePaths.filterMap files).filterMap Table.ofContent :=
  (List.filterMap_filterMap).symm

include hheader in
/-- The table of the one file. -/
theorem ofContent_oneFile {first : Table} {rest : List Table}
    (htables : tablesOf files filePaths = first :: rest)
    (htypes : ∀ table ∈ first :: rest, table.types = first.types) :
    ∃ table, Table.ofContent (oneFile header (filePaths.filterMap files)) = some table ∧
      table.header = parseLineContent header ∧ table.types = first.types ∧
      table.rows = (first :: rest).flatMap Table.rows := by
  have hcontents : ∀ content ∈ filePaths.filterMap files, ∀ line, headerLine? content = some line →
      line = header := by
    intro content hcontent line hline
    obtain ⟨filePath, hpath, hopen⟩ := List.mem_filterMap.mp hcontent
    exact hheader filePath hpath content line hopen hline
  rw [tablesOf_eq_filterMap] at htables
  -- the header is a line of the first file that has a table
  obtain ⟨hne, hline⟩ : header ≠ [] ∧ newline ∉ header := by
    have hfirst : first ∈ (filePaths.filterMap files).filterMap Table.ofContent := by simp [htables]
    obtain ⟨content, hcontent, htable⟩ := List.mem_filterMap.mp hfirst
    obtain ⟨line, hline, -⟩ := exists_headerLine htable
    rw [← hcontents content hcontent line hline]
    exact headerLine_spec hline
  obtain ⟨typeRow, rows, hrows, htypeRow⟩ := exists_typeRow htables
  have hwide := wideRows_oneFile hne hline hcontents
  obtain ⟨table, htable, hth, htt, htr⟩ := Table.ofContent_eq_some (hwide.trans hrows)
  refine ⟨table, htable, hth.trans (headerRow_oneFile hne hline _), htt.trans htypeRow, ?_⟩
  rw [htr, typedRows, hwide, htypeRow, filter_flatMap_wideRows first.types, htables]
  rw [htables]
  exact htypes

/-- When all tables have the types of the first, the merge keeps every row. -/
theorem mergedRows_of_types_eq {first : Table} {tables : List Table}
    (htypes : ∀ table ∈ tables, table.types = first.types) :
    mergedRows first tables = tables.flatMap Table.rows := by
  rw [mergedRows, List.filter_eq_self]
  intro row hrow
  obtain ⟨table, htable, hrow⟩ := List.mem_flatMap.mp hrow
  rw [table.rowTypes_eq row hrow, htypes table htable]
  exact agree_self _

include hheader in
/-- `Parse` on files with one header of distinct names, of which one at least parses and all that do have
the same column types, returns true. Its merged parser has the rows, the column types, the sorted columns
and the metrics of a single parser on one file, made of the header and of the lines below the headers. -/
theorem parseFresh_oneFile (hnodup : (parseLineContent header).Nodup)
    (htypes : SameTypes std files filePaths)
    (hparses : ∃ filePath ∈ filePaths, ∃ p, (ofFile filePath).parse std files = .ok (true, p))
    {oneFiles : Files} {onePath : Bytes}
    (hone : oneFiles onePath = some (oneFile header (filePaths.filterMap files))) :
    ∃ m merged single, parseFresh std files filePaths = .ok (true, m) ∧ m.mergedLogParser = some merged ∧
      (ofFile onePath).parse std oneFiles = .ok (true, single) ∧
      merged.rowCnt = single.rowCnt ∧ merged.rawContent = single.rawContent ∧
      (∀ col, merged.colIdx2colDataType.lookup col = single.colIdx2colDataType.lookup col) ∧
      merged.sortedContentByCol = single.sortedContentByCol ∧
      merged.metricsDataByCol = single.metricsDataByCol := by
  have hne : tablesOf files filePaths ≠ [] := by
    obtain ⟨filePath, hpath, p, hparse⟩ := hparses
    intro hnil
    obtain ⟨p', hfalse⟩ := parse_ofFile_none std (List.filterMap_eq_nil_iff.mp hnil filePath hpath)
    cases hparse.symm.trans hfalse
  obtain ⟨first, rest, htables⟩ := List.exists_cons_of_ne_nil hne
  have hmem : ∀ table ∈ first :: rest, table ∈ tablesOf files filePaths := fun table h => htables ▸ h
  have hsame : ∀ table ∈ first :: rest, table.types = first.types := fun table htable =>
    htypes.types_eq (hmem table htable) (hmem first List.mem_cons_self)
  have hfirst := hheader.header_eq (hmem first List.mem_cons_self)
  obtain ⟨m, merged, hparse, hmerged, -, -, -, hloaded, -⟩ := parseFresh_merged std htables
    (hfirst ▸ hnodup) fun table htable _ => by
      rw [hfirst, hheader.header_eq (hmem table htable)]
  rw [mergedRows_of_types_eq hsame, hfirst] at hloaded
  obtain ⟨table, htable, hth, htt, htr⟩ := ofContent_oneFile hheader htables hsame
  have hopen : tableOf oneFiles onePath = some table := by
    rw [tableOf, hone, Option.bind_some, htable]
  obtain ⟨single, hsingle, -, -, hloaded'⟩ := parse_ofFile_some std hopen
  rw [hth, htt, htr] at hloaded'
  have h := hloaded.alike hloaded'
  exact ⟨m, merged, single, hparse, hmerged, hsingle, h.rowCnt, h.rawContent, h.dataType,
    h.sortedContentByCol, h.metricsDataByCol⟩

end Merging

/-- Two files with the header "c": a number, and a number between lines of another type and width. -/
def twoNumbers : Files := fun filePath =>
  if filePath = ascii "one" then some (ascii "c\n1\n")
  else if filePath = ascii "two" then some (ascii "\nc\n2\nx\n1\t2\n")
  else none

def bothNumbers : Files := fun _ =>
  some (oneFile (ascii "c") ([ascii "one", ascii "two"].filterMap twoNumbers))

theorem parseFresh_oneFile_twoNumbers :
    ∃ m merged single, parseFresh .insertion twoNumbers [ascii "one", ascii "two"] = .ok (true, m) ∧
      m.mergedLogParser = some merged ∧
      (ofFile (ascii "both")).parse .insertion bothNumbers = .ok (true, single) ∧
      merged.rawContent = single.rawContent := by
  have hheader : SameHeader twoNumbers (ascii "c") [ascii "one", ascii "two"] := by decide
  have htypes : ∀ table ∈ tablesOf twoNumbers [ascii "one", ascii "two"], table.types = [.kInt] := by
    have hmap : (tablesOf twoNumbers [ascii "one", ascii "two"]).map Table.types = [[.kInt], [.kInt]] := rfl
    intro table htable
    have hmem := List.mem_map_of_mem htable (f := Table.types)
    rw [hmap] at hmem
    simpa using hmem
  have hparses : ∃ filePath ∈ [ascii "one", ascii "two"], ∃ p,
      (ofFile filePath).parse .insertion twoNumbers = .ok (true, p) :=
    ⟨ascii "one", List.mem_cons_self, _, rfl⟩
  have hone : bothNumbers (ascii "both") =
      some (oneFile (ascii "c") ([ascii "one", ascii "two"].filterMap twoNumbers)) := rfl
  obtain ⟨m, merged, single, hparse, hmerged, hsingle, -, hrows, -⟩ :=
    parseFresh_oneFile .insertion hheader (by decide)
      (sameTypes_of_tables fun table htable table' htable' =>
        (htypes table htable).trans (htypes table' htable').symm)
      hparses hone
  exact ⟨m, merged, single, hparse, hmerged, hsingle, hrows⟩

end ToyBox.LogParser
