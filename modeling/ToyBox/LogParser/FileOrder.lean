import ToyBox.LogParser.Outcome

/-! How the merged result depends on the order of the files. Among files with one header, no row is read
past its end and the returned boolean does not depend on the order; but the merge keeps the rows of the
files whose inferred types are those of the first file in the list, and drops the others. -/

namespace ToyBox.LogParser

open Cxx

/-- No file has another header line. -/
def SameHeader (files : Files) (header : Bytes) (filePaths : List Bytes) : Prop :=
  ∀ filePath ∈ filePaths, ∀ content line, files filePath = some content →
    headerLine? content = some line → line = header

theorem sameHeader_iff {files : Files} {header : Bytes} {filePaths : List Bytes} :
    SameHeader files header filePaths ↔
      ∀ filePath ∈ filePaths, ∀ line ∈ (files filePath).bind headerLine?, line = header := by
  simp only [SameHeader, Option.mem_def, Option.bind_eq_some_iff, forall_exists_index, and_imp]
  exact forall₂_congr fun _ _ => forall_comm

instance (files : Files) (header : Bytes) (filePaths : List Bytes) : Decidable (SameHeader files header filePaths) :=
  decidable_of_iff' _ sameHeader_iff

/-- Both orders return the same boolean and, when it is true, the same rows and column types. -/
def SameOutcome (std : StdSort) (files : Files) (filePaths filePaths' : List Bytes) : Prop :=
  ∃ ok m m', parseFresh std files filePaths = .ok (ok, m) ∧
    parseFresh std files filePaths' = .ok (ok, m') ∧
    (ok = true → ∃ p p', m.mergedLogParser = some p ∧ m'.mergedLogParser = some p' ∧
      p.rawContent.Perm p'.rawContent ∧
      ∀ col, p.colIdx2colDataType.lookup col = p'.colIdx2colDataType.lookup col)

/-- The rows of the tables that have given column types. -/
def rowsOfTypes (types : List DataType) (tables : List Table) : List Row :=
  (tables.filter (·.types = types)).flatMap Table.rows

theorem rowsOfTypes_perm {types : List DataType} {tables tables' : List Table}
    (h : tables.Perm tables') : (rowsOfTypes types tables).Perm (rowsOfTypes types tables') :=
  (h.filter _).flatMap_right _

theorem tablesOf_perm (files : Files) {filePaths filePaths' : List Bytes}
    (h : filePaths.Perm filePaths') : (tablesOf files filePaths).Perm (tablesOf files filePaths') :=
  h.filterMap _

/-- The header of a table is the header line of its file. -/
theorem exists_headerLine {content : Bytes} {table : Table}
    (h : Table.ofContent content = some table) :
    ∃ line, headerLine? content = some line ∧ table.header = parseLineContent line := by
  cases hlines : nonemptyLines content with
  | nil =>
      rw [Table.ofContent_eq_none (by simp [wideRows, bodyLines, hlines])] at h
      cases h
  | cons line body =>
      refine ⟨line, by rw [headerLine?, hlines]; rfl, ?_⟩
      cases hwide : wideRows content with
      | nil =>
          rw [Table.ofContent_eq_none hwide] at h
          cases h
      | cons typeRow rest =>
          obtain ⟨table', htable', hheader, -⟩ := Table.ofContent_eq_some hwide
          obtain rfl := Option.some.inj (h.symm.trans htable')
          rw [hheader, headerRow, headerLine?, hlines]
          rfl

theorem SameHeader.header_eq {files : Files} {header : Bytes} {filePaths : List Bytes}
    (h : SameHeader files header filePaths) {table : Table} (htable : table ∈ tablesOf files filePaths) :
    table.header = parseLineContent header := by
  obtain ⟨filePath, hpath, htable⟩ := List.mem_filterMap.mp htable
  obtain ⟨content, hopen, hcontent⟩ := Option.bind_eq_some_iff.mp htable
  obtain ⟨line, hline, hheader⟩ := exists_headerLine hcontent
  rw [hheader, h filePath hpath content line hopen hline]

/-- Among tables of one width the merge keeps the tables of the types of the first. -/
theorem mergedRows_eq_rowsOfTypes {first : Table} {tables : List Table}
    (h : ∀ table ∈ tables, table.header.length = first.header.length) :
    mergedRows first tables = rowsOfTypes first.types tables := by
  induction tables with
  | nil => rfl
  | cons table tables ih =>
      have hrest := ih fun t ht => h t (List.mem_cons_of_mem _ ht)
      rw [mergedRows, rowsOfTypes] at hrest ⊢
      rw [List.flatMap_cons, List.filter_append, hrest, List.filter_cons]
      have hrows : ∀ row ∈ table.rows, agree (rowTypes row) first.types = true ↔
          table.types = first.types := by
        intro row hrow
        rw [table.rowTypes_eq row hrow]
        constructor
        · intro hagree
          apply eq_of_agree hagree
          rw [table.length_types, first.length_types, h table List.mem_cons_self]
        · intro htypes
          rw [htypes, agree_self]
      by_cases htypes : table.types = first.types
      · rw [List.filter_eq_self.mpr fun row hrow => (hrows row hrow).mpr htypes,
          if_pos (decide_eq_true htypes), List.flatMap_cons]
      · rw [List.filter_eq_nil_iff.mpr fun row hrow hagree => htypes ((hrows row hrow).mp hagree),
          if_neg (by simpa using htypes), List.nil_append]

section SameHeader

variable (std : StdSort) {files : Files} {header : Bytes} {filePaths : List Bytes}
  (hheader : SameHeader files header filePaths) (hnodup : (parseLineContent header).Nodup)

include hheader hnodup in
/-- `Parse` on files with one header: the rows it keeps and the types it takes. -/
theorem parseFresh_sameHeader {first : Table} {rest : List Table}
    (htables : tablesOf files filePaths = first :: rest) :
    ∃ m p, parseFresh std files filePaths = .ok (true, m) ∧ m.mergedLogParser = some p ∧
      p.rawContent = rowsOfTypes first.types (tablesOf files filePaths) ∧
      p.rawContent ≠ [] ∧ ∀ col, p.colIdx2colDataType.lookup col = first.types[col]? := by
  have heq : ∀ table ∈ first :: rest, table.header = parseLineContent header :=
    fun table htable => hheader.header_eq (htables ▸ htable)
  have hfirst := heq first List.mem_cons_self
  have hwidth : ∀ table ∈ first :: rest, table.header.length = first.header.length :=
    fun table htable => by rw [heq table htable, hfirst]
  obtain ⟨m, p, hparse, hmerged, hholds, hparsed, -⟩ := parseFresh_merged std htables
    (hfirst ▸ hnodup) fun table htable _ => (hwidth table htable).ge
  refine ⟨m, p, hparse, hmerged, ?_, hparsed.rows_ne_nil, hholds.dataType⟩
  rw [hholds.rawContent, htables, mergedRows_eq_rowsOfTypes hwidth]

include hheader hnodup in
/-- `Parse` on files with one header of distinct names, in two orders. Both return the same boolean: true
exactly when some file has a table. The merged column types are those of the first table and the merged rows
those of the files with these types, so the outcomes are the same exactly when the two first tables have the
same types. -/
theorem parseFresh_perm {filePaths' : List Bytes} (hperm : filePaths.Perm filePaths') :
    ∃ ok m m', parseFresh std files filePaths = .ok (ok, m) ∧
      parseFresh std files filePaths' = .ok (ok, m') ∧
      (ok = true ↔ tablesOf files filePaths ≠ []) ∧
      (ok = true → ∃ first first' p p', (tablesOf files filePaths).head? = some first ∧
        (tablesOf files filePaths').head? = some first' ∧
        m.mergedLogParser = some p ∧ m'.mergedLogParser = some p' ∧
        p.rawContent = rowsOfTypes first.types (tablesOf files filePaths) ∧
        p'.rawContent.Perm (rowsOfTypes first'.types (tablesOf files filePaths)) ∧
        (∀ col, p.colIdx2colDataType.lookup col = first.types[col]?) ∧
        (∀ col, p'.colIdx2colDataType.lookup col = first'.types[col]?) ∧
        (SameOutcome std files filePaths filePaths' ↔ first.types = first'.types)) := by
  have hheader' : SameHeader files header filePaths' :=
    fun filePath hpath => hheader filePath (hperm.mem_iff.mpr hpath)
  have htperm := tablesOf_perm files hperm
  cases htables : tablesOf files filePaths with
  | nil =>
      have htables' : tablesOf files filePaths' = [] := (htables ▸ htperm).nil_eq.symm
      obtain ⟨m, hparse, -⟩ := parseFresh_nil std htables
      obtain ⟨m', hparse', -⟩ := parseFresh_nil std htables'
      exact ⟨false, m, m', hparse, hparse', by simp, fun h => absurd h (by decide)⟩
  | cons first rest =>
      obtain ⟨first', rest', htables'⟩ : ∃ first' rest', tablesOf files filePaths' = first' :: rest' := by
        apply List.exists_cons_of_ne_nil
        intro hnil
        rw [htables, hnil] at htperm
        exact absurd htperm.eq_nil (List.cons_ne_nil _ _)
      obtain ⟨m, p, hparse, hmerged, hrows, hne, htypes⟩ :=
        parseFresh_sameHeader std hheader hnodup htables
      obtain ⟨m', p', hparse', hmerged', hrows', -, htypes'⟩ :=
        parseFresh_sameHeader std hheader' hnodup htables'
      have hrowsPerm : p'.rawContent.Perm (rowsOfTypes first'.types (tablesOf files filePaths)) :=
        hrows' ▸ rowsOfTypes_perm htperm.symm
      refine ⟨true, m, m', hparse, hparse', by simp, fun _ => ⟨first, first', p, p', rfl,
        by rw [htables']; rfl, hmerged, hmerged', htables ▸ hrows, htables ▸ hrowsPerm, htypes, htypes', ?_⟩⟩
      constructor
      · rintro ⟨ok, m₁, m₁', h₁, h₁', hsame⟩
        obtain ⟨rfl, rfl⟩ := Prod.mk.inj (Except.ok.inj (h₁.symm.trans hparse))
        obtain ⟨-, rfl⟩ := Prod.mk.inj (Except.ok.inj (h₁'.symm.trans hparse'))
        obtain ⟨q, q', hq, hq', -, hlookup⟩ := hsame rfl
        obtain rfl := Option.some.inj (hmerged.symm.trans hq)
        obtain rfl := Option.some.inj (hmerged'.symm.trans hq')
        apply List.ext_getElem?
        intro col
        rw [← htypes, hlookup, htypes']
      · intro hfirst
        refine ⟨true, m, m', hparse, hparse', fun _ => ⟨p, p', hmerged, hmerged', ?_, fun col => ?_⟩⟩
        · rw [hrows, hfirst]
          exact hrowsPerm.symm
        · rw [htypes, htypes', hfirst]

end SameHeader

/-- Two files with one column: numbers in the first, letters in the second. -/
def numbersAndLetters : Files := fun filePath =>
  if filePath = ascii "numbers" then some (ascii "c\n1\n")
  else if filePath = ascii "letters" then some (ascii "c\nx\n")
  else none

theorem sameHeader_numbersAndLetters :
    SameHeader numbersAndLetters (ascii "c") [ascii "numbers", ascii "letters"] := by
  decide

/-- Their order decides which row is kept. -/
theorem not_sameOutcome_numbersAndLetters :
    SameHeader numbersAndLetters (ascii "c") [ascii "numbers", ascii "letters"] ∧
    (parseLineContent (ascii "c")).Nodup ∧
    [ascii "numbers", ascii "letters"].Perm [ascii "letters", ascii "numbers"] ∧
    ¬SameOutcome .insertion numbersAndLetters [ascii "numbers", ascii "letters"]
      [ascii "letters", ascii "numbers"] := by
  refine ⟨sameHeader_numbersAndLetters, by decide, .swap _ _ _, ?_⟩
  rintro ⟨ok, m, m', hparse, hparse', hsame⟩
  have hrow : (parseFresh .insertion numbersAndLetters [ascii "numbers", ascii "letters"]).map
      (fun r => (r.1, r.2.mergedLogParser.map LogParser.rawContent)) = .ok (true, some [[ascii "1"]]) := by
    rfl
  have hrow' : (parseFresh .insertion numbersAndLetters [ascii "letters", ascii "numbers"]).map
      (fun r => (r.1, r.2.mergedLogParser.map LogParser.rawContent)) = .ok (true, some [[ascii "x"]]) := by
    rfl
  rw [hparse] at hrow
  rw [hparse'] at hrow'
  obtain ⟨rfl, hp⟩ := Prod.mk.inj (Except.ok.inj hrow)
  obtain ⟨-, hp'⟩ := Prod.mk.inj (Except.ok.inj hrow')
  obtain ⟨p, p', hmerged, hmerged', hperm, -⟩ := hsame rfl
  simp only [hmerged, Option.map_some, Option.some.injEq] at hp
  simp only [hmerged', Option.map_some, Option.some.injEq] at hp'
  rw [hp, hp'] at hperm
  exact absurd (List.singleton_perm_singleton.mp hperm) (by decide)

/-- The column is one of integers in the one order, and of strings in the other. -/
theorem parseFresh_perm_numbersAndLetters :
    ∃ m m' p p', parseFresh .insertion numbersAndLetters [ascii "numbers", ascii "letters"] = .ok (true, m) ∧
      parseFresh .insertion numbersAndLetters [ascii "letters", ascii "numbers"] = .ok (true, m') ∧
      m.mergedLogParser = some p ∧ m'.mergedLogParser = some p' ∧
      p.colIdx2colDataType.lookup 0 = some .kInt ∧ p'.colIdx2colDataType.lookup 0 = some .kString := by
  obtain ⟨ok, m, m', hparse, hparse', hok, hmerged⟩ :=
    parseFresh_perm .insertion sameHeader_numbersAndLetters (by decide)
      (.swap (ascii "letters") (ascii "numbers") [])
  have hne : tablesOf numbersAndLetters [ascii "numbers", ascii "letters"] ≠ [] := by
    intro hnil
    have := congrArg List.length hnil
    revert this
    decide
  obtain rfl := hok.mpr hne
  obtain ⟨first, first', p, p', hfirst, hfirst', hm, hm', -, -, htypes, htypes', -⟩ := hmerged rfl
  have hint : ((tablesOf numbersAndLetters [ascii "numbers", ascii "letters"]).head?.map Table.types) =
      some [.kInt] := by rfl
  have hstring : ((tablesOf numbersAndLetters [ascii "letters", ascii "numbers"]).head?.map Table.types) =
      some [.kString] := by rfl
  rw [hfirst, Option.map_some, Option.some_inj] at hint
  rw [hfirst', Option.map_some, Option.some_inj] at hstring
  refine ⟨m, m', p, p', hparse, hparse', hm, hm', ?_, ?_⟩
  · rw [htypes, hint]
    rfl
  · rw [htypes', hstring]
    rfl

end ToyBox.LogParser
