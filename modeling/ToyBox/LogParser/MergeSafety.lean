import ToyBox.LogParser.Outcome

/-! When the merge of the files is safe. `ParseRawContentFromFile` compares the width of every line with
the header, `ParseRawContent` does not: it compares types column by column until one differs. A table
of another width goes through when its types agree with those of the first table on the columns both
have. If it is narrower, the comparison itself reads past the end of its rows. -/

namespace ToyBox.LogParser

open Cxx

/-- The merge makes no access out of range, and after `true` every merged row has as many cells as
there are columns, each of the type of its column. -/
def MergeSafe (std : StdSort) (files : Files) (filePaths : List Bytes) : Prop :=
  ∃ ok m, parseFresh std files filePaths = .ok (ok, m) ∧
    (ok = true → ∃ p, m.mergedLogParser = some p ∧
      ∀ row ∈ p.rawContent, row.length = p.colCnt ∧
        ∀ col cell, row[col]? = some cell →
          p.colIdx2colDataType.lookup col = some (parseColumnDataType cell))

/-- What the merge needs of the tables: a first header that repeats a name, which makes it give up, or
no table of another width that agrees with the first one on the columns both have. -/
def Mergeable : List Table → Prop
  | [] => True
  | first :: rest => first.header.Nodup → SameWidths first rest

variable (std : StdSort) {files : Files} {filePaths : List Bytes} {first : Table} {rest : List Table}

/-- A merged row is a row of a table that agrees with the first one. -/
theorem exists_table_of_mem_mergedRows {tables : List Table} {row : Row}
    (hrow : row ∈ mergedRows first tables) :
    ∃ table ∈ tables, row ∈ table.rows ∧ rowTypes row = table.types ∧
      agree table.types first.types = true := by
  obtain ⟨hmem, hagree⟩ := List.mem_filter.mp hrow
  obtain ⟨table, htable, hrow⟩ := List.mem_flatMap.mp hmem
  have htypes := table.rowTypes_eq row hrow
  exact ⟨table, htable, hrow, htypes, htypes ▸ hagree⟩

theorem SameWidths.cons (h : SameWidths first rest) : SameWidths first (first :: rest) := by
  intro table htable
  rcases List.mem_cons.mp htable with rfl | htable
  · exact Or.inl rfl
  · exact h table htable

/-- Among tables of one width, the tables that agree with the first have its types. -/
theorem SameWidths.types_eq (h : SameWidths first rest) {table : Table}
    (htable : table ∈ first :: rest) (hagree : agree table.types first.types = true) :
    table.types = first.types := by
  rcases h.cons table htable with hlen | hdiff
  · exact eq_of_agree hagree (by rw [table.length_types, first.length_types, hlen])
  · rw [hagree] at hdiff
    exact absurd hdiff (by decide)

theorem SameWidths.not_narrow (h : SameWidths first rest) {table : Table}
    (htable : table ∈ first :: rest) (hagree : agree table.types first.types = true) :
    first.header.length ≤ table.header.length := by
  rw [← first.length_types, ← table.length_types, h.types_eq htable hagree]

theorem mergeSafe_of_sameWidths (htables : tablesOf files filePaths = first :: rest)
    (hnodup : first.header.Nodup) (hwidths : SameWidths first rest) :
    MergeSafe std files filePaths := by
  obtain ⟨m, p, hparse, hmerged, hholds, -⟩ := parseFresh_merged std htables hnodup
    fun table htable hagree => hwidths.not_narrow htable hagree
  refine ⟨true, m, hparse, fun _ => ⟨p, hmerged, fun row hrow => ?_⟩⟩
  rw [hholds.rawContent] at hrow
  obtain ⟨table, htable, -, htypes, hagree⟩ := exists_table_of_mem_mergedRows hrow
  rw [hwidths.types_eq htable hagree] at htypes
  constructor
  · rw [← length_rowTypes, htypes, hholds.colCnt, first.length_types]
  · intro col cell hcell
    rw [hholds.dataType, ← htypes, rowTypes_getElem?, hcell]
    rfl

/-- A wider table that agrees with the first one leaves its rows in the merged parser; a narrower one
is read past the end. -/
theorem not_mergeSafe (htables : tablesOf files filePaths = first :: rest)
    (hnodup : first.header.Nodup) {table : Table} (htable : table ∈ first :: rest)
    (hagree : agree table.types first.types = true)
    (hwidth : table.header.length ≠ first.header.length) : ¬MergeSafe std files filePaths := by
  rintro ⟨ok, m, hparse, hsound⟩
  by_cases hnarrow : ∃ t ∈ first :: rest, agree t.types first.types = true ∧
      t.header.length < first.header.length
  · obtain ⟨t, ht, htagree, htnarrow⟩ := hnarrow
    obtain ⟨col, herror⟩ := parseFresh_narrow std htables hnodup ht htagree htnarrow
    rw [hparse] at herror
    cases herror
  · obtain ⟨m', p, hparse', hmerged, hholds, -⟩ := parseFresh_merged std htables hnodup
      fun t ht htagree => by
        by_contra hlt
        exact hnarrow ⟨t, ht, htagree, by omega⟩
    obtain ⟨rfl, rfl⟩ := Prod.mk.inj (Except.ok.inj (hparse.symm.trans hparse'))
    obtain ⟨p', hmerged', hrows⟩ := hsound rfl
    obtain rfl := Option.some.inj (hmerged.symm.trans hmerged')
    obtain ⟨row, hrow⟩ := List.exists_mem_of_ne_nil _ table.rows_ne_nil
    have htypes := table.rowTypes_eq row hrow
    have hkept : row ∈ p.rawContent := by
      rw [hholds.rawContent]
      exact List.mem_filter.mpr ⟨List.mem_flatMap.mpr ⟨table, htable, hrow⟩, htypes ▸ hagree⟩
    have hlen := (hrows row hkept).1
    rw [← length_rowTypes, htypes, table.length_types, hholds.colCnt] at hlen
    exact hwidth hlen

/-- The merge is safe exactly when no table of another width agrees with the first one on the columns
both have, unless the first header repeats a name. -/
theorem mergeSafe_iff (files : Files) (filePaths : List Bytes) :
    MergeSafe std files filePaths ↔ Mergeable (tablesOf files filePaths) := by
  cases htables : tablesOf files filePaths with
  | nil =>
      obtain ⟨m, hparse, -⟩ := parseFresh_nil std htables
      exact iff_of_true ⟨false, m, hparse, fun h => absurd h (by decide)⟩ trivial
  | cons first rest =>
      constructor
      · intro hsafe hnodup table htable
        by_contra hbad
        rw [not_or, Bool.not_eq_false] at hbad
        exact not_mergeSafe std htables hnodup (List.mem_cons_of_mem _ htable) hbad.2 hbad.1 hsafe
      · intro hmergeable
        by_cases hnodup : first.header.Nodup
        · exact mergeSafe_of_sameWidths std htables hnodup (hmergeable hnodup)
        · obtain ⟨m, p, hparse, -⟩ := parseFresh_duplicate std htables hnodup
          exact ⟨false, m, hparse, fun h => absurd h (by decide)⟩

/-- A file with two columns and one with only the first of them. -/
def twoWidths : Files := fun filePath =>
  if filePath = ascii "wide" then some (ascii "a\tb\n1\t2\n")
  else if filePath = ascii "narrow" then some (ascii "a\n1\n")
  else none

/-- Merging them reads cell 1 of a row with one cell. -/
theorem not_mergeSafe_twoWidths :
    ¬MergeSafe .insertion twoWidths [ascii "wide", ascii "narrow"] := by
  rintro ⟨ok, m, hparse, -⟩
  have hfault : (parseFresh .insertion twoWidths [ascii "wide", ascii "narrow"]).isOk = false := by
    decide
  rw [hparse] at hfault
  cases hfault

end ToyBox.LogParser
