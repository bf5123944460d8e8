import ToyBox.LogParser.FileOrder

/-! Whether the merged queries respect the column names. The rows of all files are put under the header of
the first one by position. The filter over them compares the types of the columns and not their names, so
the values of another column are aggregated when the types happen to agree. -/

namespace ToyBox.LogParser

open Cxx Checked

/-- Where a row of a file is among the merged rows, each column of the merged table has the name that the
file's own header gives it. A column is named by its position: the header of a file that is not the first may
repeat a name. -/
def NamesRespected (m : LogParserMgr) : Prop :=
  ∀ merged, m.mergedLogParser = some merged → ∀ p ∈ m.logParserList, ∀ row ∈ p.rawContent,
    row ∈ merged.rawContent → ∀ name col, merged.colName2colIdx.lookup name = some col →
      p.colNameList[col]? = some name

/-- Every table that agrees with the first one on the types of its columns begins with its header. -/
def SameNames : List Table → Prop
  | [] => True
  | first :: rest => ∀ table ∈ rest, agree table.types first.types = true → first.header <+: table.header

variable {std : StdSort} {files : Files} {filePaths : List Bytes}

/-- A position in a list of distinct names is the last one of its name. -/
theorem isLastIndex_of_nodup {names : List Bytes} (hnodup : names.Nodup) {name : Bytes} {i : Nat}
    (hname : names[i]? = some name) : IsLastIndex names name i := by
  refine ⟨hname, fun l hl hsame => ?_⟩
  obtain ⟨hi, hget⟩ := List.getElem?_eq_some_iff.mp hname
  obtain ⟨hlt, hget'⟩ := List.getElem?_eq_some_iff.mp hsame
  have : i = l := (hnodup.getElem_inj_iff).mp (hget.trans hget'.symm)
  omega

/-- The parsers a manager holds and the tables of its files. -/
theorem HoldsFiles.logParserList {m : LogParserMgr} (h : HoldsFiles std files filePaths m) :
    List.Forall₂ (TaskParsed std files) m.logParserList (tablesOf files filePaths) := by
  obtain ⟨c, hc, -, hlist, -⟩ := h
  obtain ⟨parsers, hparsers, hlist'⟩ := hc.logParserList
  rw [hlist, hlist', List.nil_append]
  exact hparsers

/-- After `Parse` has returned true the merged queries respect the column names exactly when every table
whose types agree with those of the first begins with the first header. -/
theorem namesRespected_iff {m : LogParserMgr} (hparse : parseFresh std files filePaths = .ok (true, m)) :
    NamesRespected m ↔ SameNames (tablesOf files filePaths) := by
  obtain ⟨first, rest, merged, htables, hnodup, hwidth, hmerged, hloaded, hfiles⟩ :=
    parseFresh_of_true hparse
  have hparsers := hfiles.logParserList
  obtain ⟨p₀, sorted, metrics, hp₀, rfl⟩ := hloaded.eq_loads
  rw [htables] at hparsers ⊢
  constructor
  · intro hrespected table htable hagree
    obtain ⟨row, hrow⟩ := List.exists_mem_of_ne_nil _ table.rows_ne_nil
    have hkept : row ∈ mergedRows first (first :: rest) := by
      refine List.mem_filter.mpr ⟨?_, ?_⟩
      · exact List.mem_flatMap.mpr ⟨table, List.mem_cons_of_mem first htable, hrow⟩
      · rw [table.rowTypes_eq row hrow]
        exact hagree
    obtain ⟨p, hp, htask⟩ := exists_of_mem_right hparsers (List.mem_cons_of_mem first htable)
    have hholds := htask.loaded.holds
    rw [List.prefix_iff_getElem?]
    intro col hcol
    have hname : first.header[col]? = some first.header[col] := List.getElem?_eq_getElem hcol
    have hlookup := (hp₀.colIdx _ col).mpr (isLastIndex_of_nodup hnodup hname)
    rw [← hholds.colNameList]
    exact hrespected _ hmerged p hp row (hholds.rawContent ▸ hrow) (hp₀.rawContent ▸ hkept) _ col hlookup
  · intro hsame merged' hmerged' p hp row hrow hkept name col hlookup
    obtain rfl := Option.some.inj (hmerged.symm.trans hmerged')
    obtain ⟨table, htable, htask⟩ := exists_of_mem_left hparsers hp
    have hholds := htask.loaded.holds
    have hname := ((hp₀.colIdx name col).mp hlookup).1
    rw [hholds.colNameList]
    rcases List.mem_cons.mp htable with rfl | htable
    · exact hname
    · have hagree : agree table.types first.types = true := by
        have hmem : row ∈ mergedRows first (first :: rest) := hp₀.rawContent ▸ hkept
        rw [← table.rowTypes_eq row (hholds.rawContent ▸ hrow)]
        exact (List.mem_filter.mp hmem).2
      obtain ⟨hcol, hget⟩ := List.getElem?_eq_some_iff.mp hname
      rw [← hget]
      exact (List.prefix_iff_getElem?.mp (hsame table htable hagree)) col hcol

/-- Two files with the same two columns in different orders. -/
def swappedColumns : Files := fun filePath =>
  if filePath = ascii "first" then some (ascii "a\tb\n1\t2\n")
  else if filePath = ascii "second" then some (ascii "b\ta\n3\t4\n")
  else none

/-- Both rows are merged, so 3, a value of column b, counts as one of column a. -/
theorem not_namesRespected_swappedColumns :
    ¬∀ m, parseFresh .insertion swappedColumns [ascii "first", ascii "second"] = .ok (true, m) →
      NamesRespected m := by
  intro hrespected
  have hrun : ∃ m merged p, parseFresh .insertion swappedColumns [ascii "first", ascii "second"] =
      .ok (true, m) ∧ m.mergedLogParser = some merged ∧ p ∈ m.logParserList ∧
      [ascii "3", ascii "4"] ∈ p.rawContent ∧ [ascii "3", ascii "4"] ∈ merged.rawContent ∧
      merged.colName2colIdx.lookup (ascii "a") = some 0 ∧ p.colNameList = [ascii "b", ascii "a"] :=
    ⟨_, _, _, rfl, rfl, List.mem_cons_of_mem _ List.mem_cons_self, List.mem_cons_self,
      List.mem_cons_of_mem _ List.mem_cons_self, rfl, rfl⟩
  obtain ⟨m, merged, p, hparse, hmerged, hp, hrow, hkept, hlookup, hheader⟩ := hrun
  have := hrespected m hparse merged hmerged p hp _ hrow hkept _ _ hlookup
  rw [hheader] at this
  exact absurd this (by decide)

/-- Files with one header line give their columns the same names. -/
theorem sameNames_of_sameHeader {header : Bytes} (h : SameHeader files header filePaths) :
    SameNames (tablesOf files filePaths) := by
  cases htables : tablesOf files filePaths with
  | nil => trivial
  | cons first rest =>
      intro table htable _
      have hmem : table ∈ tablesOf files filePaths := htables ▸ List.mem_cons_of_mem first htable
      have hfirst : first ∈ tablesOf files filePaths := htables ▸ List.mem_cons_self
      have hsame : first.header = table.header := (h.header_eq hfirst).trans (h.header_eq hmem).symm
      exact hsame ▸ List.prefix_refl _

/-- Two parts of one table. -/
def twoParts : Files := fun filePath =>
  if filePath = ascii "first" then some (ascii "a\tb\n1\t2\n")
  else if filePath = ascii "second" then some (ascii "a\tb\n3\t4\n")
  else none

theorem namesRespected_iff_twoParts :
    ∃ m merged, parseFresh .insertion twoParts [ascii "first", ascii "second"] = .ok (true, m) ∧
      m.mergedLogParser = some merged ∧
      merged.rawContent = [[ascii "1", ascii "2"], [ascii "3", ascii "4"]] ∧ NamesRespected m := by
  have hrun : ∃ m merged, parseFresh .insertion twoParts [ascii "first", ascii "second"] = .ok (true, m) ∧
      m.mergedLogParser = some merged ∧ merged.rawContent = [[ascii "1", ascii "2"], [ascii "3", ascii "4"]] :=
    ⟨_, _, rfl, rfl, rfl⟩
  have hsame : SameHeader twoParts (ascii "a\tb") [ascii "first", ascii "second"] := by decide
  obtain ⟨m, merged, hparse, hmerged, hrows⟩ := hrun
  exact ⟨m, merged, hparse, hmerged, hrows, (namesRespected_iff hparse).mpr (sameNames_of_sameHeader hsame)⟩

end ToyBox.LogParser
