import ToyBox.LogParser.Outcome

/-! Whether one usable file is enough. The path of a single file takes any header and any row that is as
wide as it. The merge takes the header of the first usable file through the constructor's consistency
check, and compares rows with its columns whatever their width, so one of the usable files can spoil the
result of all. -/

namespace ToyBox.LogParser

open Cxx

/-- Some file is accepted on its own. -/
def OneAccepted (std : StdSort) (files : Files) (filePaths : List Bytes) : Prop :=
  ∃ filePath ∈ filePaths, ∃ p, (ofFile filePath).parse std files = .ok (true, p) ∧ 0 < p.rowCnt

/-- `Parse` returns true with at least one merged row. -/
def MergesSome (std : StdSort) (files : Files) (filePaths : List Bytes) : Prop :=
  ∃ m p, parseFresh std files filePaths = .ok (true, m) ∧ m.mergedLogParser = some p ∧ 0 < p.rowCnt

/-- The first header repeats no name, and no narrower table agrees with the first one on its columns. -/
def Usable : List Table → Prop
  | [] => True
  | first :: rest => first.header.Nodup ∧ ∀ table ∈ rest, agree table.types first.types = true →
      first.header.length ≤ table.header.length

variable {std : StdSort} {files : Files} {filePaths : List Bytes}

/-- A file is accepted on its own exactly when it has a table. -/
theorem oneAccepted_iff : OneAccepted std files filePaths ↔ tablesOf files filePaths ≠ [] := by
  have hne : tablesOf files filePaths ≠ [] ↔ ∃ filePath ∈ filePaths, tableOf files filePath ≠ none := by
    rw [tablesOf, ne_eq, List.filterMap_eq_nil_iff]
    push Not
    rfl
  rw [hne]
  constructor
  · rintro ⟨filePath, hpath, p, hparse, -⟩
    refine ⟨filePath, hpath, fun hnone => ?_⟩
    obtain ⟨p', hfalse⟩ := parse_ofFile_none std hnone
    cases hparse.symm.trans hfalse
  · rintro ⟨filePath, hpath, hsome⟩
    obtain ⟨table, htable⟩ := Option.ne_none_iff_exists'.mp hsome
    obtain ⟨p, hparse, -, hparsed, -⟩ := parse_ofFile_some std htable
    exact ⟨filePath, hpath, p, hparse, hparsed.toRectangular.rowCnt_pos⟩

/-- One usable file is enough exactly when the first usable file has a header of distinct names and no
other is narrower within agreeing columns. -/
theorem oneAccepted_enough_iff (std : StdSort) (files : Files) (filePaths : List Bytes) :
    (OneAccepted std files filePaths → MergesSome std files filePaths) ↔
      Usable (tablesOf files filePaths) := by
  rw [oneAccepted_iff]
  cases htables : tablesOf files filePaths with
  | nil => simp [Usable]
  | cons first rest =>
      simp only [ne_eq, reduceCtorEq, not_false_eq_true, forall_const]
      constructor
      · rintro ⟨m, p, hparse, -⟩
        obtain ⟨first', rest', -, htables', hnodup, hwidth, -⟩ := parseFresh_of_true hparse
        cases htables.symm.trans htables'
        exact ⟨hnodup, fun table htable => hwidth table (List.mem_cons_of_mem first htable)⟩
      · rintro ⟨hnodup, hwidth⟩
        obtain ⟨m, p, hparse, hmerged, -, hparsed, -⟩ := parseFresh_merged std htables hnodup
          fun table htable hagree => by
            rcases List.mem_cons.mp htable with rfl | htable
            · exact le_refl _
            · exact hwidth table htable hagree
        exact ⟨m, p, hparse, hmerged, hparsed.toRectangular.rowCnt_pos⟩

/-- A single file whose header repeats a name is accepted on its own and spoils the merge. -/
theorem not_oneAccepted_enough_repeatedName :
    ¬∀ files filePaths, OneAccepted .insertion files filePaths → MergesSome .insertion files filePaths := by
  intro henough
  let files : Files := fun _ => some (ascii "a\ta\n1\t2\n")
  have haccepted : OneAccepted .insertion files [ascii "log"] :=
    ⟨ascii "log", List.mem_cons_self, _, rfl, by decide⟩
  obtain ⟨m, p, hparse, -⟩ := henough files [ascii "log"] haccepted
  have hfalse : (parseFresh .insertion files [ascii "log"]).map Prod.fst = .ok false := rfl
  rw [hparse] at hfalse
  cases hfalse

end ToyBox.LogParser
