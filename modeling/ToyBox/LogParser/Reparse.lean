import ToyBox.Library.TransitionSystem
import ToyBox.LogParser.Outcome

/-! Calling `Parse` again. Each call makes new parsers behind the old ones in `log_parser_list_`, and then
pairs path number `i` with parser number `i`, which from the second call on is an old one. The results of
the new parsers decide which paths stay; their rows are never looked at, and the single-file map forgets no
path. -/

namespace ToyBox.LogParser

open Cxx Checked LogParserMgr

/-- The last call of `Parse`: the path list held at its start, the files as they were during it, and what
it returned. -/
structure ParseCall where
  filePaths : List Bytes
  files : Files
  ok : Bool

/-- A manager with the last call of `Parse`. -/
structure Session where
  mgr : LogParserMgr
  lastCall : Option ParseCall := none

/-- The calls of `Parse` on one manager, while the files change in between. A label is the files as they
are during a call; a call that reads past a row has no outcome. -/
def session (std : StdSort) (filePaths : List Bytes) : TransitionSystem Session Files where
  start := { mgr := .ofPaths filePaths }
  step s files :=
    match s.mgr.parse std files with
    | .error _ => none
    | .ok (ok, mgr) => some { mgr, lastCall := some { filePaths := s.mgr.logFilePathList, files, ok } }

/-- The path a single-file query asks for. -/
def filePath? : Query → Option Bytes
  | .calculateAllFiles .. | .sortAllFiles .. => none
  | .calculateSingleFile filePath .. | .sortSingleFile filePath .. => some filePath

/-- After a call that returned true every query answers as with a new manager, and the single-file queries
reject the paths whose parse failed. -/
def Fresh (std : StdSort) (s : Session) : Prop :=
  ∀ c, s.lastCall = some c → c.ok = true →
    (∃ ok m, parseFresh std c.files c.filePaths = .ok (ok, m) ∧ ∀ q, s.mgr.query q = m.query q) ∧
    ∀ filePath ∈ c.filePaths, ∀ p, parseTask std c.files filePath = .ok (false, p) →
      ∀ q, filePath? q = some filePath → s.mgr.query q = .ok none

/-- Every path the manager holds has a file with the very table that its parser holds. -/
def Unchanged (files : Files) (m : LogParserMgr) : Prop :=
  ∀ pair ∈ m.logFilePathList.zip m.logParserList, ∃ table, tableOf files pair.1 = some table ∧
    Holds pair.2 table

/-- The first parser held whose path still has a file with a table. -/
def firstHeld (files : Files) (m : LogParserMgr) : Option LogParser :=
  ((m.logFilePathList.zip m.logParserList).find? fun pair => (tableOf files pair.1).isSome).map Prod.snd

/-- A call on a manager that holds no parser, or only parsers of unchanged files, or one that cannot return
true because the first of the parsers that stay repeats a column name or none stays. -/
def ReparseSafe (s : Session) (files : Files) : Prop :=
  s.mgr.logParserList = [] ∨ Unchanged files s.mgr ∨
    ∀ p, firstHeld files s.mgr = some p → ¬p.colNameList.Nodup

/-- A parser that `Parse` has made of a table. -/
def HoldsParsed (std : StdSort) (p : LogParser) (table : Table) : Prop :=
  Loaded std p table.header table.types table.rows

/-- The paths a manager holds and their parsers, which are those of some files. -/
def Held (std : StdSort) (held : Files) (filePaths : List Bytes) (parsers : List LogParser) : Prop :=
  List.Forall₂ (fun filePath p => ∃ table, tableOf held filePath = some table ∧ HoldsParsed std p table)
    filePaths parsers

/-- The single-file map has the paths held and no other. -/
def Synced (std : StdSort) (held : Files) (m : LogParserMgr) : Prop :=
  (∀ filePath ∈ m.logFilePathList, ∃ p table, m.logName2logParser.lookup filePath = some p ∧
    tableOf held filePath = some table ∧ HoldsParsed std p table) ∧
  ∀ filePath, filePath ∉ m.logFilePathList → m.logName2logParser.lookup filePath = none

/-- A manager that has not parsed, or one that holds the parsers of some files. In the latter case its map
is that of the paths held, unless it cannot return true any more. -/
def Kept (std : StdSort) (m : LogParserMgr) : Prop :=
  m = .ofPaths m.logFilePathList ∨
  ∃ held, Held std held m.logFilePathList m.logParserList ∧
    ((∀ p, m.logParserList.head? = some p → ¬p.colNameList.Nodup) ∨ Synced std held m)

variable {std : StdSort} {files held : Files}

/-! ### What a call collects -/

/-- The parsers of the tables are those of the paths that have one. -/
theorem held_of_forall₂ {filePaths : List Bytes} {parsers : List LogParser}
    (h : List.Forall₂ (HoldsParsed std) parsers (tablesOf held filePaths)) :
    Held std held (filePaths.filter fun filePath => (tableOf held filePath).isSome) parsers := by
  induction filePaths generalizing parsers with
  | nil =>
      rw [tablesOf, List.filterMap_nil, List.forall₂_nil_right_iff] at h
      subst h
      exact .nil
  | cons filePath filePaths ih =>
      cases htable : tableOf held filePath with
      | none =>
          rw [tablesOf, List.filterMap_cons_none htable] at h
          rw [List.filter_cons_of_neg (by simp [htable])]
          exact ih h
      | some table =>
          rw [tablesOf, List.filterMap_cons_some htable] at h
          obtain ⟨p, parsers', hp, hrest, rfl⟩ := List.forall₂_cons_right_iff.mp h
          rw [List.filter_cons_of_pos (by simp [htable])]
          exact .cons ⟨table, htable, hp⟩ (ih hrest)

theorem Collects.toHeld {filePaths : List Bytes} {map : AList fun _ : Bytes => LogParser}
    {c : LogParserMgr.Collected}
    (h : Collects held (HoldsParsed std) filePaths { logName2logParser := map } c) :
    Held std held c.logFilePathList c.logParserList := by
  obtain ⟨parsers, hparsers, hlist⟩ := h.logParserList
  rw [h.logFilePathList, hlist, List.nil_append, List.nil_append]
  exact held_of_forall₂ hparsers

theorem Collects.imp {R R' : LogParser → Table → Prop} (hR : ∀ p table, R p table → R' p table)
    {filePaths : List Bytes} {c c' : LogParserMgr.Collected} (h : Collects files R filePaths c c') :
    Collects files R' filePaths c c' where
  logFilePathList := h.logFilePathList
  logParserList := by
    obtain ⟨parsers, hparsers, hlist⟩ := h.logParserList
    exact ⟨parsers, hparsers.imp fun p table => hR p table, hlist⟩
  allRawContent := h.allRawContent
  lookup_some filePath hmem table htable := by
    obtain ⟨p, hlookup, hp⟩ := h.lookup_some filePath hmem table htable
    exact ⟨p, hlookup, hR p table hp⟩
  lookup_none := h.lookup_none

/-- The map after a call is that of the paths held, if that was so of the map before. -/
theorem Collects.synced {filePaths : List Bytes} {map : AList fun _ : Bytes => LogParser}
    {c : LogParserMgr.Collected}
    (h : Collects held (HoldsParsed std) filePaths { logName2logParser := map } c)
    (hmap : ∀ filePath, (filePath ∈ filePaths → tableOf held filePath = none) → map.lookup filePath = none)
    (m : LogParserMgr) (hpaths : m.logFilePathList = c.logFilePathList)
    (hlookup : m.logName2logParser = c.logName2logParser) : Synced std held m := by
  have hmem : ∀ filePath, filePath ∈ c.logFilePathList ↔
      filePath ∈ filePaths ∧ (tableOf held filePath).isSome := fun filePath => by
    rw [h.logFilePathList, List.nil_append, List.mem_filter]
  constructor
  · intro filePath hpath
    rw [hpaths, hmem, Option.isSome_iff_exists] at hpath
    obtain ⟨hpath, table, htable⟩ := hpath
    obtain ⟨p, hp, hholds⟩ := h.lookup_some filePath hpath table htable
    exact ⟨p, table, by rw [hlookup, hp], htable, hholds⟩
  · intro filePath hpath
    rw [hpaths, hmem, not_and, Bool.not_eq_true, Option.isSome_eq_false_iff,
      Option.isNone_iff_eq_none] at hpath
    rw [hlookup, h.lookup_none filePath hpath]
    exact hmap filePath hpath

/-! ### The first call -/

/-- Whatever `Parse` of a fresh manager returns, it holds the parsers of the files that have a table. -/
theorem holdsFiles_of_parseFresh {filePaths : List Bytes} {ok : Bool} {m : LogParserMgr}
    (hparse : parseFresh std files filePaths = .ok (ok, m)) : HoldsFiles std files filePaths m := by
  obtain ⟨m₀, -, hfiles, hparse'⟩ := parse_ofPaths_eq std files filePaths
  cases htables : tablesOf files filePaths with
  | nil =>
      rw [htables] at hparse'
      cases hparse.symm.trans hparse'
      exact hfiles
  | cons first rest =>
      rw [htables] at hparse'
      obtain ⟨p, -, hparse'⟩ := hparse'
      obtain ⟨⟨ok', merged⟩, -, hok⟩ := bind_eq_ok_iff.mp (hparse'.symm.trans hparse)
      cases hok
      exact hfiles

theorem HoldsFiles.collects {filePaths : List Bytes} {m : LogParserMgr}
    (h : HoldsFiles std files filePaths m) :
    ∃ c, Collects files (HoldsParsed std) filePaths { logName2logParser := ∅ } c ∧
      m.logFilePathList = c.logFilePathList ∧ m.logParserList = c.logParserList ∧
      m.logName2logParser = c.logName2logParser := by
  obtain ⟨c, hc, hpaths, hlist, hmap⟩ := h
  exact ⟨c, hc.imp fun p table h => h.loaded, hpaths, hlist, hmap⟩

theorem HoldsFiles.synced {filePaths : List Bytes} {m : LogParserMgr}
    (h : HoldsFiles std files filePaths m) : Synced std files m := by
  obtain ⟨c, hc, hpaths, -, hmap⟩ := h.collects
  exact hc.synced (fun _ _ => AList.lookup_empty _) m hpaths hmap

theorem HoldsFiles.kept {filePaths : List Bytes} {m : LogParserMgr}
    (h : HoldsFiles std files filePaths m) : Kept std m := by
  obtain ⟨c, hc, hpaths, hlist, -⟩ := h.collects
  refine Or.inr ⟨files, ?_, Or.inr h.synced⟩
  rw [hpaths, hlist]
  exact hc.toHeld

/-- A path whose task fails has no table. -/
theorem tableOf_eq_none {filePath : Bytes} {p : LogParser}
    (h : parseTask std files filePath = .ok (false, p)) : tableOf files filePath = none := by
  obtain ⟨result, hresult, htask⟩ := parseTask_eq std files filePath
  cases h.symm.trans hresult
  rw [TaskResult] at htask
  cases htable : tableOf files filePath with
  | none => rfl
  | some table =>
      rw [htable] at htask
      cases htask.1

/-- A single-file query is rejected when the map does not have its path. -/
theorem query_eq_none {m : LogParserMgr} {filePath : Bytes} {q : Query} (hq : filePath? q = some filePath)
    (h : m.logName2logParser.lookup filePath = none) : m.query q = .ok none := by
  have htarget : m.target q = none := by
    cases q with
    | calculateAllFiles | sortAllFiles => cases hq
    | calculateSingleFile | sortSingleFile =>
        cases hq
        exact h
  rw [query, htarget]

theorem fresh_of_parseFresh {filePaths : List Bytes} {ok : Bool} {m : LogParserMgr}
    (hparse : parseFresh std files filePaths = .ok (ok, m)) :
    Fresh std { mgr := m, lastCall := some { filePaths, files, ok } } := by
  intro call hcall _
  cases hcall
  refine ⟨⟨ok, m, hparse, fun q => rfl⟩, fun filePath _ p htask q hq => query_eq_none hq ?_⟩
  obtain ⟨c, hc, -, -, hmap⟩ := (holdsFiles_of_parseFresh hparse).collects
  rw [show LogParserMgr.logName2logParser _ = _ from hmap,
    hc.lookup_none filePath fun _ => tableOf_eq_none htask]
  exact AList.lookup_empty _

/-! ### Later calls -/

/-- The files a later call works on: those its parsers were made of, for the paths that still parse. -/
def staleFiles (files held : Files) : Files := fun filePath =>
  if (tableOf files filePath).isSome then held filePath else none

theorem tableOf_staleFiles (files held : Files) (filePath : Bytes) :
    tableOf (staleFiles files held) filePath =
      if (tableOf files filePath).isSome then tableOf held filePath else none := by
  rw [tableOf, staleFiles]
  split
  · rfl
  · rfl

/-- The old parsers, paired with the results of the new ones. -/
theorem exists_results {filePaths : List Bytes} {parsers : List LogParser}
    (h : Held std held filePaths parsers) {tasks : List (Bool × LogParser)}
    (htasks : List.Forall₂ (Accepts files (TaskParsed std files)) filePaths tasks) :
    ∃ results : List (Bool × LogParser), results.map Prod.snd = parsers ∧
      tasks.map Prod.fst = results.map Prod.fst ∧
      List.Forall₂ (Accepts (staleFiles files held) (HoldsParsed std)) filePaths results := by
  induction htasks generalizing parsers with
  | nil =>
      cases h
      exact ⟨[], rfl, rfl, .nil⟩
  | @cons filePath task filePaths tasks htask hrest ih =>
      obtain ⟨p, parsers', ⟨table, htable, hp⟩, hparsers, rfl⟩ := List.forall₂_cons_left_iff.mp h
      obtain ⟨results, hsnd, hfst, hresults⟩ := ih hparsers
      refine ⟨(task.1, p) :: results, by rw [List.map_cons, hsnd], by rw [List.map_cons, hfst]; rfl,
        .cons ?_ hresults⟩
      rw [Accepts] at htask ⊢
      rw [tableOf_staleFiles]
      cases hnow : tableOf files filePath with
      | none =>
          rw [hnow] at htask
          rw [if_neg (by simp)]
          exact htask
      | some now =>
          rw [hnow] at htask
          rw [if_pos Option.isSome_some, htable]
          exact ⟨htask.1, hp⟩

/-- A later call is a call on the stale files. -/
theorem parse_later (files : Files) {m : LogParserMgr} (h : Held std held m.logFilePathList m.logParserList) :
    ∃ (c : LogParserMgr.Collected) (m' : LogParserMgr),
      Collects (staleFiles files held) (HoldsParsed std) m.logFilePathList
        { logName2logParser := m.logName2logParser } c ∧
      m' = { m with
        logFilePathList := c.logFilePathList
        logParserList := c.logParserList
        logName2logParser := c.logName2logParser } ∧
      match tablesOf (staleFiles files held) m.logFilePathList with
      | [] => m.parse std files = .ok (false, m')
      | first :: rest => ∃ p, HoldsParsed std p first ∧ m.parse std files = (do
          let (ok, merged) ← (LogParser.ofRows ((first :: rest).flatMap Table.rows)
            p.colName2colIdx p.colIdx2colDataType p.colNameList).parse std files
          .ok (ok, { m' with mergedLogParser := some merged })) := by
  obtain ⟨tasks, htasks, haccepts⟩ := exists_tasks std files m.logFilePathList
  obtain ⟨results, hsnd, hfst, hresults⟩ := exists_results h haccepts
  have hlist : m.logParserList ++ tasks.map Prod.snd = results.map Prod.snd ++ tasks.map Prod.snd := by
    rw [hsnd]
  exact parse_eq_of_accepts (fun p table hp => (Loaded.holds hp).rawContent) htasks hlist hfst hresults

/-- What a later call leaves behind. -/
theorem exists_collects_later {m m' : LogParserMgr} {ok : Bool}
    (h : Held std held m.logFilePathList m.logParserList) (hparse : m.parse std files = .ok (ok, m')) :
    ∃ c, Collects (staleFiles files held) (HoldsParsed std) m.logFilePathList
        { logName2logParser := m.logName2logParser } c ∧
      m'.logFilePathList = c.logFilePathList ∧ m'.logParserList = c.logParserList ∧
      m'.logName2logParser = c.logName2logParser := by
  obtain ⟨c, m₁, hc, rfl, hparse'⟩ := parse_later files h
  refine ⟨c, hc, ?_⟩
  cases htables : tablesOf (staleFiles files held) m.logFilePathList with
  | nil =>
      rw [htables] at hparse'
      cases hparse.symm.trans hparse'
      exact ⟨rfl, rfl, rfl⟩
  | cons first rest =>
      rw [htables] at hparse'
      obtain ⟨p, -, hparse'⟩ := hparse'
      obtain ⟨⟨ok', merged⟩, -, hok⟩ := bind_eq_ok_iff.mp (hparse'.symm.trans hparse)
      cases hok
      exact ⟨rfl, rfl, rfl⟩

/-- The parsers held and the tables they were made of. -/
theorem Held.forall₂ {filePaths : List Bytes} {parsers : List LogParser}
    (h : Held std held filePaths parsers) :
    List.Forall₂ (HoldsParsed std) parsers (tablesOf held filePaths) := by
  induction h with
  | nil => exact .nil
  | cons hp _ ih =>
      obtain ⟨table, htable, hp⟩ := hp
      rw [tablesOf, List.filterMap_cons_some htable]
      exact .cons hp ih

/-- The first parser repeats a column name when the first table does. -/
theorem headRepeats_iff {parsers : List LogParser} {tables : List Table}
    (h : List.Forall₂ (HoldsParsed std) parsers tables) :
    (∀ p, parsers.head? = some p → ¬p.colNameList.Nodup) ↔
      ∀ table, tables.head? = some table → ¬table.header.Nodup := by
  cases h with
  | nil => simp
  | cons hp _ => simp [(Loaded.holds hp).colNameList]

theorem firstHeld_eq {m : LogParserMgr} (h : Held std held m.logFilePathList m.logParserList)
    {table : Table} (htable : (tablesOf (staleFiles files held) m.logFilePathList).head? = some table) :
    ∃ p, firstHeld files m = some p ∧ HoldsParsed std p table := by
  rw [firstHeld]
  generalize m.logFilePathList = filePaths at h htable ⊢
  generalize m.logParserList = parsers at h ⊢
  induction h with
  | nil => cases htable
  | @cons filePath p filePaths parsers hp _ ih =>
      obtain ⟨table', htable', hp⟩ := hp
      rw [List.zip_cons_cons]
      by_cases hnow : (tableOf files filePath).isSome = true
      · have hstale : tableOf (staleFiles files held) filePath = some table' := by
          rw [tableOf_staleFiles, if_pos hnow, htable']
        rw [tablesOf, List.filterMap_cons_some hstale, List.head?_cons] at htable
        cases htable
        simp only [List.find?_cons, hnow]
        exact ⟨p, rfl, hp⟩
      · have hstale : tableOf (staleFiles files held) filePath = none := by
          rw [tableOf_staleFiles, if_neg hnow]
        rw [tablesOf, List.filterMap_cons_none hstale] at htable
        simp only [List.find?_cons, hnow]
        exact ih htable

/-- The tables of the paths held are still those their parsers were made of. -/
theorem tableOf_of_unchanged {m : LogParserMgr} (h : Held std held m.logFilePathList m.logParserList)
    (hsame : Unchanged files m) : ∀ filePath ∈ m.logFilePathList,
      ∃ table, tableOf files filePath = some table ∧ tableOf held filePath = some table := by
  rw [Unchanged] at hsame
  generalize m.logFilePathList = filePaths at h hsame ⊢
  generalize m.logParserList = parsers at h hsame
  induction h with
  | nil => exact fun _ hmem => absurd hmem List.not_mem_nil
  | @cons filePath p filePaths parsers hp _ ih =>
      rw [List.zip_cons_cons] at hsame
      intro filePath' hmem
      rcases List.mem_cons.mp hmem with rfl | hmem
      · obtain ⟨table, htable, hp⟩ := hp
        obtain ⟨table', htable', hp'⟩ := hsame _ List.mem_cons_self
        obtain rfl := (Loaded.holds hp).table_eq hp'
        exact ⟨table, htable', htable⟩
      · exact ih (fun pair hpair => hsame pair (List.mem_cons_of_mem _ hpair)) filePath' hmem

/-- Files that the parsers were made of are unchanged. -/
theorem Held.unchanged {m : LogParserMgr} (h : Held std files m.logFilePathList m.logParserList) :
    Unchanged files m := by
  rw [Unchanged]
  generalize m.logFilePathList = filePaths at h ⊢
  generalize m.logParserList = parsers at h ⊢
  induction h with
  | nil => exact fun _ hmem => absurd hmem List.not_mem_nil
  | cons hp _ ih =>
      rw [List.zip_cons_cons]
      intro pair hpair
      rcases List.mem_cons.mp hpair with rfl | hpair
      · obtain ⟨table, htable, hp⟩ := hp
        exact ⟨table, htable, Loaded.holds hp⟩
      · exact ih pair hpair

theorem tableOf_staleFiles_of_unchanged {m : LogParserMgr}
    (h : Held std held m.logFilePathList m.logParserList) (hsame : Unchanged files m) :
    ∀ filePath ∈ m.logFilePathList, tableOf (staleFiles files held) filePath = tableOf files filePath ∧
      tableOf files filePath = tableOf held filePath ∧ tableOf files filePath ≠ none := by
  intro filePath hpath
  obtain ⟨table, hnow, hheld⟩ := tableOf_of_unchanged h hsame filePath hpath
  rw [tableOf_staleFiles, hnow, hheld]
  exact ⟨if_pos Option.isSome_some, rfl, Option.some_ne_none table⟩

/-- A safe later call leaves a manager whose first parser repeats a name, or it is one on unchanged files
with a map of the paths held. -/
theorem headRepeats_or_unchanged {m m' : LogParserMgr} {c : Option ParseCall} {ok : Bool}
    (h : Held std held m.logFilePathList m.logParserList)
    (hmap : (∀ p, m.logParserList.head? = some p → ¬p.colNameList.Nodup) ∨ Synced std held m)
    (hsafe : ReparseSafe { mgr := m, lastCall := c } files) (hparse : m.parse std files = .ok (ok, m')) :
    (∀ p, m'.logParserList.head? = some p → ¬p.colNameList.Nodup) ∨
      Unchanged files m ∧ Synced std held m := by
  obtain ⟨c, hc, -, hlist, -⟩ := exists_collects_later h hparse
  obtain ⟨parsers, hparsers, hlist'⟩ := hc.logParserList
  have hhead := headRepeats_iff hparsers
  rw [List.nil_append] at hlist'
  rw [hlist, hlist', hhead]
  rcases hsafe with hnil | hsame | hrepeats
  · simp only at hnil
    rw [hnil] at h
    have hpaths : m.logFilePathList = [] := List.forall₂_nil_right_iff.mp h
    exact Or.inl fun table htable => by simp [hpaths, tablesOf] at htable
  · refine hmap.imp (fun hrepeats => ?_) fun hsynced => ⟨hsame, hsynced⟩
    have htables : tablesOf (staleFiles files held) m.logFilePathList = tablesOf held m.logFilePathList :=
      List.filterMap_congr fun filePath hpath => by
        obtain ⟨hstale, hnow, -⟩ := tableOf_staleFiles_of_unchanged h hsame filePath hpath
        rw [hstale, hnow]
    rw [htables]
    exact (headRepeats_iff h.forall₂).mp hrepeats
  · refine Or.inl fun table htable => ?_
    obtain ⟨p, hp, hholds⟩ := firstHeld_eq h htable
    rw [← (Loaded.holds hholds).colNameList]
    exact hrepeats p hp

/-- A later call returns true only if the first of the parsers that stay repeats no name. -/
theorem exists_head_of_true {m m' : LogParserMgr} (h : Held std held m.logFilePathList m.logParserList)
    (hparse : m.parse std files = .ok (true, m')) :
    ∃ p, m'.logParserList.head? = some p ∧ p.colNameList.Nodup := by
  obtain ⟨c, m₁, hc, rfl, hparse'⟩ := parse_later files h
  obtain ⟨parsers, hparsers, hlist⟩ := hc.logParserList
  cases htables : tablesOf (staleFiles files held) m.logFilePathList with
  | nil =>
      rw [htables] at hparse'
      cases hparse.symm.trans hparse'
  | cons first rest =>
      rw [htables] at hparse' hparsers
      obtain ⟨p, hp, hparse'⟩ := hparse'
      obtain ⟨⟨ok, merged⟩, hmerged, hok⟩ := bind_eq_ok_iff.mp (hparse'.symm.trans hparse)
      cases hok
      have hnodup :=
        (parse_ofRows_of_true std files (Loaded.holds hp) List.mem_cons_self hmerged).1
      obtain ⟨p', parsers', hp', -, rfl⟩ := List.forall₂_cons_right_iff.mp hparsers
      refine ⟨p', by simp only [hlist]; rfl, ?_⟩
      rw [(Loaded.holds hp').colNameList]
      exact hnodup

/-! ### Fresh answers -/

/-- Managers with parsers that are alike answer every query alike. -/
theorem query_congr {m m' : LogParserMgr}
    (hmerged : Option.Rel Alike m.mergedLogParser m'.mergedLogParser)
    (hmap : ∀ filePath, Option.Rel Alike (m.logName2logParser.lookup filePath)
      (m'.logName2logParser.lookup filePath)) (q : Query) : m.query q = m'.query q := by
  have htarget : Option.Rel Alike (m.target q) (m'.target q) := by
    cases q with
    | calculateAllFiles | sortAllFiles => exact hmerged
    | calculateSingleFile filePath | sortSingleFile filePath => exact hmap filePath
  rw [query, query]
  generalize m.target q = p at htarget
  generalize m'.target q = p' at htarget
  cases htarget with
  | none => rfl
  | some h =>
      cases q with
      | calculateAllFiles | calculateSingleFile => simp only [Query.call, h.calculate]
      | sortAllFiles | sortSingleFile => simp only [Query.call, h.sort]

/-- Maps of the same paths and of the same files are alike. -/
theorem Synced.rel {held' : Files} {m m' : LogParserMgr} (h : Synced std held m)
    (h' : Synced std held' m')
    (hpaths : ∀ filePath, filePath ∈ m.logFilePathList ↔ filePath ∈ m'.logFilePathList)
    (htables : ∀ filePath ∈ m.logFilePathList, tableOf held filePath = tableOf held' filePath)
    (filePath : Bytes) : Option.Rel Alike (m.logName2logParser.lookup filePath)
      (m'.logName2logParser.lookup filePath) := by
  by_cases hpath : filePath ∈ m.logFilePathList
  · obtain ⟨p, table, hp, htable, hholds⟩ := h.1 filePath hpath
    obtain ⟨p', table', hp', htable', hholds'⟩ := h'.1 filePath ((hpaths filePath).mp hpath)
    rw [htables filePath hpath, htable'] at htable
    cases htable
    rw [hp, hp']
    exact .some (Loaded.alike hholds hholds')
  · rw [h.2 filePath hpath, h'.2 filePath fun hpath' => hpath ((hpaths filePath).mpr hpath')]
    exact .none

/-- A later call on unchanged files keeps the map that of the paths held. -/
theorem synced_of_unchanged {m m' : LogParserMgr} {ok : Bool}
    (h : Held std held m.logFilePathList m.logParserList) (hsynced : Synced std held m)
    (hsame : Unchanged files m) (hparse : m.parse std files = .ok (ok, m')) :
    Synced std (staleFiles files held) m' := by
  obtain ⟨c, hc, hpaths, -, hmap⟩ := exists_collects_later h hparse
  refine hc.synced (fun filePath hnone => hsynced.2 filePath fun hpath => ?_) m' hpaths hmap
  obtain ⟨hstale, -, hsome⟩ := tableOf_staleFiles_of_unchanged h hsame filePath hpath
  rw [← hstale] at hsome
  exact hsome (hnone hpath)

/-- If such a call returns true, its answers are fresh. -/
theorem fresh_of_unchanged {m m' : LogParserMgr}
    (h : Held std held m.logFilePathList m.logParserList) (hsynced : Synced std held m)
    (hsame : Unchanged files m) (hparse : m.parse std files = .ok (true, m')) :
    Fresh std { mgr := m', lastCall := some { filePaths := m.logFilePathList, files, ok := true } } := by
  have hstale := tableOf_staleFiles_of_unchanged h hsame
  have hsynced' := synced_of_unchanged h hsynced hsame hparse
  have htables : tablesOf (staleFiles files held) m.logFilePathList = tablesOf files m.logFilePathList :=
    List.filterMap_congr fun filePath hpath => (hstale filePath hpath).1
  obtain ⟨c, m₁, hc, rfl, hparse'⟩ := parse_later files h
  rw [htables] at hparse'
  cases hnow : tablesOf files m.logFilePathList with
  | nil =>
      rw [hnow] at hparse'
      cases hparse.symm.trans hparse'
  | cons first rest =>
      rw [hnow] at hparse'
      obtain ⟨p, hp, hparse'⟩ := hparse'
      obtain ⟨⟨ok, merged⟩, hmerged, hok⟩ := bind_eq_ok_iff.mp (hparse'.symm.trans hparse)
      cases hok
      obtain ⟨hnodup, hwidth, hloaded⟩ :=
        parse_ofRows_of_true std files (Loaded.holds hp) List.mem_cons_self hmerged
      obtain ⟨m₂, merged₂, hparse₂, hmerged₂, -, -, -, hloaded₂, hfiles₂⟩ :=
        parseFresh_merged std hnow hnodup hwidth
      intro call hcall _
      cases hcall
      refine ⟨⟨true, m₂, hparse₂, query_congr ?_ ?_⟩, fun filePath hpath p' htask => ?_⟩
      · rw [hmerged₂]
        exact .some (hloaded.alike hloaded₂)
      · obtain ⟨c₂, hc₂, hpaths₂, -⟩ := hfiles₂.collects
        refine hsynced'.rel hfiles₂.synced (fun filePath => ?_) fun filePath hpath => ?_
        · rw [hpaths₂, hc.logFilePathList, hc₂.logFilePathList, List.nil_append, List.nil_append,
            List.mem_filter, List.mem_filter]
          apply and_congr_right
          intro hpath
          rw [(hstale filePath hpath).1]
        · rw [hc.logFilePathList, List.nil_append] at hpath
          exact (hstale filePath (List.mem_of_mem_filter hpath)).1
      · exact absurd (tableOf_eq_none htask) (hstale filePath hpath).2.2

/-! ### Runs -/

/-- A safe call keeps the manager in order and its answers fresh. -/
theorem Kept.parse {m m' : LogParserMgr} {c : Option ParseCall} {ok : Bool} (h : Kept std m)
    (hsafe : ReparseSafe { mgr := m, lastCall := c } files) (hparse : m.parse std files = .ok (ok, m')) :
    Kept std m' ∧
      Fresh std { mgr := m', lastCall := some { filePaths := m.logFilePathList, files, ok } } := by
  rcases h with hfresh | ⟨held, h, hmap⟩
  · have hparse' : parseFresh std files m.logFilePathList = .ok (ok, m') := by
      rw [parseFresh, ← hfresh]
      exact hparse
    exact ⟨(holdsFiles_of_parseFresh hparse').kept, fresh_of_parseFresh hparse'⟩
  · obtain ⟨c, hc, hpaths, hlist, -⟩ := exists_collects_later h hparse
    have hheld : Held std (staleFiles files held) m'.logFilePathList m'.logParserList := by
      rw [hpaths, hlist]
      exact hc.toHeld
    rcases headRepeats_or_unchanged h hmap hsafe hparse with hrepeats | ⟨hsame, hsynced⟩
    · refine ⟨Or.inr ⟨staleFiles files held, hheld, Or.inl hrepeats⟩, fun call hcall hok => ?_⟩
      cases hcall
      obtain rfl : ok = true := hok
      obtain ⟨p, hp, hnodup⟩ := exists_head_of_true h hparse
      exact absurd hnodup (hrepeats p hp)
    · refine ⟨Or.inr ⟨staleFiles files held, hheld,
        Or.inr (synced_of_unchanged h hsynced hsame hparse)⟩, ?_⟩
      cases ok with
      | false =>
          intro call hcall hok
          cases hcall
          cases hok
      | true => exact fresh_of_unchanged h hsynced hsame hparse

/-- In a session whose calls are all safe, the answers after a call that returned true are fresh. -/
theorem fresh_of_reparseSafe (std : StdSort) (filePaths : List Bytes) {s : Session}
    (hs : (session std filePaths).ReachableBy ReparseSafe s) : Fresh std s := by
  suffices h : Kept std s.mgr ∧ Fresh std s from h.2
  have hstart : Fresh std (session std filePaths).start := fun c hcall => by simp [session] at hcall
  refine hs.invariant (P := fun s => Kept std s.mgr ∧ Fresh std s) ⟨Or.inl rfl, hstart⟩ ?_
  intro s files s' _ h hsafe hstep
  simp only [session] at hstep
  split at hstep
  · cases hstep
  · rename_i hparse
    cases hstep
    exact h.1.parse hsafe hparse

/-- A log of one number. -/
def oneNumber (number : Bytes) : Files := fun _ => some (ascii "a\n" ++ number ++ ascii "\n")

/-- The number changes from 1 to 2 between two calls. The second returns true, and the maximum is still 1. -/
theorem not_fresh_changedNumber :
    ¬∀ s, (session .insertion [ascii "log"]).Reachable s → Fresh .insertion s := by
  intro hfresh
  have hrun : ∃ s c, (session .insertion [ascii "log"]).run (session .insertion [ascii "log"]).start
      [oneNumber (ascii "1"), oneNumber (ascii "2")] = some s ∧ s.lastCall = some c ∧ c.ok = true ∧
      c.files = oneNumber (ascii "2") ∧ c.filePaths = [ascii "log"] ∧
      s.mgr.query (.calculateAllFiles (ascii "a") (ascii "max")) = .ok (some (.value (ascii "1"))) :=
    ⟨_, _, rfl, rfl, rfl, rfl, rfl, rfl⟩
  obtain ⟨s, c, hs, hcall, hok, hfiles, hpaths, hanswer⟩ := hrun
  obtain ⟨⟨ok, m, hparse, hsame⟩, -⟩ := hfresh s (TransitionSystem.reachable_of_run hs) c hcall hok
  have hnew : (do
      let result ← parseFresh .insertion (oneNumber (ascii "2")) [ascii "log"]
      result.2.query (.calculateAllFiles (ascii "a") (ascii "max"))) =
        .ok (some (.value (ascii "2"))) := rfl
  rw [hfiles, hpaths] at hparse
  rw [hparse, ok_bind, ← hsame, hanswer] at hnew
  exact absurd hnew (by decide)

/-- Two calls on one file that does not change. -/
theorem fresh_of_reparseSafe_oneNumber :
    ∃ s, (session .insertion [ascii "log"]).run (session .insertion [ascii "log"]).start
      [oneNumber (ascii "1"), oneNumber (ascii "1")] = some s ∧ Fresh .insertion s := by
  have hrun : ∃ s, (session .insertion [ascii "log"]).run (session .insertion [ascii "log"]).start
      [oneNumber (ascii "1"), oneNumber (ascii "1")] = some s := ⟨_, rfl⟩
  obtain ⟨s, hs⟩ := hrun
  refine ⟨s, hs, ?_⟩
  obtain ⟨s₁, hstep, hrest⟩ := TransitionSystem.run_cons.mp hs
  obtain ⟨s₂, hstep₂, hend⟩ := TransitionSystem.run_cons.mp hrest
  cases hend
  have hreach : (session .insertion [ascii "log"]).ReachableBy ReparseSafe s₁ :=
    .step .start (Or.inl rfl) hstep
  refine fresh_of_reparseSafe .insertion [ascii "log"] (.step hreach (Or.inr (Or.inl ?_)) hstep₂)
  -- the parsers of the first call are those of the same file
  obtain ⟨m, hparse⟩ : ∃ m, parseFresh .insertion (oneNumber (ascii "1")) [ascii "log"] = .ok (true, m) :=
    ⟨_, rfl⟩
  have hs₁ : s₁.mgr = m := by
    simp only [session] at hstep
    rw [show LogParserMgr.parse .insertion (oneNumber (ascii "1")) _ = _ from hparse] at hstep
    cases hstep
    rfl
  obtain ⟨c, hc, hpaths, hlist, -⟩ := (holdsFiles_of_parseFresh hparse).collects
  have hheld := hc.toHeld
  rw [← hpaths, ← hlist, ← hs₁] at hheld
  exact hheld.unchanged

end ToyBox.LogParser
