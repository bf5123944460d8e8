import ToyBox.LogParser.Outcome

/-! When the queries are safe. The constructor of the merged parser clears its rows when the columns are
not consistent, but `Parse` has already published the parser, name map included, and the queries look at
the name map only. So a query after a failed merge reads metrics that were never stored. -/

namespace ToyBox.LogParser

open Cxx Checked LogParserMgr

variable (std : StdSort) (files : Files)

/-- Every query of a manager makes its accesses in range, and answers from a fully parsed parser or
not at all. -/
def QuerySafe (m : LogParserMgr) : Prop :=
  ∀ q, ∃ answer, m.query q = .ok answer ∧
    (answer ≠ none → ∃ p, m.target q = some p ∧ FullyParsed std files p)

/-- The manager after a sequence of calls. -/
def runCalls (m : LogParserMgr) (calls : List Call) : Except Fault LogParserMgr :=
  calls.foldlM (LogParserMgr.call std files) m

/-- The calls of `Parse` in a sequence. -/
def parseCalls (calls : List Call) : Nat :=
  calls.countP fun
    | .parse => true
    | .query _ => false

/-- Whatever was called before, with at most one `Parse`, every query is safe. -/
def CallsSafe (filePaths : List Bytes) : Prop :=
  ∀ calls m, parseCalls calls ≤ 1 → runCalls std files (.ofPaths filePaths) calls = .ok m →
    QuerySafe std files m

/-- What the queries need of the tables: no table at all, or a first header without a repeated name. -/
def Queryable : List Table → Prop
  | [] => True
  | first :: _ => first.header.Nodup

variable {std files}

theorem runCalls_cons {m m' : LogParserMgr} {c : Call} {calls : List Call}
    (h : runCalls std files m (c :: calls) = .ok m') :
    ∃ m₁, LogParserMgr.call std files m c = .ok m₁ ∧ runCalls std files m₁ calls = .ok m' := by
  rw [runCalls, List.foldlM_cons] at h
  exact bind_eq_ok_iff.mp h

/-- A query leaves the manager as it is. -/
theorem call_query {m m' : LogParserMgr} {q : Query}
    (h : LogParserMgr.call std files m (.query q) = .ok m') : m' = m := by
  obtain ⟨answer, -, h⟩ := bind_eq_ok_iff.mp h
  exact (Except.ok.inj h).symm

/-- After calls with at most one `Parse` the manager is what it was, or what `Parse` made of it. -/
theorem runCalls_eq {m m' : LogParserMgr} {calls : List Call} (hone : parseCalls calls ≤ 1)
    (h : runCalls std files m calls = .ok m') :
    m' = m ∨ parseCalls calls = 1 ∧ ∃ ok, m.parse std files = .ok (ok, m') := by
  induction calls generalizing m with
  | nil => exact Or.inl (Except.ok.inj h).symm
  | cons c calls ih =>
      obtain ⟨m₁, hcall, hrest⟩ := runCalls_cons h
      cases c with
      | query q =>
          obtain rfl := call_query hcall
          exact ih hone hrest
      | parse =>
          have hcount : parseCalls (.parse :: calls) = parseCalls calls + 1 :=
            List.countP_cons_of_pos rfl
          obtain ⟨⟨ok, m₂⟩, hparse, hm⟩ := bind_eq_ok_iff.mp hcall
          obtain rfl : m₂ = m₁ := Except.ok.inj hm
          rcases ih (by omega) hrest with rfl | ⟨hcalls, -⟩
          · exact Or.inr ⟨by omega, ok, hparse⟩
          · omega

/-- A manager that holds fully parsed parsers only. -/
theorem querySafe_of_parsed {m : LogParserMgr}
    (hmerged : ∀ p, m.mergedLogParser = some p → Parsed p ∧ FullyParsed std files p)
    (hmap : MapParsed std files m.logName2logParser) : QuerySafe std files m := by
  intro q
  have htarget : ∀ p, m.target q = some p → Parsed p ∧ FullyParsed std files p := by
    intro p hp
    cases q with
    | calculateAllFiles => exact hmerged p hp
    | sortAllFiles => exact hmerged p hp
    | calculateSingleFile filePath => exact hmap filePath p hp
    | sortSingleFile filePath => exact hmap filePath p hp
  rw [query]
  cases htgt : m.target q with
  | none => exact ⟨none, rfl, fun h => absurd rfl h⟩
  | some p =>
      obtain ⟨hparsed, hfully⟩ := htarget p htgt
      have hcall : ∃ answer, q.call p = .ok answer := by
        cases q with
        | calculateAllFiles colName metricName =>
            obtain ⟨answer, h⟩ := hparsed.exists_calculate colName metricName
            exact ⟨_, by rw [Query.call, h]; rfl⟩
        | sortAllFiles colName limit isAsc isShowHeader =>
            obtain ⟨answer, h⟩ := hparsed.exists_sort colName limit isAsc isShowHeader
            exact ⟨_, by rw [Query.call, h]; rfl⟩
        | calculateSingleFile filePath colName metricName =>
            obtain ⟨answer, h⟩ := hparsed.exists_calculate colName metricName
            exact ⟨_, by rw [Query.call, h]; rfl⟩
        | sortSingleFile filePath colName limit isAsc isShowHeader =>
            obtain ⟨answer, h⟩ := hparsed.exists_sort colName limit isAsc isShowHeader
            exact ⟨_, by rw [Query.call, h]; rfl⟩
      obtain ⟨answer, hanswer⟩ := hcall
      exact ⟨answer, hanswer, fun _ => ⟨p, rfl, hfully⟩⟩

theorem querySafe_ofPaths (filePaths : List Bytes) : QuerySafe std files (.ofPaths filePaths) :=
  querySafe_of_parsed (fun _ h => nomatch h) (fun _ _ h => nomatch h)

/-- A query of a parser that was not parsed, on a name of its header, reads metrics that are not there. -/
theorem not_querySafe_of_unparsed {m : LogParserMgr} {p : LogParser} {first : Table}
    (hmerged : m.mergedLogParser = some p) (hp : Unparsed p first) {name : Bytes}
    (hname : name ∈ first.header) : ¬QuerySafe std files m := by
  intro hsafe
  obtain ⟨answer, hquery, -⟩ := hsafe (.calculateAllFiles name (ascii "sum"))
  obtain ⟨i, hi⟩ := exists_isLastIndex hname
  have hfault : p.calculate name (ascii "sum") = .error (.metricsData i) := by
    rw [LogParser.calculate, (hp.colIdx name i).mpr hi,
      show kMetricsMap (ascii "sum") = some .kSum by decide, hp.metricsDataByCol]
    rfl
  have htarget : m.target (.calculateAllFiles name (ascii "sum")) = some p := hmerged
  rw [query, htarget] at hquery
  simp only [Query.call, hfault] at hquery
  cases hquery

variable (std files)

/-- The queries are safe after any calls exactly when no file has a table or the first header does not
repeat a name. -/
theorem callsSafe_iff (filePaths : List Bytes) :
    CallsSafe std files filePaths ↔ Queryable (tablesOf files filePaths) := by
  constructor
  · intro hsafe
    cases htables : tablesOf files filePaths with
    | nil => trivial
    | cons first rest =>
        by_contra hdup
        obtain ⟨m, p, hparse, hmerged, hunparsed⟩ := parseFresh_duplicate std htables hdup
        have hne : first.header ≠ [] := fun hnil => hdup (by rw [Queryable, hnil]; exact List.nodup_nil)
        obtain ⟨name, hname⟩ := List.exists_mem_of_ne_nil _ hne
        refine not_querySafe_of_unparsed hmerged hunparsed hname (hsafe [.parse] m (by decide) ?_)
        rw [runCalls, List.foldlM_cons, LogParserMgr.call, show LogParserMgr.parse std files _ = _ from hparse]
        rfl
  · intro hqueryable calls m hone hrun
    rcases runCalls_eq hone hrun with rfl | ⟨-, ok, hparse⟩
    · exact querySafe_ofPaths filePaths
    · cases htables : tablesOf files filePaths with
      | nil =>
          obtain ⟨m', hparse', hnone, hmap⟩ := parseFresh_nil std htables
          obtain ⟨rfl, rfl⟩ := Prod.mk.inj (Except.ok.inj (hparse.symm.trans hparse'))
          exact querySafe_of_parsed (fun p h => by rw [hnone] at h; cases h) hmap
      | cons first rest =>
          rw [htables] at hqueryable
          -- `Parse` did not read past a row, so no table is narrower within agreeing columns
          have hwidth : ∀ table ∈ first :: rest, agree table.types first.types = true →
              first.header.length ≤ table.header.length := by
            intro table htable hagree
            by_contra hlt
            obtain ⟨col, herror⟩ := parseFresh_narrow std htables hqueryable htable hagree (by omega)
            rw [parseFresh, hparse] at herror
            cases herror
          obtain ⟨m', p, hparse', hmerged, -, hparsed, hfully, -, hfiles⟩ :=
            parseFresh_merged std htables hqueryable hwidth
          obtain ⟨rfl, rfl⟩ := Prod.mk.inj (Except.ok.inj (hparse.symm.trans hparse'))
          refine querySafe_of_parsed (fun p' h => ?_) hfiles.mapParsed
          obtain rfl := Option.some.inj (hmerged.symm.trans h)
          exact ⟨hparsed, hfully⟩

/-- A file whose header repeats a name. -/
def repeatedName : Files := fun filePath =>
  if filePath = ascii "log" then some (ascii "a\ta\n1\t2\n") else none

/-- After `Parse` has returned false, `CalculateAllFiles` on the repeated name reads past the metrics. -/
theorem not_callsSafe_repeatedName : ¬CallsSafe .insertion repeatedName [ascii "log"] := by
  intro hsafe
  have hrun : ((LogParserMgr.ofPaths [ascii "log"]).parse .insertion repeatedName).isOk = true := by
    decide
  cases hparse : (LogParserMgr.ofPaths [ascii "log"]).parse .insertion repeatedName with
  | error fault =>
      rw [hparse] at hrun
      cases hrun
  | ok result =>
      obtain ⟨answer, hquery, -⟩ := hsafe [.parse] result.2 (by decide)
        (by rw [runCalls, List.foldlM_cons, LogParserMgr.call, hparse]; rfl)
        (.calculateAllFiles (ascii "a") (ascii "sum"))
      have hfault : (do
          let result ← (LogParserMgr.ofPaths [ascii "log"]).parse .insertion repeatedName
          result.2.query (.calculateAllFiles (ascii "a") (ascii "sum"))).isOk = false := by decide
      rw [hparse, ok_bind, hquery] at hfault
      cases hfault

end ToyBox.LogParser
