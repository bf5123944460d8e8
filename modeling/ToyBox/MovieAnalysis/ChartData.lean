import Mathlib.Data.Set.List
import ToyBox.MovieAnalysis.MovieAnalysis

/-! The data of the score chart. The rows are counted by the text of the date and looked up by the calendar
date, so that a lookup finds the count of one spelling. -/

namespace ToyBox.MovieAnalysis

open Checked

/-- The score and the calendar date of a row. -/
def dated (lib : Libraries) (pair : Score × Bytes) : Option (Score × Date) :=
  (lib.toDatetime pair.2).map fun date => (pair.1, date)

def datedRows (lib : Libraries) (dta : List Review) : List (Score × Date) := (scoreList dta).filterMap (dated lib)

/-- How many rows have a score and a date. -/
def votesOn (rows : List (Score × Date)) (score : ℚ) (date : Date) : Nat := rows.count (.number score, date)

/-- The chart shows the dates of the rows in increasing order, and for every date and each of the five scores
how many rows have them. -/
structure Shows (chart : Chart) (rows : List (Score × Date)) (dates : List Date) : Prop where
  increasing : dates.Pairwise (· < ·)
  mem_dates : ∀ date, date ∈ dates ↔ ∃ score, (score, date) ∈ rows
  xaxis_eq : chart.xaxis = dates.map Date.text
  yaxis_eq : chart.yaxis = stars.map fun star => (star.1, dates.map (votesOn rows star.2))

def ChartComplete (lib : Libraries) (dta : List Review) : Prop :=
  ∃ chart dates, drawContentPic lib dta = .ok chart ∧ Shows chart (datedRows lib dta) dates

def DatesParse (lib : Libraries) (dta : List Review) : Prop :=
  ∀ pair ∈ scoreList dta, ∃ date, lib.toDatetime pair.2 = some date

/-- Among the rows with one of the five scores, all that have one score and one calendar date give the date
the same text. -/
def OneSpelling (lib : Libraries) (dta : List Review) : Prop :=
  ∀ star ∈ stars, ∀ date text text',
    (.number star.2, text) ∈ scoreList dta → lib.toDatetime text = some date →
    (.number star.2, text') ∈ scoreList dta → lib.toDatetime text' = some date → text' = text

variable {lib : Libraries} {dta : List Review}

theorem dated_eq_some_iff {pair : Score × Bytes} {score : Score} {date : Date} :
    dated lib pair = some (score, date) ↔ pair.1 = score ∧ lib.toDatetime pair.2 = some date := by
  rw [dated, Option.map_eq_some_iff]
  constructor
  · rintro ⟨d, hd, heq⟩
    obtain ⟨rfl, rfl⟩ := Prod.mk.inj heq
    exact ⟨rfl, hd⟩
  · rintro ⟨rfl, hd⟩
    exact ⟨date, hd, rfl⟩

/-! ### The two frames -/

/-- What the run makes of the table: the frame of counts, and the frame that is looked up. -/
structure Filled (lib : Libraries) (dta : List Review) (infoNew table : List (Row Bytes)) : Prop where
  run : drawContentPic lib dta = do
    let yaxis ← stars.mapM (series table (attr lib table))
    return { xaxis := attr lib table, yaxis }
  mem_infoNew : ∀ {row}, row ∈ infoNew ↔ ∃ pair ∈ scoreList dta, ∃ date,
    lib.toDatetime pair.2 = some date ∧ row = ⟨pair.1, date.text, (scoreList dta).count pair⟩
  mem_table : ∀ {row}, row ∈ table ↔ row ∈ createDf infoNew ∨ row ∈ infoNew

theorem mem_info {scoreList : List (Score × Bytes)} {row : Row Bytes} :
    row ∈ info lib scoreList ↔ ∃ pair ∈ scoreList, row = ⟨pair.1, pair.2, scoreList.count pair⟩ := by
  simp only [info, List.mem_map, lib.pairSet.mem_elems, eq_comm (b := row)]

theorem parseDate_eq_ok_iff {row : Row Bytes} {parsed : Row Date} :
    parseDate lib row = .ok parsed ↔
      ∃ date, lib.toDatetime row.date = some date ∧ parsed = ⟨row.score, date, row.votes⟩ := by
  cases hdate : lib.toDatetime row.date with
  | none => simp [parseDate, hdate, throw, throwThe, MonadExceptOf.throw]
  | some date => simp [parseDate, hdate, pure, Except.pure, eq_comm]

theorem nameColumns_eq_ok {info : List (Row Bytes)} (h : info ≠ []) : nameColumns info = .ok info := by
  rw [nameColumns, if_neg h]
  rfl

theorem info_eq_nil_iff {scoreList : List (Score × Bytes)} : info lib scoreList = [] ↔ scoreList = [] := by
  simp only [List.eq_nil_iff_forall_not_mem, mem_info]
  constructor
  · exact fun h pair hpair => h _ ⟨pair, hpair, rfl⟩
  · rintro h row ⟨pair, hpair, -⟩
    exact h pair hpair

/-- The run reaches the lookups whenever the dates parse and there is a row. -/
theorem exists_filled (hparse : DatesParse lib dta) (hne : scoreList dta ≠ []) :
    ∃ infoNew table, Filled lib dta infoNew table := by
  obtain ⟨parsed, hparsed⟩ : ∃ parsed, (info lib (scoreList dta)).mapM (parseDate lib) = .ok parsed := by
    apply exists_mapM_eq_ok
    intro row hrow
    obtain ⟨pair, hpair, rfl⟩ := mem_info.mp hrow
    obtain ⟨date, hdate⟩ := hparse pair hpair
    exact ⟨_, parseDate_eq_ok_iff.mpr ⟨date, hdate, rfl⟩⟩
  let infoNew := (lib.sortDates.sort parsed).map astypeStr
  refine ⟨infoNew, lib.sortTexts.sort ((createDf infoNew).eraseDups ++ infoNew), ?_, ?_, ?_⟩
  · rw [drawContentPic, nameColumns_eq_ok (info_eq_nil_iff.not.mpr hne), ok_bind, hparsed, ok_bind]
  · intro row
    simp only [infoNew, List.mem_map, lib.sortDates.mem_sort]
    constructor
    · rintro ⟨row', hrow', rfl⟩
      obtain ⟨row, hrow, hstep⟩ := exists_of_mem_mapM hparsed hrow'
      obtain ⟨pair, hpair, rfl⟩ := mem_info.mp hrow
      obtain ⟨date, hdate, rfl⟩ := parseDate_eq_ok_iff.mp hstep
      exact ⟨pair, hpair, date, hdate, rfl⟩
    · rintro ⟨pair, hpair, date, hdate, rfl⟩
      obtain ⟨row', hrow', hstep⟩ :=
        exists_of_mem_left (mapM_eq_ok_iff.mp hparsed) (mem_info.mpr ⟨pair, hpair, rfl⟩)
      obtain ⟨date', hdate', rfl⟩ := parseDate_eq_ok_iff.mp hstep
      obtain rfl : date = date' := Option.some.inj (hdate.symm.trans hdate')
      exact ⟨_, hrow', rfl⟩
  · intro row
    rw [lib.sortTexts.mem_sort, List.mem_append, List.mem_eraseDups]

/-! ### The lookup -/

theorem located_iff {i : Bytes} {score : ℚ} {row : Row Bytes} :
    located i score row ↔ row.date = i ∧ row.score = .number score := by
  rw [located, decide_eq_true_eq]

theorem mem_missing {infoNew : List (Row Bytes)} {i : Bytes} {score : ℚ} {row : Row Bytes} :
    row ∈ missing infoNew i score ↔
      (∀ row' ∈ infoNew, ¬located i score row') ∧ row = ⟨.number score, i, 0⟩ := by
  rw [missing, ← List.filter_eq_nil_iff]
  split
  case isTrue hnone => rw [List.mem_singleton, and_iff_right hnone]
  case isFalse hsome => exact iff_of_false List.not_mem_nil fun h => hsome h.1

theorem mem_createDf {infoNew : List (Row Bytes)} {row : Row Bytes} :
    row ∈ createDf infoNew ↔ ∃ i ∈ infoNew.map Row.date, ∃ star ∈ stars,
      (∀ row' ∈ infoNew, ¬located i star.2 row') ∧ row = ⟨.number star.2, i, 0⟩ := by
  simp only [createDf, List.mem_flatMap, mem_missing]

theorem exists_of_votesAt {table : List (Row Bytes)} {score : ℚ} {i : Bytes} {votes : Nat}
    (h : votesAt table score i = .ok votes) : ∃ row ∈ table, located i score row ∧ row.votes = votes := by
  unfold votesAt at h
  split at h
  case h_1 row _ hrows =>
    have hrow := List.mem_filter.mp (hrows ▸ List.mem_cons_self)
    exact ⟨row, hrow.1, hrow.2, Except.ok.inj h⟩
  case h_2 => cases h

theorem exists_votesAt {table : List (Row Bytes)} {score : ℚ} {i : Bytes} {row : Row Bytes} (hrow : row ∈ table)
    (hlocated : located i score row) : ∃ votes, votesAt table score i = .ok votes := by
  unfold votesAt
  split
  case h_1 found _ _ => exact ⟨found.votes, rfl⟩
  case h_2 hnone => exact absurd hlocated (List.filter_eq_nil_iff.mp hnone row hrow)

namespace Filled

variable {infoNew table : List (Row Bytes)}

theorem mem_dates (h : Filled lib dta infoNew table) {i : Bytes} :
    i ∈ table.map Row.date ↔ ∃ pair ∈ scoreList dta, ∃ date, lib.toDatetime pair.2 = some date ∧ date.text = i := by
  have hinfo : i ∈ table.map Row.date ↔ i ∈ infoNew.map Row.date := by
    simp only [List.mem_map, h.mem_table]
    constructor
    · rintro ⟨row, hrow | hrow, rfl⟩
      · obtain ⟨i, hi, star, -, -, rfl⟩ := mem_createDf.mp hrow
        exact List.mem_map.mp hi
      · exact ⟨row, hrow, rfl⟩
    · rintro ⟨row, hrow, rfl⟩
      exact ⟨row, Or.inr hrow, rfl⟩
  rw [hinfo, List.mem_map]
  constructor
  · rintro ⟨row, hrow, rfl⟩
    obtain ⟨pair, hpair, date, hdate, rfl⟩ := h.mem_infoNew.mp hrow
    exact ⟨pair, hpair, date, hdate, rfl⟩
  · rintro ⟨pair, hpair, date, hdate, rfl⟩
    exact ⟨_, h.mem_infoNew.mpr ⟨pair, hpair, date, hdate, rfl⟩, rfl⟩

/-- A row of counts for a score and a date stands for a spelling of that date. -/
theorem located_infoNew (h : Filled lib dta infoNew table) {date : Date} {score : ℚ} {row : Row Bytes}
    (hrow : row ∈ infoNew) (hlocated : located date.text score row) :
    ∃ pair ∈ scoreList dta, dated lib pair = some (.number score, date) ∧ row.votes = (scoreList dta).count pair := by
  obtain ⟨pair, hpair, date', hdate, rfl⟩ := h.mem_infoNew.mp hrow
  obtain ⟨htext, hscore⟩ := located_iff.mp hlocated
  obtain rfl : date' = date := Date.text_injective htext
  exact ⟨pair, hpair, dated_eq_some_iff.mpr ⟨hscore, hdate⟩, rfl⟩

theorem exists_located (h : Filled lib dta infoNew table) {date : Date} {score : ℚ} {pair : Score × Bytes}
    (hpair : pair ∈ scoreList dta) (hdated : dated lib pair = some (.number score, date)) :
    ∃ row ∈ infoNew, located date.text score row := by
  obtain ⟨hscore, hdate⟩ := dated_eq_some_iff.mp hdated
  exact ⟨_, h.mem_infoNew.mpr ⟨pair, hpair, date, hdate, rfl⟩, located_iff.mpr ⟨rfl, hscore⟩⟩

/-- The lookup never fails at a date of the axis: a row of counts is there, or a row without votes is added. -/
theorem exists_votesAt (h : Filled lib dta infoNew table) {i : Bytes} (hi : i ∈ table.map Row.date)
    {star : String × ℚ} (hstar : star ∈ stars) : ∃ votes, votesAt table star.2 i = .ok votes := by
  by_cases hrow : ∃ row ∈ infoNew, located i star.2 row
  · obtain ⟨row, hrow, hlocated⟩ := hrow
    exact MovieAnalysis.exists_votesAt (h.mem_table.mpr (Or.inr hrow)) hlocated
  · push Not at hrow
    have hdate : i ∈ infoNew.map Row.date := by
      obtain ⟨pair, hpair, date, hdate, rfl⟩ := h.mem_dates.mp hi
      exact List.mem_map_of_mem (f := Row.date) (h.mem_infoNew.mpr ⟨pair, hpair, date, hdate, rfl⟩)
    have hadded : (⟨.number star.2, i, 0⟩ : Row Bytes) ∈ createDf infoNew :=
      mem_createDf.mpr ⟨i, hdate, star, hstar, hrow, rfl⟩
    exact MovieAnalysis.exists_votesAt (h.mem_table.mpr (Or.inl hadded)) (located_iff.mpr ⟨rfl, rfl⟩)

/-- The value at a date is the count of one spelling, or zero where no row has the score and the date. -/
theorem votesAt_cases (h : Filled lib dta infoNew table) {score : ℚ} {date : Date} {votes : Nat}
    (hvotes : votesAt table score date.text = .ok votes) :
    (∃ pair ∈ scoreList dta, dated lib pair = some (.number score, date) ∧ votes = (scoreList dta).count pair) ∨
      votes = 0 ∧ ∀ pair ∈ scoreList dta, dated lib pair ≠ some (.number score, date) := by
  obtain ⟨row, hrow, hlocated, rfl⟩ := exists_of_votesAt hvotes
  rcases h.mem_table.mp hrow with hadded | hinfo
  · obtain ⟨i, -, star, -, hnone, rfl⟩ := mem_createDf.mp hadded
    obtain ⟨rfl, hscore⟩ := located_iff.mp hlocated
    obtain rfl : star.2 = score := Score.number.inj hscore
    refine Or.inr ⟨rfl, fun pair hpair hdated => ?_⟩
    obtain ⟨row, hrow, hlocated⟩ := h.exists_located hpair hdated
    exact hnone row hrow hlocated
  · exact Or.inl (h.located_infoNew hinfo hlocated)

/-- The value at a date is the number of the rows exactly when one spelling stands for them all. -/
theorem votesAt_eq_count_iff (h : Filled lib dta infoNew table) {score : ℚ} {date : Date} {votes : Nat}
    (hvotes : votesAt table score date.text = .ok votes) :
    votes = votesOn (datedRows lib dta) score date ↔
      ∀ pair ∈ scoreList dta, ∀ pair' ∈ scoreList dta, dated lib pair = some (.number score, date) →
        dated lib pair' = some (.number score, date) → pair' = pair := by
  rcases h.votesAt_cases hvotes with ⟨found, hfound, hdated, rfl⟩ | ⟨rfl, hnone⟩
  · rw [votesOn, datedRows, eq_comm, count_filterMap_eq_count_iff hdated]
    constructor
    · intro hone pair hpair pair' hpair' hd hd'
      rw [hone pair hpair hd, hone pair' hpair' hd']
    · exact fun hone pair hpair hd => hone found hfound pair hpair hdated hd
  · have hzero : votesOn (datedRows lib dta) score date = 0 := count_filterMap_eq_zero_iff.mpr hnone
    exact iff_of_true hzero.symm fun pair hpair _ _ hd => absurd hd (hnone pair hpair)

end Filled

/-! ### The axis -/

theorem mem_attr {table : List (Row Bytes)} {i : Bytes} : i ∈ attr lib table ↔ i ∈ table.map Row.date := by
  rw [attr, List.mem_insertionSort, lib.dateSet.mem_elems]

/-- The axis is strictly increasing, since a set gives out every text once. -/
theorem pairwise_attr (table : List (Row Bytes)) : (attr lib table).Pairwise (· < ·) := by
  have htotal : Std.Total fun a b : Bytes => a ≤ b := ⟨List.le_total⟩
  have htrans : IsTrans Bytes fun a b => a ≤ b := ⟨fun _ _ _ => List.le_trans⟩
  have hsorted : (attr lib table).Pairwise (· ≤ ·) := List.pairwise_insertionSort _ _
  have hnodup : (attr lib table).Nodup :=
    (List.perm_insertionSort _ _).nodup_iff.mpr (lib.dateSet.nodup _)
  refine (hsorted.and hnodup).imp ?_
  rintro a b ⟨hle, hne⟩
  by_contra hlt
  exact hne (List.le_antisymm hle (List.not_lt.mp hlt))

/-- The axis is the dates of the rows, whatever the spellings. -/
theorem exists_dates {infoNew table : List (Row Bytes)} (h : Filled lib dta infoNew table) :
    ∃ dates : List Date, attr lib table = dates.map Date.text ∧ dates.Pairwise (· < ·) ∧
      ∀ date, date ∈ dates ↔ ∃ score, (score, date) ∈ datedRows lib dta := by
  have hrange : attr lib table ∈ Set.range (List.map Date.text) := by
    rw [Set.range_list_map]
    intro i hi
    obtain ⟨pair, -, date, -, htext⟩ := h.mem_dates.mp (mem_attr.mp hi)
    exact ⟨date, htext⟩
  obtain ⟨dates, hdates⟩ := hrange
  have hsorted : (attr lib table).Pairwise (· < ·) := pairwise_attr table
  rw [← hdates, List.pairwise_map] at hsorted
  refine ⟨dates, hdates.symm, hsorted.imp fun hlt => (Date.text_lt_iff _ _).mp hlt, fun date => ?_⟩
  have hmem : date ∈ dates ↔ date.text ∈ attr lib table := by
    rw [← hdates, List.mem_map_of_injective Date.text_injective]
  rw [hmem, mem_attr, h.mem_dates]
  simp only [datedRows, List.mem_filterMap, dated_eq_some_iff]
  constructor
  · rintro ⟨pair, hpair, date', hdate, htext⟩
    obtain rfl := Date.text_injective htext
    exact ⟨pair.1, pair, hpair, rfl, hdate⟩
  · rintro ⟨score, pair, hpair, -, hdate⟩
    exact ⟨pair, hpair, date, hdate, rfl⟩

/-! ### The chart -/

theorem series_eq_ok_iff {table : List (Row Bytes)} {axis : List Bytes} {star : String × ℚ} {values : List Nat} :
    series table axis star = .ok (star.1, values) ↔ axis.mapM (votesAt table star.2) = .ok values := by
  rw [series, bind_eq_ok_iff]
  constructor
  · rintro ⟨found, hfound, heq⟩
    obtain rfl : found = values := (Prod.mk.inj (Except.ok.inj heq)).2
    exact hfound
  · exact fun h => ⟨values, h, rfl⟩

theorem drawContentPic_of_nil (h : scoreList dta = []) : drawContentPic lib dta = .error .valueError := by
  have hname : nameColumns (info lib (scoreList dta)) = .error .valueError := by
    rw [nameColumns, if_pos (info_eq_nil_iff.mpr h)]
    rfl
  exact bind_of_eq_error hname _

namespace Filled

variable {infoNew table : List (Row Bytes)}

theorem exists_chart (h : Filled lib dta infoNew table) : ∃ chart, drawContentPic lib dta = .ok chart := by
  have hseries : ∀ star ∈ stars, ∃ values, series table (attr lib table) star = .ok values := by
    intro star hstar
    obtain ⟨values, hvalues⟩ := exists_mapM_eq_ok fun i hi => h.exists_votesAt (mem_attr.mp hi) hstar
    exact ⟨_, series_eq_ok_iff.mpr hvalues⟩
  obtain ⟨yaxis, hyaxis⟩ := exists_mapM_eq_ok hseries
  rw [h.run, hyaxis]
  exact ⟨_, rfl⟩

/-- The series of counts come out when every lookup gives the count. -/
theorem series_eq_counts_iff {dates : List Date} (hattr : attr lib table = dates.map Date.text)
    (counts : ℚ → Date → Nat) :
    stars.mapM (series table (attr lib table)) = .ok (stars.map fun star => (star.1, dates.map (counts star.2))) ↔
      ∀ star ∈ stars, ∀ date ∈ dates, votesAt table star.2 date.text = .ok (counts star.2 date) := by
  rw [mapM_eq_ok_map_iff]
  refine forall₂_congr fun star _ => ?_
  rw [series_eq_ok_iff, hattr, mapM_map_eq_ok_map_iff]

end Filled

theorem complete_of_oneSpelling (hparse : DatesParse lib dta) (hne : scoreList dta ≠ []) (hone : OneSpelling lib dta) :
    ChartComplete lib dta := by
  obtain ⟨infoNew, table, h⟩ := exists_filled hparse hne
  obtain ⟨dates, hattr, hincreasing, hmem⟩ := exists_dates h
  have hvotes : ∀ star ∈ stars, ∀ date ∈ dates,
      votesAt table star.2 date.text = .ok (votesOn (datedRows lib dta) star.2 date) := by
    intro star hstar date hdate
    have hi : date.text ∈ attr lib table := hattr ▸ List.mem_map_of_mem hdate
    obtain ⟨votes, hvotes⟩ := h.exists_votesAt (mem_attr.mp hi) hstar
    rw [hvotes, (h.votesAt_eq_count_iff hvotes).mpr]
    rintro ⟨score, text⟩ hpair ⟨score', text'⟩ hpair' hd hd'
    obtain ⟨rfl, hdate⟩ := dated_eq_some_iff.mp hd
    obtain ⟨rfl, hdate'⟩ := dated_eq_some_iff.mp hd'
    rw [hone star hstar date text text' hpair hdate hpair' hdate']
  have hseries := (Filled.series_eq_counts_iff hattr _).mpr hvotes
  refine ⟨⟨attr lib table, _⟩, dates, ?_, ⟨hincreasing, hmem, hattr, rfl⟩⟩
  rw [h.run, hseries, ok_bind]
  rfl

theorem oneSpelling_of_complete (hparse : DatesParse lib dta) (hcomplete : ChartComplete lib dta) :
    scoreList dta ≠ [] ∧ OneSpelling lib dta := by
  obtain ⟨chart, dates, hrun, hshows⟩ := hcomplete
  have hne : scoreList dta ≠ [] := by
    intro hnil
    rw [drawContentPic_of_nil hnil] at hrun
    cases hrun
  obtain ⟨infoNew, table, h⟩ := exists_filled hparse hne
  rw [h.run] at hrun
  obtain ⟨yaxis, hyaxis, hchart⟩ := bind_eq_ok_iff.mp hrun
  obtain rfl := Except.ok.inj hchart
  obtain rfl : yaxis = _ := hshows.yaxis_eq
  have hvotes := (Filled.series_eq_counts_iff hshows.xaxis_eq _).mp hyaxis
  refine ⟨hne, fun star hstar date text text' hpair hdate hpair' hdate' => ?_⟩
  have hd : dated lib (.number star.2, text) = some (.number star.2, date) := dated_eq_some_iff.mpr ⟨rfl, hdate⟩
  have hd' : dated lib (.number star.2, text') = some (.number star.2, date) := dated_eq_some_iff.mpr ⟨rfl, hdate'⟩
  have hmem : date ∈ dates := (hshows.mem_dates date).mpr ⟨_, List.mem_filterMap.mpr ⟨_, hpair, hd⟩⟩
  have hpairs := (h.votesAt_eq_count_iff (hvotes star hstar date hmem)).mp rfl _ hpair _ hpair' hd hd'
  exact congrArg Prod.snd hpairs

/-- For a table whose dates parse, the chart is complete exactly when some row is without a NaN and no two
spellings of one date carry the same of the five scores. No lookup fails. -/
theorem chartComplete_iff (lib : Libraries) (dta : List Review) (hparse : DatesParse lib dta) :
    (ChartComplete lib dta ↔ scoreList dta ≠ [] ∧ OneSpelling lib dta) ∧
      drawContentPic lib dta ≠ .error .indexError := by
  refine ⟨⟨oneSpelling_of_complete hparse, fun h => complete_of_oneSpelling hparse h.1 h.2⟩, ?_⟩
  by_cases hnil : scoreList dta = []
  · rw [drawContentPic_of_nil hnil]
    exact nofun
  · obtain ⟨infoNew, table, h⟩ := exists_filled hparse hnil
    obtain ⟨chart, hrun⟩ := h.exists_chart
    rw [hrun]
    exact nofun

/-! ### Tables -/

/-- The format itself, sets in the order of the last occurrences and sorts by insertion. -/
def plainLibraries : Libraries :=
  have : Std.Total fun a b : Row Date => a.date ≤ b.date := ⟨fun a b => Date.le_total a.date b.date⟩
  have : IsTrans (Row Date) fun a b => a.date ≤ b.date := ⟨fun _ _ _ => Date.le_trans⟩
  have : Std.Total fun a b : Row Bytes => a.date ≤ b.date := ⟨fun a b => List.le_total a.date b.date⟩
  have : IsTrans (Row Bytes) fun a b => a.date ≤ b.date := ⟨fun _ _ _ => List.le_trans⟩
  { toDatetime := strptime
    pairSet := .dedup
    dateSet := .dedup
    sortDates := .insertion _
    sortTexts := .insertion _ }

def review (date : String) (score : ℚ) : Review where
  movieName := some (ascii "m")
  userName := some (ascii "u")
  content := some (ascii "c")
  date := some (ascii date)
  votes := some 0
  score := some (.number score)

/-- Two scores on one day and one on a day before it. -/
def threeReviews : List Review := [review "2018/3/4" 50, review "2018/3/4" 40, review "2018/2/19" 50]

theorem chartComplete_threeReviews : ChartComplete plainLibraries threeReviews := by
  have hparse : DatesParse plainLibraries threeReviews := fun pair hpair =>
    Option.isSome_iff_exists.mp <| (by decide : ∀ pair ∈ scoreList threeReviews, (strptime pair.2).isSome) pair hpair
  have htexts : ∀ pair ∈ scoreList threeReviews, ∀ pair' ∈ scoreList threeReviews,
      strptime pair.2 = strptime pair'.2 → pair.2 = pair'.2 := by decide
  refine (chartComplete_iff plainLibraries threeReviews hparse).1.mpr ⟨by decide, ?_⟩
  intro star _ date text text' htext hdate htext' hdate'
  exact htexts _ htext' _ htext (hdate'.trans hdate.symm)

/-- Two five-star reviews of one day, dated with zeros and without. -/
def twoSpellings : List Review := [review "2018/3/4" 50, review "2018/03/04" 50]

/-- One of the two is counted. -/
theorem not_chartComplete_twoSpellings :
    DatesParse plainLibraries twoSpellings ∧
    drawContentPic plainLibraries twoSpellings = .ok
      { xaxis := [ascii "2018-03-04"]
        yaxis := [("五星", [1]), ("四星", [0]), ("三星", [0]), ("二星", [0]), ("一星", [0])] } ∧
    ¬ChartComplete plainLibraries twoSpellings := by
  have hparse : DatesParse plainLibraries twoSpellings := fun pair hpair =>
    Option.isSome_iff_exists.mp <| (by decide : ∀ pair ∈ scoreList twoSpellings, (strptime pair.2).isSome) pair hpair
  refine ⟨hparse, by decide, fun hcomplete => ?_⟩
  obtain ⟨date, hdate⟩ := hparse (.number 50, ascii "2018/3/4") (by decide)
  have hone := (oneSpelling_of_complete hparse hcomplete).2 ("五星", 50) (by decide) date
    (ascii "2018/3/4") (ascii "2018/03/04") (by decide) hdate (by decide)
    (Eq.trans (by decide) hdate)
  exact absurd hone (by decide)

end ToyBox.MovieAnalysis
