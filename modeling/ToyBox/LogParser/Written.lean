import ToyBox.Cxx.StringStream
import ToyBox.LogParser.FromFile

/-! Rows as the log generator writes them, and what the parser reads back of them. -/

namespace ToyBox.LogParser

open Cxx

/-- `'\t'.join(data_list)`. -/
def joinCells (cells : List Cell) : Bytes := [tab].intercalate cells

/-- One `f.write` of `gen_log_file`. -/
def writeRow (cells : List Cell) : Bytes := joinCells cells ++ [newline]

/-- What a row should come to: reading gives its cells, and a parser with as many columns does not count
a mismatch of columns once the header is read. -/
def RoundTrips (cells : List Cell) : Prop :=
  parseLineContent (joinCells cells) = cells ∧
  ∀ s : LineLoop, s.validLineCnt ≠ 0 → s.parser.colCnt = cells.length →
    ∃ s', readLine s (joinCells cells) = .ok s' ∧ s'.mismatchColCnt = s.mismatchColCnt

theorem joinCells_concat (init : List Cell) (last : Cell) :
    joinCells (init ++ [last]) = joinLines tab init ++ last := by
  induction init with
  | nil => exact List.intercalate_singleton
  | cons cell init ih =>
      have hrest : joinCells (cell :: (init ++ [last])) = cell ++ [tab] ++ joinCells (init ++ [last]) :=
        List.intercalate_cons_of_ne_nil (List.concat_ne_nil last init)
      rw [List.cons_append, hrest, ih, joinLines, joinLines, List.flatMap_cons, List.append_assoc (cell ++ [tab])]

theorem getlines_joinLines_append (delim : UInt8) {lines : List Bytes} (h : ∀ line ∈ lines, delim ∉ line)
    (stream : Bytes) : getlines delim (joinLines delim lines ++ stream) = lines ++ getlines delim stream := by
  induction lines with
  | nil => rfl
  | cons line lines ih =>
      have hrest := ih fun line' hline' => h line' (List.mem_cons_of_mem line hline')
      rw [joinLines, List.flatMap_cons, List.append_assoc, List.append_assoc, List.singleton_append,
        getlines_append delim line (h line List.mem_cons_self), ← joinLines, hrest, List.cons_append]

/-- A value without a delimiter behind it is read only if there is something of it. -/
theorem getlines_of_not_mem {delim : UInt8} {value : Bytes} (h : delim ∉ value) :
    getlines delim value = if value = [] then [] else [value] := by
  induction value with
  | nil => rfl
  | cons b value ih =>
      rw [List.mem_cons, not_or] at h
      rw [getlines, if_neg (Ne.symm h.1), ih h.2]
      by_cases hvalue : value = [] <;> simp [hvalue]

/-- Of a written row all cells come back but an empty last one. -/
theorem parseLineContent_joinCells {init : List Cell} {last : Cell} (hinit : ∀ cell ∈ init, tab ∉ cell)
    (hlast : tab ∉ last) :
    parseLineContent (joinCells (init ++ [last])) = init ++ if last = [] then [] else [last] := by
  rw [joinCells_concat, parseLineContent, getlines_joinLines_append tab hinit, getlines_of_not_mem hlast]

theorem joinCells_ne_nil {cells : List Cell} (hcells : 2 ≤ cells.length) : joinCells cells ≠ [] := by
  match cells, hcells with
  | cell :: cell' :: cells, _ => simp [joinCells]

theorem storeLine_mismatchColCnt {s : LineLoop} {colValList : List Cell}
    (h : colValList.length = s.parser.colCnt) :
    (storeLine s colValList).mismatchColCnt = s.mismatchColCnt := by
  rw [storeLine, if_neg (not_not.mpr h)]
  split <;> rfl

/-- Past the header, a line of the right width is not counted as a mismatch of columns. -/
theorem readLine_mismatchColCnt {s : LineLoop} {lineBuff : Bytes} (hline : lineBuff ≠ [])
    (hheader : s.validLineCnt ≠ 0) (hwidth : (parseLineContent lineBuff).length = s.parser.colCnt) :
    ∃ s', readLine s lineBuff = .ok s' ∧ s'.mismatchColCnt = s.mismatchColCnt := by
  rw [readLine, if_neg hline, if_neg hheader]
  by_cases hone : s.validLineCnt = 1
  · rw [if_pos hone, if_neg (not_not.mpr hwidth)]
    refine ⟨_, rfl, ?_⟩
    rw [storeLine_mismatchColCnt (by rw [hwidth, setColumns_colCnt])]
  · rw [if_neg hone]
    exact ⟨_, rfl, storeLine_mismatchColCnt hwidth⟩

/-- A written row is a line of its file. The loop over its stream ends, and what it reads is the row exactly when the
last cell is not empty. -/
theorem roundTrips_iff {cells : List Cell} (hcells : 2 ≤ cells.length)
    (hfree : ∀ cell ∈ cells, tab ∉ cell ∧ newline ∉ cell) :
    (∀ rest, getlines newline (writeRow cells ++ rest) = joinCells cells :: getlines newline rest) ∧
    (∀ fuel, (joinCells cells).length + 1 ≤ fuel →
      StringStream.whileGetline tab fuel { rest := joinCells cells } [] [] = some (parseLineContent (joinCells cells))) ∧
    (RoundTrips cells ↔ cells.getLast? ≠ some []) := by
  have hne : cells ≠ [] := List.length_pos_iff.mp (by omega)
  obtain ⟨init, last, rfl⟩ := (List.eq_nil_or_concat' cells).resolve_left hne
  have hinit : ∀ cell ∈ init, tab ∉ cell := fun cell hcell => (hfree cell (List.mem_append_left _ hcell)).1
  have hlast : tab ∉ last := (hfree last (by simp)).1
  have hparse := parseLineContent_joinCells hinit hlast
  have hnewline : newline ∉ joinCells (init ++ [last]) := by
    rw [joinCells_concat, joinLines, List.mem_append, List.mem_flatMap]
    rintro (⟨cell, hcell, hmem⟩ | hmem)
    · rcases List.mem_append.mp hmem with hmem | hmem
      · exact (hfree cell (List.mem_append_left _ hcell)).2 hmem
      · exact absurd hmem (by decide)
    · exact (hfree last (by simp)).2 hmem
  refine ⟨fun rest => ?_, fun fuel => StringStream.whileGetline_eq fuel _ [] [], ⟨fun h => ?_, fun h => ?_⟩⟩
  · rw [writeRow, List.append_assoc, List.singleton_append, getlines_append newline _ hnewline]
  · rw [List.getLast?_concat]
    rintro ⟨rfl⟩
    -- the row has come back one cell short
    have hlength := congrArg List.length (hparse.symm.trans h.1)
    simp at hlength
  · rw [List.getLast?_concat] at h
    rw [if_neg (fun hempty => h (by rw [hempty]))] at hparse
    refine ⟨hparse, fun s hheader hwidth => ?_⟩
    exact readLine_mismatchColCnt (joinCells_ne_nil hcells) hheader (by rw [hparse, hwidth])

/-- Two cells, neither of them empty. -/
theorem roundTrips_two_cells :
    (∀ rest, getlines newline (writeRow [ascii "7", ascii "x"] ++ rest) =
      joinCells [ascii "7", ascii "x"] :: getlines newline rest) ∧
    (∀ fuel, (joinCells [ascii "7", ascii "x"]).length + 1 ≤ fuel →
      StringStream.whileGetline tab fuel { rest := joinCells [ascii "7", ascii "x"] } [] [] =
        some (parseLineContent (joinCells [ascii "7", ascii "x"]))) ∧
    (RoundTrips [ascii "7", ascii "x"] ↔ [ascii "7", ascii "x"].getLast? ≠ some []) :=
  roundTrips_iff (by decide) (by decide)

/-- An empty string in the last column: the row is dropped. -/
theorem not_roundTrips_last_empty :
    parseLineContent (joinCells [ascii "7", []]) = [ascii "7"] ∧
    ¬∀ cells : List Cell, 2 ≤ cells.length → (∀ cell ∈ cells, tab ∉ cell ∧ newline ∉ cell) →
      RoundTrips cells := by
  refine ⟨by decide, fun h => ?_⟩
  have hcells := (h [ascii "7", []] (by decide) (by decide)).1
  exact absurd hcells (by decide)

end ToyBox.LogParser
