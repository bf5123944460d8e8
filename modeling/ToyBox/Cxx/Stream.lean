import ToyBox.Library.Bytes

/-! C strings and the two `std::getline` loops of the sources. A `std::string` is the list of its bytes; a
loop over a string stream is the list of the pieces it reads. -/

namespace ToyBox.Cxx

/-- The C string in a buffer: its bytes up to the first NUL. -/
def cString (buffer : Bytes) : Bytes := buffer.takeWhile (· ≠ 0)

/-- One `std::getline(stream, value, delim)` on what is left of a stream: the value and what is left
after it (`none` when the end of the stream, and not a delimiter, stopped the reading). -/
def getline (delim : UInt8) (stream : Bytes) : Bytes × Option Bytes :=
  (stream.takeWhile (· != delim),
    match stream.dropWhile (· != delim) with
    | [] => none
    | _ :: rest => some rest)

/-- `while (std::getline(stream, value, delim)) { ... }`: the values the loop body sees. The loop
ends when the stream has no byte left, so a last delimiter closes no further value. -/
def getlines (delim : UInt8) : Bytes → List Bytes
  | [] => []
  | b :: stream =>
      if b = delim then [] :: getlines delim stream
      else match getlines delim stream with
        | [] => [[b]]
        | value :: values => (b :: value) :: values

/-- `while (!stream.eof()) { std::getline(stream, value, delim); ... }`: the values the loop body
sees. A last delimiter is followed by one more, empty, value. -/
def getlinesToEof (delim : UInt8) : Bytes → List Bytes
  | [] => [[]]
  | b :: stream =>
      if b = delim then [] :: getlinesToEof delim stream
      else (getlinesToEof delim stream).modifyHead (b :: ·)

variable (delim : UInt8)

/-- `getlines` is the loop: it stops on an empty stream, and otherwise takes one `getline`. -/
theorem getlines_eq_loop (stream : Bytes) (hstream : stream ≠ []) :
    getlines delim stream =
      (getline delim stream).1 :: ((getline delim stream).2.map (getlines delim)).getD [] := by
  induction stream with
  | nil => exact absurd rfl hstream
  | cons b stream ih =>
      by_cases hb : b = delim
      · simp [getlines, getline, hb]
      · rw [getlines, if_neg hb]
        cases stream with
        | nil => simp [getlines, getline, hb]
        | cons c stream =>
            rw [ih (List.cons_ne_nil c stream)]
            simp [getline, hb]

/-- `getlinesToEof` is the loop: it always takes a `getline`, and goes on unless that one reached the
end of the stream. -/
theorem getlinesToEof_eq_loop (stream : Bytes) :
    getlinesToEof delim stream =
      (getline delim stream).1 :: ((getline delim stream).2.map (getlinesToEof delim)).getD [] := by
  induction stream with
  | nil => rfl
  | cons b stream ih =>
      by_cases hb : b = delim
      · simp [getlinesToEof, getline, hb]
      · rw [getlinesToEof, if_neg hb, ih]
        simp [getline, hb]

theorem getlinesToEof_eq_splitOn (stream : Bytes) :
    getlinesToEof delim stream = stream.splitOn delim := by
  induction stream with
  | nil => rfl
  | cons b stream ih =>
      rw [getlinesToEof, ih, List.splitOn_cons_eq_if_modifyHead]
      simp

/-- No value contains a delimiter. -/
theorem not_mem_of_mem_getlinesToEof {stream value : Bytes} (h : value ∈ getlinesToEof delim stream) :
    delim ∉ value := by
  induction stream generalizing value with
  | nil =>
      rw [getlinesToEof, List.mem_singleton] at h
      simp [h]
  | cons b stream ih =>
      rw [getlinesToEof] at h
      by_cases hb : b = delim
      · rw [if_pos hb, List.mem_cons] at h
        rcases h with rfl | h
        · exact List.not_mem_nil
        · exact ih h
      · rw [if_neg hb] at h
        cases hvalues : getlinesToEof delim stream with
        | nil => simp [hvalues] at h
        | cons first values =>
            rw [hvalues, List.modifyHead_cons, List.mem_cons] at h
            rcases h with rfl | h
            · have hfirst : delim ∉ first := ih (hvalues ▸ List.mem_cons_self)
              rw [List.mem_cons, not_or]
              exact ⟨Ne.symm hb, hfirst⟩
            · exact ih (hvalues ▸ List.mem_cons_of_mem _ h)

theorem getlines_ne_nil {stream : Bytes} (hstream : stream ≠ []) : getlines delim stream ≠ [] := by
  rw [getlines_eq_loop delim stream hstream]
  exact List.cons_ne_nil _ _

/-- The first loop reads what the second one reads, less the empty value after a last delimiter. -/
theorem getlinesToEof_eq_getlines (stream : Bytes) :
    getlinesToEof delim stream =
      if stream = [] ∨ stream.getLast? = some delim then getlines delim stream ++ [[]]
      else getlines delim stream := by
  induction stream with
  | nil => rfl
  | cons b stream ih =>
      rw [getlinesToEof, getlines, ih]
      cases stream with
      | nil => by_cases hb : b = delim <;> simp [hb, getlines]
      | cons c stream =>
          have hne := getlines_ne_nil delim (List.cons_ne_nil c stream)
          by_cases hb : b = delim
          · simp only [hb, if_true, List.getLast?_cons_cons, reduceCtorEq, false_or]
            split <;> rfl
          · simp only [hb, if_false, List.getLast?_cons_cons, reduceCtorEq, false_or]
            cases hlines : getlines delim (c :: stream) with
            | nil => exact absurd hlines hne
            | cons value values => split <;> rfl

theorem not_mem_of_mem_getlines {stream value : Bytes} (h : value ∈ getlines delim stream) :
    delim ∉ value := by
  have hmem : value ∈ getlinesToEof delim stream := by
    rw [getlinesToEof_eq_getlines]
    split
    · exact List.mem_append_left _ h
    · exact h
  exact not_mem_of_mem_getlinesToEof delim hmem

/-- One line, written with the delimiter behind it, is read back. -/
theorem getlines_append (line : Bytes) (hline : delim ∉ line) (stream : Bytes) :
    getlines delim (line ++ delim :: stream) = line :: getlines delim stream := by
  induction line with
  | nil => rw [List.nil_append, getlines, if_pos rfl]
  | cons b line ih =>
      rw [List.mem_cons, not_or] at hline
      rw [List.cons_append, getlines, if_neg (Ne.symm hline.1), ih hline.2]

/-- Lines written one after the other. -/
def joinLines (lines : List Bytes) : Bytes := lines.flatMap fun line => line ++ [delim]

theorem getlines_joinLines {lines : List Bytes} (h : ∀ line ∈ lines, delim ∉ line) :
    getlines delim (joinLines delim lines) = lines := by
  induction lines with
  | nil => rfl
  | cons line lines ih =>
      rw [joinLines, List.flatMap_cons, List.append_assoc, List.singleton_append,
        getlines_append delim line (h line List.mem_cons_self)]
      exact congrArg (line :: ·) (ih fun line' hline' => h line' (List.mem_cons_of_mem line hline'))

end ToyBox.Cxx
