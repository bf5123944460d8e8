import ToyBox.Cxx.Stream

/-! A `std::istringstream` with its state bits, and the two `std::getline` loops of the sources run on it one
call at a time. Each of them reads what `getlines` and `getlinesToEof` list. -/

namespace ToyBox.Cxx

/-- A `std::istringstream`: what is left to extract, `eofbit` and `failbit`. -/
structure StringStream where
  rest : Bytes
  eof : Bool := false
  fail : Bool := false
  deriving DecidableEq, Repr

namespace StringStream

/-- `std::getline(iss, value, delim)`. The sentry of a stream that is not good sets `failbit` and leaves
the value alone. On a good stream the value becomes what stands before the delimiter, which is extracted
with it, or all that is left; the end of the stream sets `eofbit`, and `failbit` if there was nothing. -/
def getline (delim : UInt8) (iss : StringStream) (value : Bytes) : StringStream × Bytes :=
  if iss.eof || iss.fail then ({ iss with fail := true }, value)
  else
    match iss.rest.dropWhile (· != delim) with
    | _ :: rest => ({ iss with rest }, iss.rest.takeWhile (· != delim))
    | [] => ({ rest := [], eof := true, fail := iss.rest.isEmpty }, iss.rest)

/-- `while (!iss.eof()) { std::getline(iss, value, delim); results->emplace_back(value); }`, in at most
`fuel` tests of the condition. -/
def untilEof (delim : UInt8) : Nat → StringStream → Bytes → List Bytes → Option (List Bytes)
  | 0, _, _, _ => none
  | fuel + 1, iss, value, results =>
      if iss.eof then some results
      else
        let (iss, value) := iss.getline delim value
        untilEof delim fuel iss value (results ++ [value])

/-- `while (std::getline(ss, value, delim)) { results->emplace_back(value); }`, in at most `fuel` tests of
the condition. -/
def whileGetline (delim : UInt8) : Nat → StringStream → Bytes → List Bytes → Option (List Bytes)
  | 0, _, _, _ => none
  | fuel + 1, ss, value, results =>
      let (ss, value) := ss.getline delim value
      if ss.fail then some results
      else whileGetline delim fuel ss value (results ++ [value])

variable {delim : UInt8}

/-- A good stream with a delimiter ahead stays good. -/
theorem getline_of_some {stream rest : Bytes} (h : (Cxx.getline delim stream).2 = some rest) (value : Bytes) :
    getline delim { rest := stream } value = ({ rest }, (Cxx.getline delim stream).1) := by
  rw [Cxx.getline] at h ⊢
  cases hdrop : stream.dropWhile (· != delim) with
  | nil => simp [hdrop] at h
  | cons b tail =>
      obtain rfl : tail = rest := by simpa [hdrop] using h
      simp [getline, hdrop]

/-- Without one, the call takes all there is and meets the end. -/
theorem getline_of_none {stream : Bytes} (h : (Cxx.getline delim stream).2 = none) (value : Bytes) :
    getline delim { rest := stream } value =
      ({ rest := [], eof := true, fail := stream.isEmpty }, (Cxx.getline delim stream).1) := by
  rw [Cxx.getline] at h ⊢
  cases hdrop : stream.dropWhile (· != delim) with
  | nil =>
      have htake : stream.takeWhile (· != delim) = stream := by
        have hsplit := List.takeWhile_append_dropWhile (p := (· != delim)) (l := stream)
        rwa [hdrop, List.append_nil] at hsplit
      simp [getline, hdrop, htake]
  | cons b tail => simp [hdrop] at h

/-- A call that finds a delimiter makes the stream shorter. -/
theorem length_lt_of_getline {stream rest : Bytes} (h : (Cxx.getline delim stream).2 = some rest) :
    rest.length < stream.length := by
  rw [Cxx.getline] at h
  have hle := (List.dropWhile_suffix (l := stream) (· != delim)).length_le
  cases hdrop : stream.dropWhile (· != delim) with
  | nil => simp [hdrop] at h
  | cons b tail =>
      obtain rfl : tail = rest := by simpa [hdrop] using h
      rw [hdrop, List.length_cons] at hle
      exact hle

/-- The first loop ends, and appends the values of `getlinesToEof`. -/
theorem untilEof_eq (fuel : Nat) (stream value : Bytes) (results : List Bytes) (hfuel : stream.length + 2 ≤ fuel) :
    untilEof delim fuel { rest := stream } value results = some (results ++ getlinesToEof delim stream) := by
  induction fuel generalizing stream value results with
  | zero => omega
  | succ fuel ih =>
      rw [getlinesToEof_eq_loop, untilEof, if_neg Bool.false_ne_true]
      cases hget : (Cxx.getline delim stream).2 with
      | none =>
          obtain ⟨fuel, rfl⟩ : ∃ k, fuel = k + 1 := ⟨fuel - 1, by omega⟩
          rw [getline_of_none hget]
          simp [untilEof]
      | some rest =>
          have hlt := length_lt_of_getline hget
          rw [getline_of_some hget]
          simp [ih rest _ _ (by omega)]

/-- So does the second one, with the values of `getlines`. -/
theorem whileGetline_eq (fuel : Nat) (stream value : Bytes) (results : List Bytes)
    (hfuel : stream.length + 1 ≤ fuel) :
    whileGetline delim fuel { rest := stream } value results = some (results ++ getlines delim stream) := by
  induction fuel generalizing stream value results with
  | zero => omega
  | succ fuel ih =>
      rw [whileGetline]
      by_cases hstream : stream = []
      · simp [hstream, getline, getlines]
      · have hlength := List.length_pos_iff.mpr hstream
        rw [getlines_eq_loop delim stream hstream]
        cases hget : (Cxx.getline delim stream).2 with
        | none =>
            -- the last value has no delimiter behind it: the next call finds `eofbit` and fails
            obtain ⟨fuel, rfl⟩ : ∃ k, fuel = k + 1 := ⟨fuel - 1, by omega⟩
            rw [getline_of_none hget]
            simp [hstream, whileGetline, getline]
        | some rest =>
            have hlt := length_lt_of_getline hget
            rw [getline_of_some hget]
            simp [ih rest _ _ (by omega)]

end StringStream

end ToyBox.Cxx
