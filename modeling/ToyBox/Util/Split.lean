import Mathlib.Data.List.Count
import ToyBox.Cxx.StringStream
import ToyBox.LogParser.Cell

/-! `util::Split`: the loop on the string stream is the inverse of joining with the delimiter. -/

namespace ToyBox.Util

open Cxx LogParser

/-- `util::Split(content, delim, results)` with at most `fuel` tests of the loop condition. `none` for
`results` is the null pointer; the flag comes with what the pointer points to in the end. -/
def split (fuel : Nat) (content : Bytes) (delim : UInt8) :
    Option (List Bytes) → Option (Bool × Option (List Bytes))
  | none => some (false, none)
  | some _ =>
      -- `results->clear()`
      (StringStream.untilEof delim fuel { rest := content } [] []).map fun results => (true, some results)

/-- The call returns true and leaves `pieces` in the list, whatever was there: any number of tests that
reaches two more than the content has bytes will do. -/
def SplitsInto (content : Bytes) (delim : UInt8) (pieces : List Bytes) : Prop :=
  ∀ fuel results, content.length + 2 ≤ fuel →
    split fuel content delim (some results) = some (true, some pieces)

theorem splitsInto_getlinesToEof (delim : UInt8) (content : Bytes) :
    SplitsInto content delim (getlinesToEof delim content) := by
  intro fuel results hfuel
  rw [split, StringStream.untilEof_eq fuel content [] [] hfuel]
  rfl

theorem length_getlinesToEof (delim : UInt8) (content : Bytes) :
    (getlinesToEof delim content).length = content.count delim + 1 := by
  induction content with
  | nil => rfl
  | cons b content ih =>
      rw [getlinesToEof, List.count_cons]
      by_cases hb : b = delim
      · simp [hb, ih]
      · simp [hb, ih]

/-- A cell with two dots or more is no valid `FloatStr`. -/
theorem count_le_one_of_isValid {rawStr : Cell} (h : (FloatStr.ofRaw rawStr).isValid = true) :
    rawStr.count 46 ≤ 1 := by
  have hlength := length_getlinesToEof 46 rawStr
  simp only [FloatStr.ofRaw] at h
  split at h
  · exact absurd h Bool.false_ne_true
  · split at h
    · rename_i whole hpieces
      rw [hpieces, List.length_singleton] at hlength
      omega
    · rename_i whole part hpieces
      rw [hpieces] at hlength
      simp only [List.length_cons, List.length_nil] at hlength
      omega
    · exact absurd h Bool.false_ne_true

/-- Splitting and joining are inverse to each other, and a cell has one piece more than it has dots. -/
theorem split_inverse_of_join (delim : UInt8) :
    (∀ content : Bytes, ∃ pieces, SplitsInto content delim pieces ∧ pieces ≠ [] ∧
      (∀ piece ∈ pieces, delim ∉ piece) ∧ [delim].intercalate pieces = content) ∧
    (∀ pieces : List Bytes, pieces ≠ [] → (∀ piece ∈ pieces, delim ∉ piece) →
      SplitsInto ([delim].intercalate pieces) delim pieces) ∧
    ∀ rawStr : Cell, SplitsInto rawStr 46 (getlinesToEof 46 rawStr) ∧
      (getlinesToEof 46 rawStr).length = rawStr.count 46 + 1 ∧
      ((FloatStr.ofRaw rawStr).isValid = true → rawStr.count 46 ≤ 1) := by
  refine ⟨fun content => ?_, fun pieces hne hdelim => ?_, fun rawStr => ?_⟩
  · refine ⟨getlinesToEof delim content, splitsInto_getlinesToEof delim content, ?_, ?_, ?_⟩
    · rw [getlinesToEof_eq_splitOn]
      exact List.splitOn_ne_nil delim content
    · intro piece hpiece
      exact not_mem_of_mem_getlinesToEof delim hpiece
    · rw [getlinesToEof_eq_splitOn]
      exact List.intercalate_splitOn delim
  · have hsplit := splitsInto_getlinesToEof delim ([delim].intercalate pieces)
    rwa [getlinesToEof_eq_splitOn, List.splitOn_intercalate delim hdelim hne] at hsplit
  · exact ⟨splitsInto_getlinesToEof 46 rawStr, length_getlinesToEof 46 rawStr, count_le_one_of_isValid⟩

end ToyBox.Util
