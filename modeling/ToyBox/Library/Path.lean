import Mathlib.Data.List.Infix
import Mathlib.Data.List.TakeWhile
import ToyBox.Library.Bytes
import ToyBox.Library.Pieces

/-! Paths and what they lead to. A path of a file is resolved up to its last name: the directories before it are
looked up, and the name itself is what is created, renamed or removed. So one file has many paths. -/

namespace ToyBox

def slash : UInt8 := 47

/-- What stands before the last name of a path, and that name. -/
def dirName (path : Bytes) : Bytes := (path.reverse.dropWhile (· ≠ slash)).reverse
def lastName (path : Bytes) : Bytes := (path.reverse.takeWhile (· ≠ slash)).reverse

/-- The path can be that of a file. -/
def NamesFile (path : Bytes) : Prop := lastName path ∉ [[], ascii ".", ascii ".."]

instance (path : Bytes) : Decidable (NamesFile path) := inferInstanceAs (Decidable (_ ∉ _))

/-- What the paths of a process lead to, as long as its working directory and the directories on the way stay what
they are: paths that are resolved to the same are paths of one file. -/
structure PathResolution where
  resolve : Bytes → Bytes
  resolve_eq_nil_iff : ∀ path, resolve path = [] ↔ path = []
  /-- A file whose name goes on is in the same directory. -/
  resolve_append : ∀ path suffix, NamesFile path → slash ∉ suffix → resolve (path ++ suffix) = resolve path ++ suffix

/-! ### The last name -/

theorem dirName_append_lastName (path : Bytes) : dirName path ++ lastName path = path := by
  rw [dirName, lastName, ← List.reverse_append, List.takeWhile_append_dropWhile, List.reverse_reverse]

theorem slash_notMem_lastName (path : Bytes) : slash ∉ lastName path := by
  intro hmem
  have hne := List.mem_takeWhile_imp (List.mem_reverse.mp hmem)
  simp at hne

/-- A directory ends with a slash. -/
theorem dirName_eq_nil_or (path : Bytes) : dirName path = [] ∨ (dirName path).getLast? = some slash := by
  rw [dirName, List.getLast?_reverse, List.reverse_eq_nil_iff]
  cases hdrop : path.reverse.dropWhile (· ≠ slash) with
  | nil => exact .inl rfl
  | cons b rest =>
      have hhead := List.head?_dropWhile_not (fun b => decide (b ≠ slash)) path.reverse
      rw [hdrop] at hhead
      obtain rfl : b = slash := not_not.mp (of_decide_eq_false hhead)
      exact .inr rfl

theorem pieces_of_notMem {name : Bytes} (hne : name ≠ []) (hslash : slash ∉ name) : pieces slash name = [name] := by
  induction name with
  | nil => exact absurd rfl hne
  | cons b name ih =>
      rw [List.mem_cons, not_or] at hslash
      cases name with
      | nil => rw [pieces_cons_last (Ne.symm hslash.1) rfl, pieces_nil]
      | cons c name =>
          have hc : c ≠ slash := fun heq => hslash.2 (heq ▸ List.mem_cons_self)
          rw [pieces_cons_cons (Ne.symm hslash.1) hc, ih (List.cons_ne_nil c name) hslash.2]
          rfl

/-- The names of the path of a file are those of its directory and its own. -/
theorem pieces_append_of_namesFile {path suffix : Bytes} (h : NamesFile path) (hsuffix : slash ∉ suffix) :
    pieces slash (path ++ suffix) = pieces slash (dirName path) ++ [lastName path ++ suffix] := by
  have hlast : lastName path ≠ [] := fun heq => h (heq ▸ List.mem_cons_self)
  have hname : slash ∉ lastName path ++ suffix := by
    rw [List.mem_append, not_or]
    exact ⟨slash_notMem_lastName path, hsuffix⟩
  rw [← pieces_of_notMem (by simp [hlast]) hname]
  conv_lhs => rw [← dirName_append_lastName path, List.append_assoc]
  rcases dirName_eq_nil_or path with hdir | hdir
  · rw [hdir, pieces_nil]
    rfl
  · exact pieces_append (.inl hdir)

/-! ### Without symbolic links -/

namespace PathResolution

/-- From a directory to what a name leads to. -/
def enter (dir : List Bytes) (name : Bytes) : List Bytes :=
  if name = ascii "." then dir else if name = ascii ".." then dir.dropLast else dir ++ [name]

/-- The directories that a path leads through, and what it leads to. -/
def names (workingDir : List Bytes) (path : Bytes) : List Bytes :=
  (pieces slash path).foldl enter (if path.head? = some slash then [] else workingDir)

/-- The path from the root. -/
def absolute (names : List Bytes) : Bytes := if names = [] then [slash] else names.flatMap (slash :: ·)

theorem absolute_ne_nil (names : List Bytes) : absolute names ≠ [] := by
  unfold absolute
  split
  · exact List.cons_ne_nil _ _
  · rename_i hne
    obtain ⟨name, rest, rfl⟩ := List.exists_cons_of_ne_nil hne
    exact List.cons_ne_nil _ _

theorem absolute_append (dirs : List Bytes) (name : Bytes) :
    absolute (dirs ++ [name]) = dirs.flatMap (slash :: ·) ++ slash :: name := by
  rw [absolute, if_neg (by simp), List.flatMap_append, List.flatMap_singleton]

/-- The name of a file, also one that goes on, is none of a directory. -/
theorem enter_lastName {path : Bytes} (h : NamesFile path) (dir : List Bytes) (suffix : Bytes) :
    enter dir (lastName path ++ suffix) = dir ++ [lastName path ++ suffix] := by
  have hbegins : ∀ special ∈ [ascii ".", ascii ".."], lastName path ++ suffix ≠ special := by
    intro special hspecial heq
    have hle : lastName path <+: special := ⟨suffix, heq⟩
    have hmem : ∀ special ∈ [ascii ".", ascii ".."], ∀ name ∈ special.inits, name ∈ [[], ascii ".", ascii ".."] := by
      decide
    exact h (hmem special hspecial _ ((List.mem_inits _ _).mpr hle))
  rw [enter, if_neg (hbegins _ (by decide)), if_neg (hbegins _ (by decide))]

theorem names_append {path suffix : Bytes} (workingDir : List Bytes) (h : NamesFile path) (hsuffix : slash ∉ suffix) :
    ∃ dir, names workingDir (path ++ suffix) = dir ++ [lastName path ++ suffix] ∧
      names workingDir path = dir ++ [lastName path] := by
  have hne : path ≠ [] := by
    rintro rfl
    exact h (by decide)
  have hhead : (path ++ suffix).head? = path.head? := List.head?_append_of_ne_nil _ hne
  refine ⟨(pieces slash (dirName path)).foldl enter (if path.head? = some slash then [] else workingDir), ?_, ?_⟩
  · rw [names, pieces_append_of_namesFile h hsuffix, List.foldl_append, List.foldl_cons, List.foldl_nil,
      enter_lastName h, hhead]
  · have hown := pieces_append_of_namesFile h (List.not_mem_nil (a := slash))
    have henter := enter_lastName h
      ((pieces slash (dirName path)).foldl enter (if path.head? = some slash then [] else workingDir)) []
    simp only [List.append_nil] at hown henter
    rw [names, hown, List.foldl_append, List.foldl_cons, List.foldl_nil, henter]

/-- From a working directory, where no name is a symbolic link. -/
def lexical (workingDir : List Bytes) : PathResolution where
  resolve path := if path = [] then [] else absolute (names workingDir path)
  resolve_eq_nil_iff path := by
    split
    · exact iff_of_true rfl ‹_›
    · exact iff_of_false (absolute_ne_nil _) ‹_›
  resolve_append path suffix h hsuffix := by
    have hne : path ≠ [] := by
      rintro rfl
      exact h (by decide)
    obtain ⟨dir, hlonger, hown⟩ := names_append workingDir h hsuffix
    rw [if_neg (by simp [hne]), if_neg hne, hlonger, hown, absolute_append, absolute_append]
    simp

/-- Two paths of one file. -/
example : (lexical [ascii "srv"]).resolve (ascii "app.log") = (lexical [ascii "srv"]).resolve (ascii "./app.log") := by
  decide

end PathResolution

end ToyBox
