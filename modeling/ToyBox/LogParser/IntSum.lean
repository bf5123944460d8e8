import ToyBox.LogParser.Sorted

/-! The sum of an integer column. The accumulator has the type of the literal `0`, so every partial sum is
narrowed to 32 bits; what comes out is the exact sum modulo 2 ^ 32. -/

namespace ToyBox.LogParser

open Cxx Checked

/-- The exact sum of a column. -/
def exactSum (cells : List Cell) : Int := (cells.map convertValueInt).sum

/-- The exact sum and all partial sums fit in 64 bits. -/
def PartialSumsFit (cells : List Cell) : Prop :=
  ∀ cnt ≤ cells.length, -2 ^ 63 ≤ exactSum (cells.take cnt) ∧ exactSum (cells.take cnt) < 2 ^ 63

/-- `Calculate` prints the exact sum. -/
def SumExact (p : LogParser) (colName : Bytes) (cells : List Cell) : Prop :=
  p.calculate colName (ascii "sum") = .ok (some (toStringInt (exactSum cells)))

theorem toInt32_add (a b : Int) : toInt32 (toInt32 a + b) = toInt32 (a + b) :=
  Int.bmod_add_bmod

/-- Narrowing each partial sum narrows the sum. -/
theorem foldl_toInt32 (vals : List Int) (start : Int) :
    vals.foldl (fun sum val => toInt32 (sum + val)) (toInt32 start) = toInt32 (start + vals.sum) := by
  induction vals generalizing start with
  | nil => rw [List.foldl_nil, List.sum_nil, Int.add_zero]
  | cons val vals ih =>
      rw [List.foldl_cons, toInt32_add, ih, List.sum_cons, Int.add_assoc]

theorem accumulateInt_eq (vals : List Int) : accumulateInt vals = toInt32 vals.sum := by
  have h := foldl_toInt32 vals 0
  rwa [Int.zero_add] at h

theorem toInt32_eq_self_iff (n : Int) : toInt32 n = n ↔ -2 ^ 31 ≤ n ∧ n < 2 ^ 31 := by
  rw [toInt32, Int.bmod_eq_iff (by decide)]
  omega

theorem toStringInt_injective : Function.Injective toStringInt := by
  intro m n h
  have hminus : ∀ k : Nat, ∀ rest : Bytes, decimal k ≠ 45 :: rest := by
    intro k rest hk
    have := isDigit_of_mem_decimal (n := k) (b := 45) (by rw [hk]; exact List.mem_cons_self)
    revert this
    decide
  rw [toStringInt, toStringInt] at h
  split at h <;> split at h
  · have := decimal_injective (List.cons.inj h).2
    omega
  · exact absurd h.symm (hminus _ _)
  · exact absurd h (hminus _ _)
  · have := decimal_injective h
    omega

section Column

variable {std : StdSort} {files : Files} {p₀ p : LogParser} {colName : Bytes} {colIdx : Nat} {cells : List Cell}

/-- `Calculate` prints the narrowed sum. -/
theorem calculate_sum (hparse : p₀.parse std files = .ok (true, p))
    (hname : p.colName2colIdx.lookup colName = some colIdx) (hcol : colIdx < p.colCnt)
    (htype : p.colIdx2colDataType.lookup colIdx = some .kInt) (hcells : columnCells p colIdx = .ok cells) :
    p.calculate colName (ascii "sum") = .ok (some (toStringInt (toInt32 (exactSum cells)))) := by
  obtain ⟨metrics2value, -, -, -, hmetrics, -, -, -, -, -, -, hsum⟩ := (parse_stored hparse).metrics colIdx hcol
  have hnumeric : numericCells p colIdx = .ok cells := by
    rw [numericCells, htype]
    exact hcells
  have hsum := hsum cells _ hnumeric (by rw [htype]; rfl)
  rw [LogParser.calculate, hname]
  dsimp only
  rw [show kMetricsMap (ascii "sum") = some .kSum by decide]
  dsimp only
  rw [subscript_getElem? _ hmetrics, ok_bind, hsum, accumulateInt_eq]
  rfl

/-- The sum that `Calculate` prints is exact if and only if it fits in 32 bits. -/
theorem sumExact_iff (hparse : p₀.parse std files = .ok (true, p))
    (hname : p.colName2colIdx.lookup colName = some colIdx) (hcol : colIdx < p.colCnt)
    (htype : p.colIdx2colDataType.lookup colIdx = some .kInt) (hcells : columnCells p colIdx = .ok cells) :
    SumExact p colName cells ↔ -2 ^ 31 ≤ exactSum cells ∧ exactSum cells < 2 ^ 31 := by
  rw [SumExact, calculate_sum hparse hname hcol htype hcells, ← toInt32_eq_self_iff]
  constructor
  · intro h
    exact toStringInt_injective (Option.some.inj (Except.ok.inj h))
  · intro h
    rw [h]

end Column

/-- Two numbers whose sum needs 33 bits with its sign. -/
def twoLargeNumbers : Files := fun _ => some (ascii "n\n1500000000\n1500000000\n")

theorem parse_twoLargeNumbers :
    ∃ p, (ofFile (ascii "log")).parse .insertion twoLargeNumbers = .ok (true, p) ∧
      p.colName2colIdx.lookup (ascii "n") = some 0 ∧ 0 < p.colCnt ∧
      p.colIdx2colDataType.lookup 0 = some .kInt ∧
      columnCells p 0 = .ok [ascii "1500000000", ascii "1500000000"] :=
  ⟨_, rfl, by decide, by decide, by decide, rfl⟩

/-- Their sum is printed with a minus sign. -/
theorem not_sumExact_twoLargeNumbers :
    ∃ p, (ofFile (ascii "log")).parse .insertion twoLargeNumbers = .ok (true, p) ∧
      columnCells p 0 = .ok [ascii "1500000000", ascii "1500000000"] ∧
      PartialSumsFit [ascii "1500000000", ascii "1500000000"] ∧
      p.calculate (ascii "n") (ascii "sum") = .ok (some (ascii "-1294967296")) ∧
      ¬SumExact p (ascii "n") [ascii "1500000000", ascii "1500000000"] := by
  obtain ⟨p, hparse, hname, hcol, htype, hcells⟩ := parse_twoLargeNumbers
  have hcalculate := calculate_sum hparse hname hcol htype hcells
  refine ⟨p, hparse, hcells, ?_, hcalculate, fun hexact => ?_⟩
  · unfold PartialSumsFit
    decide
  · rw [SumExact, hcalculate] at hexact
    revert hexact
    decide

theorem sumExact_iff_twoLargeNumbers :
    ∃ p, (ofFile (ascii "log")).parse .insertion twoLargeNumbers = .ok (true, p) ∧
      (SumExact p (ascii "n") [ascii "1500000000", ascii "1500000000"] ↔
        -2 ^ 31 ≤ exactSum [ascii "1500000000", ascii "1500000000"] ∧
          exactSum [ascii "1500000000", ascii "1500000000"] < 2 ^ 31) := by
  obtain ⟨p, hparse, hname, hcol, htype, hcells⟩ := parse_twoLargeNumbers
  exact ⟨p, hparse, sumExact_iff hparse hname hcol htype hcells⟩

end ToyBox.LogParser
