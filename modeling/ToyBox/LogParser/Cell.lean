import ToyBox.Cxx.Number

/-! What the log parser makes of one line and of one cell: `ParseLineContent`, `ParseColumnDataType`,
`ConvertValue` and `FloatStr`. -/

namespace ToyBox.LogParser

open Cxx

abbrev Cell := Bytes
abbrev Row := List Cell

inductive DataType where
  | kInt
  | kFloat
  | kString
  | kTelephone
  | kDate
  | kTimestamp
  deriving DecidableEq, Repr

inductive Metrics where
  | kSum
  | kMax
  | kMin
  | kMean
  | kMedian
  deriving DecidableEq, Repr

def kMinTimestamp : Int := 1673503905
def kMaxTimestamp : Int := 4102415999
def kTelephoneHeaderSet : List Int := [130, 131, 132, 134]

def kMetricsMap (metricName : Bytes) : Option Metrics :=
  if metricName = ascii "sum" then some .kSum
  else if metricName = ascii "max" then some .kMax
  else if metricName = ascii "min" then some .kMin
  else if metricName = ascii "mean" then some .kMean
  else if metricName = ascii "median" then some .kMedian
  else none

/-- The cells `ParseLineContent` appends to its result. -/
def parseLineContent (content : Bytes) : Row := getlines tab content

/-- `ParseColumnDataType`. The telephone head `i / 1e8` is a `double` quotient truncated to `int32_t`;
for the at most eleven digits of the branch it is the truncated integer quotient. -/
def parseColumnDataType (colVal : Cell) : DataType :=
  let (i, p) := strtol colVal
  if p = [] then
    if kMinTimestamp ≤ i ∧ i ≤ kMaxTimestamp then .kTimestamp
    else if colVal.length = 11 ∧ i.tdiv (10 ^ 8) ∈ kTelephoneHeaderSet then .kTelephone
    else .kInt
  else if (strtof colVal).2 = [] then .kFloat
  else if colVal.length = 10 ∧ colVal[4]? = some 45 ∧ colVal[7]? = some 45 then .kDate
  else .kString

/-- The types of the cells of a row. -/
def rowTypes (row : Row) : List DataType := row.map parseColumnDataType

/-- `ConvertValue<int64_t>`. -/
def convertValueInt (val : Cell) : Int := atoll val

/-- `ConvertValue<float>`. -/
def convertValueFloat (val : Cell) : Float32 := (strtof val).1

/-- A float cell with the parts `FloatStr` splits it into. -/
structure FloatStr where
  raw : Cell
  isValid : Bool
  floatVal : Float32
  integer : Int
  fraction : Int

/-- `FloatStr::FloatStr`. The lambda `IntParser` leaves its output alone when it fails, so a half that
does not parse keeps the member's initial 0. -/
def FloatStr.ofRaw (rawStr : Cell) : FloatStr :=
  let intParser (str : Bytes) : Option Int :=
    let (intVal, p) := strtol str
    if p = [] then some intVal else none
  let (floatVal, p) := strtof rawStr
  if p ≠ [] then { raw := rawStr, isValid := false, floatVal := 0, integer := 0, fraction := 0 }
  else
    let invalid : FloatStr := { raw := rawStr, isValid := false, floatVal, integer := 0, fraction := 0 }
    match getlinesToEof 46 rawStr with
    | [whole] =>
        match intParser whole with
        | some integer => { invalid with isValid := true, integer }
        | none => invalid
    | [whole, part] =>
        match intParser whole with
        | some integer =>
            match intParser part with
            | some fraction => { invalid with isValid := true, integer, fraction }
            | none => { invalid with integer }
        | none => invalid
    | _ => invalid

/-- `operator<` on `FloatStr`. -/
def FloatStr.lt (a b : FloatStr) : Bool := a.isValid && b.isValid && a.floatVal < b.floatVal

theorem parseLineContent_ne_nil {line : Bytes} (hline : line ≠ []) : parseLineContent line ≠ [] :=
  getlines_ne_nil tab hline

@[simp] theorem length_rowTypes (row : Row) : (rowTypes row).length = row.length :=
  List.length_map _

theorem rowTypes_getElem? (row : Row) (col : Nat) :
    (rowTypes row)[col]? = row[col]?.map parseColumnDataType :=
  List.getElem?_map ..

example : rowTypes (parseLineContent (ascii "7\t1.5\tx\t2023-01-01\t13012345678\t1673503905")) =
    [.kInt, .kFloat, .kString, .kDate, .kTelephone, .kTimestamp] := by decide

end ToyBox.LogParser
