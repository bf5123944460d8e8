import ToyBox.Cxx.Strtof
import ToyBox.LogParser.Classify
import ToyBox.LogParser.Outcome
import ToyBox.LogParser.Written
import ToyBox.MovieAnalysis.Date

/-! The log generators `gen_test_log.py` and `gen_fake_log.py`, and what the parser makes of their files. A draw
holds what the random calls for one cell gave, within their bounds; `randint` takes a `float` that is a whole number
as its bound, as before Python 3.12. No two logs are named in the same millisecond, where one would be appended to the
other. -/

namespace ToyBox.LogParser

open Cxx

/-- `data_type` of the generators. -/
inductive GenType
  | int
  | float
  | string
  | phone
  | date
  | timestamp
  deriving DecidableEq, Repr

namespace GenType

def dataTypeList : List GenType := [.int, .float, .string, .phone, .date, .timestamp]

def name : GenType → Bytes
  | .int => ascii "INT"
  | .float => ascii "FLOAT"
  | .string => ascii "STRING"
  | .phone => ascii "PHONE"
  | .date => ascii "DATE"
  | .timestamp => ascii "TIMESTAMP"

/-- `str.lstrip(chars)`: it strips characters, not a prefix. -/
def lstrip (chars str : Bytes) : Bytes := str.dropWhile fun b => chars.contains b

/-- `str(typ).lstrip("data_type.")`. -/
def colName (typ : GenType) : Bytes := lstrip (ascii "data_type.") (ascii "data_type." ++ typ.name)

end GenType

def baseStr : Bytes := ascii "ABCDEFGHIGKLMNOPQRSTUVWXYZabcdefghigklmnopqrstuvwxyz0123456789"

def mobiles : List Bytes := [ascii "130", ascii "131", ascii "132", ascii "134"]

/-- What `str` gives for a `float`: digits on both sides of a point, or, near zero, a negative exponent. -/
inductive FloatText
  | fixed (l : DecimalLiteral)
  | scientific (l : ExponentLiteral)

def FloatText.text : FloatText → Bytes
  | fixed l => l.text
  | scientific l => l.text

/-- What the branch of `gen_random_data` for a type draws. The clock has ten digits until the year 2286. -/
inductive Draw : GenType → Type
  | int (n : Int) (hn : -1000000 ≤ n ∧ n ≤ 1000000) : Draw .int
  | float (x : FloatText) : Draw .float
  | string (chars : List (Fin baseStr.length)) (hlen : 3 ≤ chars.length ∧ chars.length ≤ 20) : Draw .string
  | phone (mobile : Fin mobiles.length) (number : List (Fin 10)) (hnumber : number.length = 8 ∧ number.Nodup) :
      Draw .phone
  | date (d : MovieAnalysis.Date) : Draw .date
  | timestamp (now ago : Nat) (hnow : now < 10 ^ 10) (hago : ago ≤ 60 * 60 * 24 * 365) : Draw .timestamp

/-- `str(gen_random_data(typ))`. -/
def genRandomData {typ : GenType} : Draw typ → Cell
  | .int n _ => toStringInt n
  | .float x => x.text
  | .string chars _ => chars.map baseStr.get
  | .phone mobile number _ => mobiles.get mobile ++ number.map fun d => UInt8.ofNat (48 + d.val)
  | .date d => d.text
  | .timestamp now ago _ _ => toStringInt (now - ago)

/-- The draws of one row. -/
abbrev GenRow := List (Sigma Draw)

/-- `data_list`. -/
def GenRow.cells (row : GenRow) : Row := row.map fun draw => genRandomData draw.2

/-- The lines of a file: the column names and the rows. -/
def writeTable (colNames : Row) (rows : List Row) : Bytes := writeRow colNames ++ rows.flatMap writeRow

/-- One call of `gen_log_file` in `gen_test_log.py`: a column of each type, and between `MAX_LINE_COUNT / 2` and
`MAX_LINE_COUNT` rows. -/
structure TestLog where
  rows : List GenRow
  types_eq : ∀ row ∈ rows, row.map Sigma.fst = GenType.dataTypeList
  length_mem : 50 ≤ rows.length ∧ rows.length ≤ 100

def TestLog.content (log : TestLog) : Bytes :=
  writeTable (GenType.dataTypeList.map GenType.colName) (log.rows.map GenRow.cells)

/-- One call of `gen_log_file` in `gen_fake_log.py`: the types of the columns are drawn too. -/
structure FakeLog (colCnt : Nat) where
  colTypes : List GenType
  length_colTypes : colTypes.length = colCnt
  rows : List GenRow
  types_eq : ∀ row ∈ rows, row.map Sigma.fst = colTypes
  length_mem : 500 ≤ rows.length ∧ rows.length ≤ 5000

/-- `"col_" + str(i)`. -/
def fakeColName (i : Nat) : Bytes := ascii "col_" ++ decimal i

def FakeLog.content {colCnt : Nat} (log : FakeLog colCnt) : Bytes :=
  writeTable ((List.range colCnt).map fakeColName) (log.rows.map GenRow.cells)

/-- The type the parser gives a generated cell. A timestamp before `kMinTimestamp` is an integer, and a string of
letters and digits is what it looks like. -/
def Draw.dataType {typ : GenType} : Draw typ → DataType
  | .int .. => .kInt
  | .float _ => .kFloat
  | .string chars _ => parseColumnDataType (chars.map baseStr.get)
  | .phone .. => .kTelephone
  | .date _ => .kDate
  | .timestamp now ago _ _ =>
      if kMinTimestamp ≤ (now : Int) - ago ∧ (now : Int) - ago ≤ kMaxTimestamp then .kTimestamp else .kInt

def GenRow.dataTypes (row : GenRow) : List DataType := row.map fun draw => draw.2.dataType

example : GenType.dataTypeList.map GenType.colName = GenType.dataTypeList.map GenType.name := by decide

/-! ### The types of the cells -/

/-- The text of an integer. -/
def intLiteral (n : Int) : IntegerLiteral where
  space := []
  sign := if n < 0 then [45] else []
  digits := decimal n.natAbs
  isSpace_of_mem := fun _ hb => absurd hb List.not_mem_nil
  sign_eq := by
    split
    · exact Or.inr (Or.inr rfl)
    · exact Or.inl rfl
  isDigit_of_mem := forall_isDigit_decimal _
  digits_ne_nil := decimal_ne_nil _

theorem text_intLiteral (n : Int) : (intLiteral n).text = toStringInt n := by
  rw [IntegerLiteral.text, intLiteral, toStringInt]
  split <;> rfl

theorem value_intLiteral (n : Int) : (intLiteral n).value = n := by
  rw [IntegerLiteral.value, intLiteral]
  simp only [digitsValue_decimal]
  by_cases hn : n < 0
  · rw [if_pos hn, if_pos rfl]
    omega
  · rw [if_neg hn, if_neg (by simp)]
    omega

/-- A telephone number has a value of eleven digits. -/
theorem not_isTelephone {l : IntegerLiteral} (h : l.value < 13000000000) : ¬IsTelephone l.text := by
  intro htel
  obtain ⟨-, hhead⟩ := (telephone_test_iff l).mpr htel
  rw [tdiv_mem_telephoneHeaderSet_iff, kLongMin, kLongMax] at hhead
  omega

/-- An integer below those of telephone numbers. -/
theorem parseColumnDataType_toStringInt {n : Int} (hn : n < 13000000000) :
    parseColumnDataType (toStringInt n) =
      if kMinTimestamp ≤ n ∧ n ≤ kMaxTimestamp then .kTimestamp else .kInt := by
  have htel : ¬IsTelephone (intLiteral n).text := not_isTelephone (by rwa [value_intLiteral])
  rw [← text_intLiteral, parseColumnDataType_text, literalType, value_intLiteral, if_neg htel]

/-- The digits of a telephone number. -/
theorem parseColumnDataType_phone {text : Cell} (h : IsTelephone text) : parseColumnDataType text = .kTelephone := by
  obtain ⟨hlen, hdigits, -⟩ := id h
  let l : IntegerLiteral :=
    { space := [], sign := [], digits := text, isSpace_of_mem := by simp, sign_eq := by simp
      isDigit_of_mem := hdigits, digits_ne_nil := fun hnil => by rw [hnil] at hlen; cases hlen }
  have hvalue : l.value = digitsValue 10 text := rfl
  have htext : l.text = text := rfl
  have hrange := (isTelephone_iff_digitsValue hdigits hlen).mp h
  have htimestamp : ¬(kMinTimestamp ≤ l.value ∧ l.value ≤ kMaxTimestamp) := by
    rw [hvalue, kMinTimestamp, kMaxTimestamp]
    omega
  rw [← htext, parseColumnDataType_text, literalType, if_neg htimestamp, htext, if_pos h]

/-- What no integer is and `strtof` reads. -/
theorem parseColumnDataType_float {text : Cell} (hint : (strtol text).2 ≠ []) (hfloat : (strtof text).2 = []) :
    parseColumnDataType text = .kFloat := by
  rw [parseColumnDataType]
  simp only [if_neg hint, if_pos hfloat]

theorem parseColumnDataType_floatText (x : FloatText) : parseColumnDataType x.text = .kFloat := by
  cases x with
  | fixed l =>
      obtain ⟨-, -, hend⟩ := l.strtof_text
      refine parseColumnDataType_float ?_ hend
      rw [Ne, strtol_snd_eq_nil_iff]
      have hpoint : (46 : UInt8) ∈ l.text := by simp [DecimalLiteral.text]
      rintro (hnil | ⟨literal, hliteral⟩)
      · rw [FloatText.text] at hnil
        rw [hnil] at hpoint
        cases hpoint
      · rw [FloatText.text] at hliteral
        rw [← hliteral] at hpoint
        exact literal.point_not_mem_text hpoint
  | scientific l => exact parseColumnDataType_float l.strtol_text_ne_nil l.strtof_text

/-- The year of a date. -/
def yearLiteral (d : MovieAnalysis.Date) : IntegerLiteral where
  space := []
  sign := []
  digits := MovieAnalysis.padded 4 d.year
  isSpace_of_mem := fun _ hb => absurd hb List.not_mem_nil
  sign_eq := Or.inl rfl
  isDigit_of_mem := MovieAnalysis.forall_isDigit_padded 4 d.year
  digits_ne_nil := List.ne_nil_of_length_pos (by rw [MovieAnalysis.length_padded]; exact Nat.succ_pos 3)

/-- The month and the day of a date, with the minus before each. -/
def monthDay (d : MovieAnalysis.Date) : Bytes :=
  45 :: MovieAnalysis.padded 2 d.month ++ (45 :: MovieAnalysis.padded 2 d.day)

theorem text_date (d : MovieAnalysis.Date) : d.text = (yearLiteral d).text ++ monthDay d := rfl

theorem monthDay_cons (d : MovieAnalysis.Date) : ∃ rest, monthDay d = 45 :: rest := ⟨_, rfl⟩

theorem noLetters_date (d : MovieAnalysis.Date) : NoLetters d.text := by
  have hpadded : ∀ width n, NoLetters (MovieAnalysis.padded width n) := fun width n =>
    noLetters_of_isDigit (MovieAnalysis.forall_isDigit_padded width n)
  have hminus : NoLetters [45] := by
    rintro b hb
    rw [List.mem_singleton.mp hb]
    decide
  intro b hb
  rw [MovieAnalysis.Date.text, List.mem_append, List.mem_append, List.mem_cons, List.mem_cons] at hb
  rcases hb with hb | (rfl | hb) | (rfl | hb)
  · exact hpadded 4 d.year b hb
  · exact hminus 45 List.mem_cons_self
  · exact hpadded 2 d.month b hb
  · exact hminus 45 List.mem_cons_self
  · exact hpadded 2 d.day b hb

/-- The minus behind the year ends what `strtol` and `strtof` read. -/
theorem takeWhile_date (d : MovieAnalysis.Date) :
    ((yearLiteral d).digits ++ monthDay d).takeWhile isDigit = (yearLiteral d).digits ∧
      ((yearLiteral d).digits ++ monthDay d).dropWhile isDigit = monthDay d := by
  have hminus : isDigit 45 = false := by decide
  obtain ⟨rest, hrest⟩ := monthDay_cons d
  rw [List.takeWhile_append_of_pos (yearLiteral d).isDigit_of_mem,
    List.dropWhile_append_of_pos (yearLiteral d).isDigit_of_mem, hrest,
    List.takeWhile_cons_of_neg (by simp [hminus]), List.dropWhile_cons_of_neg (by simp [hminus]), List.append_nil]
  exact ⟨rfl, rfl⟩

theorem strtol_date (d : MovieAnalysis.Date) : (strtol d.text).2 = monthDay d := by
  rw [text_date, strtol, (yearLiteral d).sign_text_append]
  dsimp only
  rw [(takeWhile_date d).1, (takeWhile_date d).2, if_neg (yearLiteral d).digits_ne_nil]

theorem strtof_date (d : MovieAnalysis.Date) : (strtof d.text).2 = monthDay d := by
  have hfraction : fraction isDigit (monthDay d) = ([], monthDay d) := rfl
  have hbody : NoLetters ((yearLiteral d).digits ++ monthDay d) := noLetters_date d
  rw [strtof_of_noLetters (noLetters_date d), text_date, (yearLiteral d).sign_text_append]
  dsimp only
  rw [strtofDecimal_of_noLetters hbody, (takeWhile_date d).1, (takeWhile_date d).2, hfraction,
    if_neg fun h => (yearLiteral d).digits_ne_nil h.1]

theorem parseColumnDataType_date (d : MovieAnalysis.Date) : parseColumnDataType d.text = .kDate := by
  obtain ⟨rest, hrest⟩ := monthDay_cons d
  have hyear := MovieAnalysis.length_padded 4 d.year
  have hmonth := MovieAnalysis.length_padded 2 d.month
  have hday := MovieAnalysis.length_padded 2 d.day
  have hlength : d.text.length = 10 := by
    rw [MovieAnalysis.Date.text]
    simp only [List.length_append, List.length_cons, hyear, hmonth, hday]
  have hfirst : d.text[4]? = some 45 := by
    rw [MovieAnalysis.Date.text, List.getElem?_append_right hyear.le, hyear]
    rfl
  have hsecond : d.text[7]? = some 45 := by
    rw [MovieAnalysis.Date.text, List.getElem?_append_right (by omega), hyear, List.cons_append,
      List.getElem?_cons_succ, List.getElem?_append_right (by omega), hmonth]
    rfl
  rw [parseColumnDataType]
  simp only [strtol_date, strtof_date, hrest, reduceCtorEq, if_false, hlength, hfirst, hsecond, and_self, if_true]

/-- What the branch for a telephone number draws. -/
theorem isTelephone_phone (mobile : Fin mobiles.length) {number : List (Fin 10)} (hnumber : number.length = 8) :
    IsTelephone (mobiles.get mobile ++ number.map fun d => UInt8.ofNat (48 + d.val)) := by
  have hmobiles : ∀ text ∈ mobiles, text.length = 3 ∧ ∀ b ∈ text, isDigit b := by decide +kernel
  have hmem : mobiles.get mobile ∈ mobiles := List.get_mem mobiles mobile
  obtain ⟨hlength, hdigits⟩ := hmobiles _ hmem
  refine ⟨?_, ?_, ?_⟩
  · rw [List.length_append, hlength, List.length_map, hnumber]
  · intro b hb
    rcases List.mem_append.mp hb with hb | hb
    · exact hdigits b hb
    · obtain ⟨d, -, rfl⟩ := List.mem_map.mp hb
      have hd : d.val % 10 = d.val := Nat.mod_eq_of_lt d.isLt
      rw [← hd]
      exact MovieAnalysis.isDigit_digit d.val
  · rwa [List.take_append_of_le_length (by omega), List.take_of_length_le (by omega)]

/-- The parser gives a generated cell its type. -/
theorem parseColumnDataType_genRandomData {typ : GenType} (draw : Draw typ) :
    parseColumnDataType (genRandomData draw) = draw.dataType := by
  cases draw with
  | int n hn =>
      rw [genRandomData, parseColumnDataType_toStringInt (by omega), if_neg (by rw [kMinTimestamp]; omega)]
      rfl
  | float x => exact parseColumnDataType_floatText x
  | string chars _ => rfl
  | phone mobile number hnumber => exact parseColumnDataType_phone (isTelephone_phone mobile hnumber.1)
  | date d => exact parseColumnDataType_date d
  | timestamp now ago hnow hago =>
      have hbound : (now : Int) - ago < 13000000000 := by omega
      rw [genRandomData, parseColumnDataType_toStringInt hbound]
      rfl

theorem rowTypes_cells (row : GenRow) : rowTypes row.cells = row.dataTypes := by
  rw [rowTypes, GenRow.cells, List.map_map, GenRow.dataTypes]
  exact List.map_congr_left fun draw _ => parseColumnDataType_genRandomData draw.2

end ToyBox.LogParser
