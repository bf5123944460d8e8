import Mathlib.Algebra.Order.Ring.Int
import ToyBox.Cxx.Stream

/-! The C library's conversions between byte strings and numbers: `strtol`, `atoll`, `strtof` and
`std::to_string`. `float` and `double` are Lean's `Float32` and `Float`, whose logical model is IEEE
754 with one NaN (so the sign that `to_string` prints before a NaN is not modelled). The end pointer
of a conversion is the part of the string it leaves unread. -/

namespace ToyBox.Cxx

/-- `isspace` in the C locale. -/
def isSpace (b : UInt8) : Bool := b == 32 || (9 ≤ b && b ≤ 13)

def isDigit (b : UInt8) : Bool := 48 ≤ b && b ≤ 57

def isHexDigit (b : UInt8) : Bool := isDigit b || (65 ≤ b && b ≤ 70) || (97 ≤ b && b ≤ 102)

def digitValue (b : UInt8) : Nat :=
  if isDigit b then b.toNat - 48 else if b ≤ 70 then b.toNat - 55 else b.toNat - 87

/-- The number a string of digits stands for. -/
def digitsValue (base : Nat) (digits : Bytes) : Nat :=
  digits.foldl (fun value d => base * value + digitValue d) 0

/-- An optional sign: whether it is a minus, and what follows. -/
def sign : Bytes → Bool × Bytes
  | 45 :: rest => (true, rest)
  | 43 :: rest => (false, rest)
  | rest => (false, rest)

def kLongMax : Int := 2 ^ 63 - 1
def kLongMin : Int := -2 ^ 63

/-- `strtol(str, &end, 10)` where `long` has 64 bits: the value, clamped to the range of `long`, and
the part from `end` on. Without a digit nothing is read. A NUL inside the string stops the reading
like any other byte that is no digit. -/
def strtol (str : Bytes) : Int × Bytes :=
  let (negative, rest) := sign (str.dropWhile isSpace)
  let digits := rest.takeWhile isDigit
  if digits = [] then (0, str)
  else
    let value : Int := digitsValue 10 digits
    (max kLongMin (min kLongMax (if negative then -value else value)), rest.dropWhile isDigit)

/-- `atoll`. -/
def atoll (str : Bytes) : Int := (strtol str).1

def toLower (b : UInt8) : UInt8 := if 65 ≤ b && b ≤ 90 then b + 32 else b

/-- What follows a keyword, in whatever case it is written. -/
def stripKeyword : Bytes → Bytes → Option Bytes
  | [], str => some str
  | _ :: _, [] => none
  | k :: keyword, b :: str => if toLower b = k then stripKeyword keyword str else none

/-- An optional fraction: its digits, and what follows. A point without digits is read too. -/
def fraction (digit : UInt8 → Bool) : Bytes → Bytes × Bytes
  | 46 :: rest => (rest.takeWhile digit, rest.dropWhile digit)
  | rest => ([], rest)

/-- An optional exponent after the letter `mark`, which counts only if a digit follows it. -/
def exponent (mark : UInt8) (str : Bytes) : Int × Bytes :=
  match str with
  | [] => (0, [])
  | b :: rest =>
      let (negative, body) := sign rest
      let digits := body.takeWhile isDigit
      if toLower b = mark ∧ digits ≠ [] then
        let value : Int := digitsValue 10 digits
        (if negative then -value else value, body.dropWhile isDigit)
      else (0, b :: rest)

/-- `infinity` or `inf`. -/
def strtofInfinity (str : Bytes) : Option (Float32 × Bytes) :=
  let infinity := Float32.ofModel (.pack (.infinity .positive))
  match stripKeyword (ascii "infinity") str with
  | some rest => some (infinity, rest)
  | none => (stripKeyword (ascii "inf") str).map fun rest => (infinity, rest)

def isNanChar (b : UInt8) : Bool :=
  isDigit b || (65 ≤ b && b ≤ 90) || (97 ≤ b && b ≤ 122) || b == 95

/-- `nan` or `nan(chars)`. -/
def strtofNan (str : Bytes) : Option (Float32 × Bytes) :=
  (stripKeyword (ascii "nan") str).map fun rest =>
    (Float32.ofModel (.pack .notANumber),
      match rest with
      | 40 :: chars =>
          match chars.dropWhile isNanChar with
          | 41 :: after => after
          | _ => rest
      | _ => rest)

open Float.Model in
/-- `0x` with hexadecimal digits and an optional binary exponent. -/
def strtofHex (str : Bytes) : Option (Float32 × Bytes) :=
  match stripKeyword (ascii "0x") str with
  | none => none
  | some body =>
      let integer := body.takeWhile isHexDigit
      let (frac, rest) := fraction isHexDigit (body.dropWhile isHexDigit)
      if integer = [] ∧ frac = [] then none
      else
        let (power, rest) := exponent 112 rest
        let mantissa := digitsValue 16 (integer ++ frac)
        some (.ofModel (.pack (.normalize .binary32 mantissa (power - 4 * frac.length) .positive)), rest)

/-- Decimal digits with an optional decimal exponent; the value is rounded to the nearest `float`,
ties to even. -/
def strtofDecimal (str : Bytes) : Option (Float32 × Bytes) :=
  let integer := str.takeWhile isDigit
  let (frac, rest) := fraction isDigit (str.dropWhile isDigit)
  if integer = [] ∧ frac = [] then none
  else
    let (power, rest) := exponent 101 rest
    let power := power - frac.length
    some (Float32.ofScientific (digitsValue 10 (integer ++ frac)) (power < 0) power.natAbs, rest)

/-- `strtof(str, &end)`. -/
def strtof (str : Bytes) : Float32 × Bytes :=
  let (negative, body) := sign (str.dropWhile isSpace)
  match strtofInfinity body <|> strtofNan body <|> strtofHex body <|> strtofDecimal body with
  | none => (0, str)
  | some (value, rest) => (if negative then -value else value, rest)

/-- `std::to_string(int64_t)`. -/
def toStringInt (n : Int) : Bytes :=
  if n < 0 then 45 :: decimal n.natAbs else decimal n.natAbs

/-- `n / d` rounded to the nearest natural number, ties to even. -/
def roundHalfEven (n d : Nat) : Nat :=
  let q := n / d
  let r := n % d
  if 2 * r < d ∨ (2 * r = d ∧ q % 2 = 0) then q else q + 1

/-- The six decimals of `printf("%f")` for `mantissa * 2 ^ exponent`. -/
def fixedPoint (mantissa : Nat) (exponent : Int) : Bytes :=
  let millionths := roundHalfEven (mantissa * 10 ^ 6 * 2 ^ exponent.toNat) (2 ^ (-exponent).toNat)
  let decimals := decimal (millionths % 10 ^ 6)
  decimal (millionths / 10 ^ 6) ++ 46 :: (List.replicate (6 - decimals.length) 48 ++ decimals)

/-- `std::to_string(double)`, which prints with `%f`. -/
def toStringDouble (x : Float) : Bytes :=
  match x.toModel.unpack with
  | .notANumber => ascii "nan"
  | .infinity .positive => ascii "inf"
  | .infinity .negative => ascii "-inf"
  | .zero .positive => fixedPoint 0 0
  | .zero .negative => 45 :: fixedPoint 0 0
  | .finite .positive mantissa exponent _ => fixedPoint mantissa exponent
  | .finite .negative mantissa exponent _ => 45 :: fixedPoint mantissa exponent

open Float.Model in
/-- A datum of one binary format rounded to another. -/
def convert (format : Format) : UnpackedFloat → UnpackedFloat
  | .finite sign mantissa exponent _ => .round format sign mantissa exponent
  | x => x

/-- `float` to `double`, which is exact. -/
def toDouble (x : Float32) : Float := .ofModel (.pack (convert .binary64 x.toModel.unpack))

/-- `double` to `float`, rounded. -/
def toFloat (x : Float) : Float32 := .ofModel (.pack (convert .binary32 x.toModel.unpack))

/-- `int64_t` to `double`, rounded. -/
def intToDouble (n : Int) : Float := .ofModel (.pack (.ofInt .binary64 n))

/-- `size_t` to `double`, rounded. -/
def sizeToDouble (n : Nat) : Float := intToDouble n

/-- `size_t` to `float`, rounded. -/
def sizeToFloat (n : Nat) : Float32 := .ofModel (.pack (.ofNat .binary32 n))

/-- `std::to_string(float)`: the argument is promoted to `double`. -/
def toStringFloat (x : Float32) : Bytes := toStringDouble (toDouble x)

/-- The value of an integer expression converted to `int`. -/
def toInt32 (n : Int) : Int := n.bmod (2 ^ 32)

end ToyBox.Cxx
