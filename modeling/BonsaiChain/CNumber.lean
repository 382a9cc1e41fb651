import BonsaiChain.Common
import BonsaiChain.Lib.Binary64
import Mathlib.Data.List.DropRight

/-!
# Numbers of the C library

`strtod` on the texts the JSON parser hands it (decimal only: no hexadecimal, `inf` or `nan`), the
`%g` conversion and the cast of a `double` to `int64_t`.
-/

namespace BonsaiChain

open Lib

def isDigitByte (c : UInt8) : Bool := 48 ≤ c && c ≤ 57

/-- The value of a string of digits. -/
def digitsValue (ds : CString) : ℕ := ds.foldl (fun n c => 10 * n + (c.toNat - 48)) 0

/-- An optional sign: whether it is a minus, and what follows it. -/
def readSign : CString → Bool × CString
  | 45 :: s => (true, s)
  | 43 :: s => (false, s)
  | s => (false, s)

/-- The exponent part, and what follows it. Without a digit it is not read. -/
def readExponent : CString → ℤ × CString
  | c :: s =>
    let (negative, t) := readSign s
    let digits := t.takeWhile isDigitByte
    if (c = 101 ∨ c = 69) ∧ digits ≠ [] then
      (if negative then -digitsValue digits else digitsValue digits, t.dropWhile isDigitByte)
    else (0, c :: s)
  | [] => (0, [])

/-- A decimal point and the digits behind it. -/
def readFraction : CString → CString × CString
  | 46 :: s => (s.takeWhile isDigitByte, s.dropWhile isDigitByte)
  | s => ([], s)

/-- The number at the start of the text and what follows it, or `none` when there is none. -/
def strtod (text : CString) : Option (Binary64 × CString) :=
  let (negative, s) := readSign text
  let whole := s.takeWhile isDigitByte
  let (fraction, t) := readFraction (s.dropWhile isDigitByte)
  if whole = [] ∧ fraction = [] then none
  else
    let (e, rest) := readExponent t
    let q : ℚ := digitsValue (whole ++ fraction) * 10 ^ (e - fraction.length)
    some (.ofRat (if negative then -q else q), rest)

/-- `(int64_t)d`. A value that does not fit is undefined in C and the least integer on x86-64. -/
def int64OfDouble : Binary64 → Int64
  | .finite q =>
    if Int64.minValue.toInt ≤ truncate q ∧ truncate q ≤ Int64.maxValue.toInt then
      Int64.ofInt (truncate q)
    else Int64.minValue
  | .infinite _ => Int64.minValue

/-- `%1.<precision>g` of a number other than zero. -/
def formatG (precision : ℕ) (q : ℚ) : CString :=
  let scale := Int.log 10 |q|
  let rounded := (roundHalfEven (|q| / 10 ^ (scale - (precision - 1)))).toNat
  -- rounding up may carry into one digit more
  let (significand, e) :=
    if rounded = 10 ^ precision then (10 ^ (precision - 1), scale + 1) else (rounded, scale)
  let digits := decimal significand
  let significant := digits.rdropWhile (· = 48)
  let point (fraction : CString) : CString := if fraction = [] then [] else 46 :: fraction
  (if q < 0 then [45] else []) ++
    if e < -4 ∨ (precision : ℤ) ≤ e then
      significant.take 1 ++ point (significant.drop 1) ++ [101, if e < 0 then 45 else 43] ++
        (if e.natAbs < 10 then [48] else []) ++ decimal e.natAbs
    else if e < 0 then 48 :: point (List.replicate (e.natAbs - 1) 48 ++ significant)
    else digits.take (e.toNat + 1) ++ point (significant.drop (e.toNat + 1))

end BonsaiChain
