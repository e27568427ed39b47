import Mathlib.Data.Rat.Defs
import VoxBench.Lib.Text

/-!
# Numbers in text

Python's `int` and `float` of a text. Digits are those of every script, and a single underscore may
stand between two of them.

## Main definitions

* `intOfText` — `int(text)`.
* `floatOfText` — the number that `float(text)` rounds.
-/

namespace VoxBench.Lib

/-- The zeros of the decimal digits. -/
def decimalZeros : List ℕ :=
  [0x30, 0x660, 0x6f0, 0x7c0, 0x966, 0x9e6, 0xa66, 0xae6, 0xb66, 0xbe6, 0xc66, 0xce6, 0xd66, 0xde6,
    0xe50, 0xed0, 0xf20, 0x1040, 0x1090, 0x17e0, 0x1810, 0x1946, 0x19d0, 0x1a80, 0x1a90, 0x1b50,
    0x1bb0, 0x1c40, 0x1c50, 0xa620, 0xa8d0, 0xa900, 0xa9d0, 0xa9f0, 0xaa50, 0xabf0, 0xff10, 0x104a0,
    0x10d30, 0x11066, 0x110f0, 0x11136, 0x111d0, 0x112f0, 0x11450, 0x114d0, 0x11650, 0x116c0,
    0x11730, 0x118e0, 0x11950, 0x11c50, 0x11d50, 0x11da0, 0x11f50, 0x16a60, 0x16ac0, 0x16b50,
    0x1d7ce, 0x1d7d8, 0x1d7e2, 0x1d7ec, 0x1d7f6, 0x1e140, 0x1e2f0, 0x1e4f0, 0x1e950, 0x1fbf0]

/-- The value of a digit. -/
def decimalDigit (c : Char) : Option ℕ :=
  (decimalZeros.find? fun first => first ≤ c.toNat ∧ c.toNat < first + 10).map (c.toNat - ·)

/-- The digits of a text, with at most one underscore between two of them. -/
def digits? : List Char → Option (List ℕ)
  | [] => none
  | [c] => (decimalDigit c).map ([·])
  | c :: '_' :: rest => do return (← decimalDigit c) :: (← digits? rest)
  | c :: c' :: rest => do return (← decimalDigit c) :: (← digits? (c' :: rest))

/-- The number with the digits `ds`. -/
def ofDigits (ds : List ℕ) : ℕ := ds.foldl (fun n d => 10 * n + d) 0

/-- White space around a number. The separators of ASCII do not count. -/
def isNumberSpace (c : Char) : Bool := Text.isSpace c && !(28 ≤ c.toNat && c.toNat ≤ 31)

def stripNumber (cs : List Char) : List Char :=
  ((cs.dropWhile isNumberSpace).reverse.dropWhile isNumberSpace).reverse

/-- A sign, and what follows it. -/
def splitSign : List Char → Bool × List Char
  | '-' :: rest => (true, rest)
  | '+' :: rest => (false, rest)
  | rest => (false, rest)

/-- `sys.int_info.default_max_str_digits`. -/
def maxStrDigits : ℕ := 4300

/-- `int(text)`, and `none` where it raises a `ValueError`. -/
def intOfText (text : String) : Option ℤ := do
  let (negative, rest) := splitSign (stripNumber text.toList)
  let ds ← digits? rest
  if ds.length ≤ maxStrDigits then
    return if negative then -(ofDigits ds : ℤ) else ofDigits ds
  else none

/-- What a text of a float says, before it is rounded. -/
inductive FloatText where
  | number (q : ℚ)
  | infinity (negative : Bool)
  | nan
  deriving DecidableEq, Repr

/-- Digits that may be missing. -/
def digitsOrNone (cs : List Char) : Option (List ℕ) := if cs = [] then some [] else digits? cs

/-- The digits before and after a point, of which there must be one. -/
def mantissa? (cs : List Char) : Option (ℚ × ℕ) := do
  let (whole, point) := cs.span (· ≠ '.')
  let wholeDigits ← digitsOrNone whole
  let fraction ← digitsOrNone (point.drop 1)
  if wholeDigits = [] ∧ fraction = [] then none
  else return (ofDigits (wholeDigits ++ fraction), fraction.length)

/-- An exponent, after its `e`. -/
def exponent? : List Char → Option ℤ
  | [] => some 0
  | _ :: rest => do
      let (negative, cs) := splitSign rest
      let ds ← digits? cs
      return if negative then -(ofDigits ds : ℤ) else ofDigits ds

/-- A text without sign, in lower case. -/
def unsigned? (negative : Bool) (cs : List Char) : Option FloatText :=
  if cs = "inf".toList ∨ cs = "infinity".toList then some (.infinity negative)
  else if cs = "nan".toList then some .nan
  else do
    let (body, tail) := cs.span (· ≠ 'e')
    let (digits, places) ← mantissa? body
    let exponent ← exponent? tail
    let q := digits * (10 : ℚ) ^ (exponent - places)
    return .number (if negative then -q else q)

/-- What `float(text)` rounds, and `none` where it raises a `ValueError`. -/
def floatOfText (text : String) : Option FloatText :=
  let (negative, rest) := splitSign (stripNumber text.toList)
  unsigned? negative (rest.map Char.toLower)

example : intOfText " -1_0٣ " = some (-103) := by decide

example : floatOfText "+1_2.5e-1" = some (.number (5 / 4)) := by decide +kernel

example : floatOfText "1._5" = none ∧ intOfText "1__0" = none := by decide +kernel

end VoxBench.Lib
