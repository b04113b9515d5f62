import Mathlib.Algebra.Order.Floor.Defs
import Mathlib.Data.Rat.Floor
import Woodhouse.Python.Text

namespace Woodhouse.Python

/-- A float: binary64 without its payload bits. -/
inductive PyFloat where
  | nan
  | inf (negative : Bool)
  | finite (negative : Bool) (magnitude : ℚ)
  deriving DecidableEq

/-- The nearest integer, ties to even. -/
def roundHalfEven (q : ℚ) : Int :=
  let n := q.floor
  let rest := q - n
  if rest < 1 / 2 then n
  else if 1 / 2 < rest then n + 1
  else if n % 2 = 0 then n else n + 1

def pow2 (e : Int) : ℚ := if 0 ≤ e then (2 ^ e.toNat : ℕ) else 1 / (2 ^ (-e).toNat : ℕ)

/-- The exponent of the last place of a positive number in binary64. -/
def lastPlace (q : ℚ) : Int :=
  let e : Int := (Nat.log2 q.num.natAbs : Int) - (Nat.log2 q.den : Int)
  max (if q < pow2 e then e - 53 else e - 52) (-1074)

/-- The nearest float to a number that is not negative, or infinity. -/
def roundMagnitude (negative : Bool) (q : ℚ) : PyFloat :=
  if q = 0 then .finite negative 0
  else
    let e := lastPlace q
    let m := (roundHalfEven (q / pow2 e) : ℚ) * pow2 e
    if m < pow2 1024 then .finite negative m else .inf negative

/-- `float(literal)` of the digits of a JSON number. -/
def floatOfLiteral (negative : Bool) (digits frac : List Nat) (exponent : Int) : PyFloat :=
  let significand := ofDigits (digits ++ frac)
  let scale := exponent - frac.length
  let places : Int := (digits ++ frac).length + scale
  -- far outside the range of a float the power of ten is not computed
  if significand = 0 then .finite negative 0
  else if 310 < (Nat.log2 significand : Int) * 3 / 10 + scale then .inf negative
  else if places < -330 then .finite negative 0
  else if 0 ≤ scale then roundMagnitude negative ((significand * 10 ^ scale.toNat : ℕ) : ℚ)
  else roundMagnitude negative ((significand : ℚ) / (10 ^ (-scale).toNat : ℕ))

/-- The limit of `sys.get_int_max_str_digits()`. -/
def maxStrDigits : Nat := 4300

/-- `int()` of decimal digits with a sign. -/
def intOfDigits (negative : Bool) (digits : List Nat) : Except PyExc Int :=
  if maxStrDigits < digits.length then .error .valueError
  else .ok (if negative then -(ofDigits digits : Int) else ofDigits digits)

theorem intOfDigits_raises (negative : Bool) (digits : List Nat) :
    RaisesOnly (· = .valueError) (intOfDigits negative digits) := by
  unfold intOfDigits
  split
  · simp
  · simp

/-- The zeros of the decimal digits outside ASCII. -/
def decimalZeros : List Nat :=
  [0x660,0x6f0,0x7c0,0x966,0x9e6,0xa66,0xae6,0xb66,0xbe6,0xc66,0xce6,0xd66,0xde6,0xe50,0xed0,
   0xf20,0x1040,0x1090,0x17e0,0x1810,0x1946,0x19d0,0x1a80,0x1a90,0x1b50,0x1bb0,0x1c40,0x1c50,
   0xa620,0xa8d0,0xa900,0xa9d0,0xa9f0,0xaa50,0xabf0,0xff10,0x104a0,0x10d30,0x11066,0x110f0,
   0x11136,0x111d0,0x112f0,0x11450,0x114d0,0x11650,0x116c0,0x11730,0x118e0,0x11950,0x11c50,
   0x11d50,0x11da0,0x11f50,0x16a60,0x16ac0,0x16b50,0x1d7ce,0x1d7d8,0x1d7e2,0x1d7ec,0x1d7f6,
   0x1e140,0x1e2f0,0x1e4f0,0x1e950,0x1fbf0]

/-- The white space outside ASCII. -/
def wideSpaces : List Nat :=
  [0x85,0xa0,0x1680,0x2000,0x2001,0x2002,0x2003,0x2004,0x2005,0x2006,0x2007,0x2008,0x2009,
   0x200a,0x2028,0x2029,0x202f,0x205f,0x3000]

def isSpace (c : CodePoint) : Bool :=
  (9 ≤ c.val ∧ c.val ≤ 13) ∨ (28 ≤ c.val ∧ c.val ≤ 32) ∨ c.val ∈ wideSpaces

/-- `s.strip()`, for characters of any kind. -/
def stripOf {α : Type} (isSpace : α → Bool) (s : List α) : List α :=
  ((s.dropWhile isSpace).reverse.dropWhile isSpace).reverse

/-- `s.split()`, for characters of any kind. -/
def wordsOf {α : Type} (isSpace : α → Bool) (s : List α) : List (List α) :=
  (s.splitBy (fun a b => isSpace a = isSpace b)).filter (fun word => !word.all isSpace)

def strip (s : Str) : Str := stripOf isSpace s

def split (s : Str) : List Str := wordsOf isSpace s

/-- The ASCII character that `int()` reads a code point as. -/
def toAsciiDigit (c : CodePoint) : CodePoint :=
  if c.val < 127 then c
  else if c.val ∈ wideSpaces then chr ' '
  else match decimalZeros.find? (fun z => z ≤ c.val ∧ c.val < z + 10) with
    | some z => Fin.ofNat _ (48 + (c.val - z))
    | none => chr '?'

def isAsciiSpace (c : CodePoint) : Bool := (9 ≤ c.val ∧ c.val ≤ 13) ∨ c.val = 32

/-- Digits with single underscores between them; `last` is the character before. -/
def underscoredDigits (last : CodePoint) : Str → Option (List Nat)
  | [] => if last = chr '_' then none else some []
  | c :: rest =>
    if c = chr '_' then if last = chr '_' then none else underscoredDigits c rest
    else match digit c with
      | some d => (underscoredDigits c rest).map (fun ds => d :: ds)
      | none => none

/-- `int(s)` of a string. -/
def intOfStr (s : Str) : Except PyExc Int :=
  let ascii := s.map toAsciiDigit
  let stripped := ((ascii.dropWhile isAsciiSpace).reverse.dropWhile isAsciiSpace).reverse
  let (negative,body) := match stripped with
    | c :: rest =>
      if c = chr '-' then (true,rest) else if c = chr '+' then (false,rest) else (false,c :: rest)
    | [] => (false,[])
  match underscoredDigits (chr '_') body with
  | some digits => intOfDigits negative digits
  | none => .error .valueError

end Woodhouse.Python
