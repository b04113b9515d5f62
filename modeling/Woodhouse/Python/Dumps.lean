import Woodhouse.Python.Json

namespace Woodhouse.Python

def decimal (n : Nat) : Str := (Nat.toDigits 10 n).map chr

def pow10 (e : Int) : ℚ := if 0 ≤ e then (10 ^ e.toNat : ℕ) else 1 / (10 ^ (-e).toNat : ℕ)

/-- The power of ten just above a positive number. -/
def decimalPoint (q : ℚ) : Int :=
  let e : Int := (decimal q.num.natAbs).length - (decimal q.den).length
  if q < pow10 e then e else e + 1

/-- The fewest digits that read back as the float, and among these the nearest. -/
def shortestDigits (q : ℚ) (point : Int) : (fuel places : Nat) → Nat × Int
  | 0, places => ((roundHalfEven (q * pow10 (places - point))).toNat,point - places)
  | fuel + 1, places =>
    let scaled := q * pow10 (places - point)
    let readsBack : Int → Bool := fun m =>
      roundMagnitude false (m * pow10 (point - places)) = .finite false q
    let nearest := roundHalfEven scaled
    let other := if nearest ≤ scaled then nearest + 1 else nearest - 1
    if readsBack nearest then (nearest.toNat,point - places)
    else if readsBack other then (other.toNat,point - places)
    else shortestDigits q point fuel (places + 1)

/-- The digits of a float with its decimal point, as `repr` places it. -/
def placePoint (digits : Str) (point : Int) : Str :=
  if -4 < point ∧ point ≤ 16 then
    if point ≤ 0 then str "0." ++ List.replicate (-point).toNat (chr '0') ++ digits
    else if digits.length ≤ point then
      digits ++ List.replicate (point.toNat - digits.length) (chr '0') ++ str ".0"
    else digits.take point.toNat ++ str "." ++ digits.drop point.toNat
  else
    let fraction := if digits.length ≤ 1 then [] else str "." ++ digits.drop 1
    let e := (point - 1).natAbs
    digits.take 1 ++ fraction ++ str (if 1 ≤ point then "e+" else "e-") ++
      (if e < 10 then str "0" else []) ++ decimal e

def trimZeros (digits : Str) : Str := (digits.reverse.dropWhile (· = chr '0')).reverse

/-- `float.__repr__`, with the names that `json.dumps` gives to what JSON cannot write. -/
def reprFloat : PyFloat → Str
  | .nan => str "NaN"
  | .inf negative => str (if negative then "-Infinity" else "Infinity")
  | .finite negative q =>
    let body := if q = 0 then str "0.0"
      else
        let (m,exponent) := shortestDigits q (decimalPoint q) 17 1
        placePoint (trimZeros (decimal m)) (exponent + (decimal m).length)
    if negative then chr '-' :: body else body

def reprInt (i : Int) : Str := if i < 0 then chr '-' :: decimal i.natAbs else decimal i.natAbs

def hexDigits (n : Nat) : Str :=
  [n / 4096 % 16,n / 256 % 16,n / 16 % 16,n % 16].map
    (fun d => Fin.ofNat _ (if d < 10 then 48 + d else 87 + d))

def unicodeEscape (n : Nat) : Str := str "\\u" ++ hexDigits n

/-- A character of a string that is written in ASCII. -/
def escape (c : CodePoint) : Str :=
  if c = chr '"' then str "\\\""
  else if c = chr '\\' then str "\\\\"
  else if c.val = 8 then str "\\b"
  else if c.val = 12 then str "\\f"
  else if c = chr '\n' then str "\\n"
  else if c = chr '\r' then str "\\r"
  else if c = chr '\t' then str "\\t"
  else if 32 ≤ c.val ∧ c.val ≤ 126 then [c]
  else if c.val < 0x10000 then unicodeEscape c.val
  else
    let n := c.val - 0x10000
    unicodeEscape (0xD800 + n / 1024) ++ unicodeEscape (0xDC00 + n % 1024)

def dumpStr (s : Str) : Str := str "\"" ++ s.flatMap escape ++ str "\""

def commaSeparated (texts : List Str) : Str := (texts.intersperse (str ",")).flatten

mutual

/-- `json.dumps(v, separators=(",", ":"), sort_keys=True)`. -/
def dumps : Json → Str
  | .null => str "null"
  | .bool b => str (if b then "true" else "false")
  | .int i => reprInt i
  | .float x => reprFloat x
  | .str s => dumpStr s
  | .arr items => str "[" ++ commaSeparated (dumpItems items) ++ str "]"
  | .obj entries =>
    let sorted := (dumpEntries entries).mergeSort (fun a b => decide (a.1 ≤ b.1))
    str "\x7b" ++ commaSeparated (sorted.map (fun e => dumpStr e.1 ++ str ":" ++ e.2)) ++ str "\x7d"

def dumpItems : List Json → List Str
  | [] => []
  | v :: rest => dumps v :: dumpItems rest

def dumpEntries : List (Str × Json) → List (Str × Str)
  | [] => []
  | (key,v) :: rest => (key,dumps v) :: dumpEntries rest

end

end Woodhouse.Python
