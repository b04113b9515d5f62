import Woodhouse.Python.Text

namespace Woodhouse.Python

def codePoint (n : Nat) : Option CodePoint := if h : n < 0x110000 then some ⟨n,h⟩ else none

/-- The six payload bits of a continuation byte. -/
def continuation (b : UInt8) : Option Nat :=
  if 0x80 ≤ b.toNat ∧ b.toNat < 0xC0 then some (b.toNat - 0x80) else none

/-- A code point of at least `least`, from its leading bits and continuation bytes. -/
def utf8Point (least lead : Nat) (rest : List UInt8) : Option CodePoint := do
  let tails ← rest.mapM continuation
  let n := tails.foldl (fun n t => 64 * n + t) lead
  if least ≤ n then codePoint n else none

/-- `bytes.decode('utf-8', 'surrogatepass')`. -/
def decodeUtf8 : Bytes → Option Str
  | [] => some []
  | a :: rest =>
    if a.toNat < 0x80 then (decodeUtf8 rest).map (fun s => Fin.ofNat _ a.toNat :: s)
    else match rest with
      | [] => none
      | b :: rest =>
        if 0xC0 ≤ a.toNat ∧ a.toNat < 0xE0 then do
          let c ← utf8Point 0x80 (a.toNat - 0xC0) [b]
          (decodeUtf8 rest).map (fun s => c :: s)
        else match rest with
          | [] => none
          | c :: rest =>
            if 0xE0 ≤ a.toNat ∧ a.toNat < 0xF0 then do
              let d ← utf8Point 0x800 (a.toNat - 0xE0) [b,c]
              (decodeUtf8 rest).map (fun s => d :: s)
            else match rest with
              | [] => none
              | d :: rest =>
                if 0xF0 ≤ a.toNat ∧ a.toNat < 0xF8 then do
                  let e ← utf8Point 0x10000 (a.toNat - 0xF0) [b,c,d]
                  (decodeUtf8 rest).map (fun s => e :: s)
                else none

inductive ByteOrder where
  | little
  | big
  deriving DecidableEq

/-- The number that bytes write in a byte order. -/
def wordOf (order : ByteOrder) (bytes : List UInt8) : Nat :=
  (match order with
    | .big => bytes
    | .little => bytes.reverse).foldl (fun n (b : UInt8) => 256 * n + b.toNat) 0

def utf16Units (order : ByteOrder) : Bytes → Option Str
  | [] => some []
  | [_] => none
  | a :: b :: rest =>
    (utf16Units order rest).map (fun s => Fin.ofNat _ (wordOf order [a,b]) :: s)

/-- Surrogate pairs become one code point; lone surrogates pass. -/
def joinPairs : Str → Str
  | high :: low :: rest =>
    if isHighSurrogate high ∧ isLowSurrogate low then joinSurrogates high low :: joinPairs rest
    else high :: joinPairs (low :: rest)
  | s => s

def decodeUtf16 (order : ByteOrder) (b : Bytes) : Option Str := (utf16Units order b).map joinPairs

def decodeUtf32 (order : ByteOrder) : Bytes → Option Str
  | [] => some []
  | a :: b :: c :: d :: rest => do
    let point ← codePoint (wordOf order [a,b,c,d])
    (decodeUtf32 order rest).map (fun s => point :: s)
  | _ => none

/-- `b.decode(detect_encoding(b), 'surrogatepass')`. -/
def decodeDetected (b : Bytes) : Option Str :=
  match b with
  | 0x00 :: 0x00 :: 0xFE :: 0xFF :: rest => decodeUtf32 .big rest
  | 0xFF :: 0xFE :: 0x00 :: 0x00 :: rest => decodeUtf32 .little rest
  | 0xFE :: 0xFF :: rest => decodeUtf16 .big rest
  | 0xFF :: 0xFE :: rest => decodeUtf16 .little rest
  | 0xEF :: 0xBB :: 0xBF :: rest => decodeUtf8 rest
  | b0 :: b1 :: b2 :: b3 :: _ =>
    if b0 = 0 then if b1 ≠ 0 then decodeUtf16 .big b else decodeUtf32 .big b
    else if b1 = 0 then
      if b2 ≠ 0 ∨ b3 ≠ 0 then decodeUtf16 .little b else decodeUtf32 .little b
    else decodeUtf8 b
  | [b0,b1] =>
    if b0 = 0 then decodeUtf16 .big b
    else if b1 = 0 then decodeUtf16 .little b
    else decodeUtf8 b
  | _ => decodeUtf8 b

/-- The UTF-8 bytes of a code point. -/
def utf8Bytes (c : CodePoint) : Bytes :=
  let n := c.val
  (if n < 0x80 then [n]
   else if n < 0x800 then [0xC0 + n / 64,0x80 + n % 64]
   else if n < 0x10000 then [0xE0 + n / 4096,0x80 + n / 64 % 64,0x80 + n % 64]
   else [0xF0 + n / 262144,0x80 + n / 4096 % 64,0x80 + n / 64 % 64,0x80 + n % 64]).map UInt8.ofNat

/-- `s.encode()`. -/
def encodeUtf8 (s : Str) : Except PyExc Bytes :=
  if s.any isSurrogate then .error .unicodeEncodeError else .ok (s.flatMap utf8Bytes)

end Woodhouse.Python
