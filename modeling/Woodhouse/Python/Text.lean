import Mathlib.Algebra.GroupWithZero.Nat
import Mathlib.Data.Fin.Basic
import Mathlib.Data.List.Lex
import Mathlib.Order.Fin.Basic

namespace Woodhouse.Python

/-- A code point; a string may also hold surrogates. -/
abbrev CodePoint := Fin 0x110000

abbrev Str := List CodePoint

instance codePointsNonzero : NeZero 0x110000 := ⟨by decide⟩

instance lawfulBEqStr : LawfulBEq Str := inferInstance

abbrev Bytes := List UInt8

/-- The exceptions of the standard library that its callers here can meet. -/
inductive PyExc where
  | valueError
  | unicodeDecodeError
  | unicodeEncodeError
  | jsonDecodeError
  | binasciiError
  | recursionError
  | overflowError
  deriving DecidableEq

/-- Every exception of `x` is one of `P`. -/
def RaisesOnly {ε α : Type} (P : ε → Prop) (x : Except ε α) : Prop := ∀ e, x = .error e → P e

section RaisesOnly
variable {ε α β : Type} {P : ε → Prop}

@[simp] theorem raisesOnly_ok (a : α) : RaisesOnly P (.ok a : Except ε α) := by
  intro e h
  cases h

@[simp] theorem raisesOnly_error (e : ε) : RaisesOnly P (.error e : Except ε α) ↔ P e := by
  constructor
  · intro h
    exact h e rfl
  · intro h e' he
    cases he
    exact h

theorem RaisesOnly.bind {x : Except ε α} {f : α → Except ε β} (hx : RaisesOnly P x)
    (hf : ∀ a, x = .ok a → RaisesOnly P (f a)) : RaisesOnly P (x >>= f) := by
  cases x with
  | ok a => exact hf a rfl
  | error e => exact (raisesOnly_error e).mpr (hx e rfl)

theorem RaisesOnly.map {x : Except ε α} (f : α → β) (hx : RaisesOnly P x) :
    RaisesOnly P (x.map f) := by
  cases x with
  | ok a => exact raisesOnly_ok (f a)
  | error e => exact (raisesOnly_error e).mpr (hx e rfl)

theorem RaisesOnly.mono {Q : ε → Prop} {x : Except ε α} (hx : RaisesOnly P x)
    (h : ∀ e, P e → Q e) : RaisesOnly Q x := fun e he => h e (hx e he)

end RaisesOnly

theorem bind_eq_ok {ε α β : Type} {x : Except ε α} {f : α → Except ε β} {b : β} :
    (x >>= f) = .ok b ↔ ∃ a, x = .ok a ∧ f a = .ok b := by
  constructor
  · intro h
    cases x with
    | ok a => exact ⟨a,rfl,h⟩
    | error e => cases h
  · rintro ⟨a,rfl,h⟩
    exact h

/-- A string literal. -/
def str (s : String) : Str := s.toList.map (fun c => Fin.ofNat _ c.toNat)

/-- An ASCII bytes literal. -/
def ascii (s : String) : Bytes := s.toList.map (fun c => UInt8.ofNat c.toNat)

/-- The UTF-8 bytes of an ASCII text. -/
def asciiBytes (t : Str) : Bytes := t.map (fun c => UInt8.ofNat c.val)

/-- The code point of an ASCII character. -/
def chr (c : Char) : CodePoint := Fin.ofNat _ c.toNat

def isHighSurrogate (c : CodePoint) : Bool := 0xD800 ≤ c.val ∧ c.val ≤ 0xDBFF

def isLowSurrogate (c : CodePoint) : Bool := 0xDC00 ≤ c.val ∧ c.val ≤ 0xDFFF

def isSurrogate (c : CodePoint) : Bool := 0xD800 ≤ c.val ∧ c.val ≤ 0xDFFF

def joinSurrogates (high low : CodePoint) : CodePoint :=
  Fin.ofNat _ (0x10000 + (high.val - 0xD800) * 0x400 + (low.val - 0xDC00))

/-- `s.isascii()`. -/
def isAscii (s : Str) : Bool := s.all (fun c => decide (c.val < 128))

/-- The value of an ASCII digit. -/
def digit (c : CodePoint) : Option Nat :=
  if 48 ≤ c.val ∧ c.val ≤ 57 then some (c.val - 48) else none

def hexDigit (c : CodePoint) : Option Nat :=
  if 48 ≤ c.val ∧ c.val ≤ 57 then some (c.val - 48)
  else if 97 ≤ c.val ∧ c.val ≤ 102 then some (c.val - 87)
  else if 65 ≤ c.val ∧ c.val ≤ 70 then some (c.val - 55)
  else none

/-- The number a list of decimal digits writes. -/
def ofDigits (digits : List Nat) : Nat := digits.foldl (fun n d => 10 * n + d) 0

/-- A dictionary with string keys, in insertion order. -/
abbrev Dict (α : Type) := List (Str × α)

namespace Dict
variable {α : Type}

def get (d : Dict α) (key : Str) : Option α := (d.find? (fun e => e.1 = key)).map Prod.snd

/-- `d[key] = value`. -/
def set : Dict α → Str → α → Dict α
  | [], key, value => [(key,value)]
  | (k,v) :: rest, key, value =>
    if k = key then (k,value) :: rest else (k,v) :: set rest key value

end Dict

/-- `s.replace(old, new)` for one character `old`. -/
def replaceChar (s : Str) (old : CodePoint) (new : Str) : Str :=
  s.flatMap (fun c => if c = old then new else [c])

/-- Replaces from left to right; `skip` characters of the last match are still to be dropped. -/
def replaceFrom (old new : Str) : (skip : Nat) → Str → Str
  | _, [] => []
  | skip + 1, _ :: rest => replaceFrom old new skip rest
  | 0, c :: rest =>
    if old.isPrefixOf (c :: rest) then new ++ replaceFrom old new (old.length - 1) rest
    else c :: replaceFrom old new 0 rest

/-- `s.replace(old, new)`. -/
def replaceText (s old new : Str) : Str := replaceFrom old new 0 s

section Replace
variable {s t old new : Str} {c : CodePoint}

theorem replaceChar_append : replaceChar (s ++ t) c new = replaceChar s c new ++ replaceChar t c new :=
  List.flatMap_append

theorem replaceChar_of_notMem (h : c ∉ s) : replaceChar s c new = s := by
  induction s with
  | nil => rfl
  | cons d rest ih =>
    obtain ⟨hd,hrest⟩ := List.ne_and_not_mem_of_not_mem_cons h
    show (if d = c then new else [d]) ++ replaceChar rest c new = _
    rw [if_neg (Ne.symm hd),ih hrest]
    rfl

/-- No match begins in a part that does not have the first character of `old`. -/
theorem replaceText_append_of_notMem (h : c ∉ s) :
    replaceText (s ++ t) (c :: old) new = s ++ replaceText t (c :: old) new := by
  induction s with
  | nil => rfl
  | cons d rest ih =>
    obtain ⟨hd,hrest⟩ := List.ne_and_not_mem_of_not_mem_cons h
    have hno : (c :: old).isPrefixOf (d :: (rest ++ t)) = false := by
      show (c == d && old.isPrefixOf (rest ++ t)) = false
      rw [beq_false_of_ne hd,Bool.false_and]
    show replaceFrom (c :: old) new 0 (d :: (rest ++ t)) = _
    rw [replaceFrom,hno]
    exact congrArg (d :: ·) (ih hrest)

end Replace

end Woodhouse.Python
