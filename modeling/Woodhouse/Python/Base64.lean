import Woodhouse.Python.Text

namespace Woodhouse.Python

/-- The six bits of a character of the base64 alphabet. -/
def base64Index (c : CodePoint) : Option Nat :=
  if 65 ≤ c.val ∧ c.val ≤ 90 then some (c.val - 65)
  else if 97 ≤ c.val ∧ c.val ≤ 122 then some (c.val - 71)
  else if 48 ≤ c.val ∧ c.val ≤ 57 then some (c.val + 4)
  else if c = chr '+' then some 62
  else if c = chr '/' then some 63
  else none

/-- The decoder of `binascii.a2b_base64(strict_mode=True)` between two characters. -/
structure Base64Decoder where
  quadPos : Nat := 0
  leftchar : Nat := 0
  pads : Nat := 0
  paddingStarted : Bool := false
  complete : Bool := false
  out : Bytes := []

def Base64Decoder.take (s : Base64Decoder) (v : Nat) : Base64Decoder :=
  match s.quadPos with
  | 0 => { s with quadPos := 1, leftchar := v }
  | 1 => { s with quadPos := 2, leftchar := v % 16,
                  out := s.out ++ [UInt8.ofNat (4 * s.leftchar + v / 16)] }
  | 2 => { s with quadPos := 3, leftchar := v % 4,
                  out := s.out ++ [UInt8.ofNat (16 * s.leftchar + v / 4)] }
  | _ => { s with quadPos := 0, leftchar := 0,
                  out := s.out ++ [UInt8.ofNat (64 * s.leftchar + v)] }

def Base64Decoder.step (s : Base64Decoder) (c : CodePoint) : Except PyExc Base64Decoder :=
  if s.complete then .error .binasciiError
  else if c = chr '=' then
    if 2 ≤ s.quadPos then
      .ok { s with paddingStarted := true, pads := s.pads + 1,
                   complete := 4 ≤ s.quadPos + (s.pads + 1) }
    else .ok { s with paddingStarted := true }
  else match base64Index c with
    | some v => if s.paddingStarted then .error .binasciiError else .ok (s.take v)
    | none => .error .binasciiError

def Base64Decoder.finish (s : Base64Decoder) : Except PyExc Bytes :=
  if s.complete ∨ s.quadPos = 0 then .ok s.out else .error .binasciiError

/-- `base64.b64decode(s, validate=True)`. -/
def b64decode (s : Str) : Except PyExc Bytes :=
  if !isAscii s then .error .valueError
  else if s.head? = some (chr '=') then .error .binasciiError
  else do
    let decoder ← s.foldlM Base64Decoder.step {}
    decoder.finish

section Exceptions

theorem Base64Decoder.step_raises (s : Base64Decoder) (c : CodePoint) :
    RaisesOnly (· = .binasciiError) (s.step c) := by
  unfold Base64Decoder.step
  repeat' split
  all_goals simp

theorem Base64Decoder.finish_raises (s : Base64Decoder) :
    RaisesOnly (· = .binasciiError) s.finish := by
  unfold Base64Decoder.finish
  split
  · simp
  · simp

theorem Base64Decoder.run_raises (text : Str) (s : Base64Decoder) :
    RaisesOnly (· = .binasciiError) (text.foldlM Base64Decoder.step s) := by
  induction text generalizing s with
  | nil => exact raisesOnly_ok s
  | cons c rest ih =>
    rw [List.foldlM_cons]
    exact (s.step_raises c).bind (fun s' _ => ih s')

/-- A string that is not ASCII is no `binascii.Error`. -/
theorem b64decode_raises {s : Str} (h : isAscii s = true) :
    RaisesOnly (· = .binasciiError) (b64decode s) := by
  unfold b64decode
  rw [h,Bool.not_true,if_neg Bool.false_ne_true]
  split
  · simp
  · exact (Base64Decoder.run_raises s {}).bind (fun d _ => d.finish_raises)

theorem b64decode_of_not_ascii {s : Str} (h : isAscii s = false) :
    b64decode s = .error .valueError := by
  unfold b64decode
  rw [h]
  rfl

end Exceptions

end Woodhouse.Python
