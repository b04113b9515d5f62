import Woodhouse.Python.Codecs
import Woodhouse.Python.Numbers

namespace Woodhouse.Python

/-- A value of `json.loads`. -/
inductive Json where
  | null
  | bool (b : Bool)
  | int (i : Int)
  | float (x : PyFloat)
  | str (s : Str)
  | arr (items : List Json)
  | obj (entries : List (Str × Json))

/-- An open container; an object keeps the key whose value comes next. -/
inductive Frame where
  | items (done : List Json)
  | entries (done : Dict Json) (key : Str)

inductive StringState where
  | chars
  | backslash
  | hex (seen value : Nat)
  | high (c : CodePoint)
  | highBackslash (c : CodePoint)
  | highHex (c : CodePoint) (seen value : Nat)

structure Literal where
  negative : Bool
  digits : List Nat := []
  frac : List Nat := []
  expNegative : Bool := false
  expDigits : List Nat := []

inductive NumberState where
  | minus
  | zero
  | digits
  | dot
  | frac
  | e
  | expSign
  | exp

inductive Mode where
  | value
  | firstItem
  | firstKey
  | key
  | colon
  | done (v : Json)
  | string (isKey : Bool) (acc : Str) (state : StringState)
  | number (literal : Literal) (state : NumberState)
  | word (rest : Str) (v : Json)

/-- The decoder between two characters. -/
structure Decoder where
  stack : List Frame := []
  mode : Mode := .value

def isJsonSpace (c : CodePoint) : Bool :=
  c = chr ' ' ∨ c = chr '\t' ∨ c = chr '\n' ∨ c = chr '\r'

/-- The first character of a value; a container may not open inside `limit` others. -/
def startValue (limit : Nat) (stack : List Frame) (c : CodePoint) : Except PyExc Decoder :=
  if c = chr '"' then .ok { stack, mode := .string false [] .chars }
  else if c = chr '{' then
    if limit ≤ stack.length then .error .recursionError
    else .ok { stack := .entries [] [] :: stack, mode := .firstKey }
  else if c = chr '[' then
    if limit ≤ stack.length then .error .recursionError
    else .ok { stack := .items [] :: stack, mode := .firstItem }
  else if c = chr 'n' then .ok { stack, mode := .word (str "ull") .null }
  else if c = chr 't' then .ok { stack, mode := .word (str "rue") (.bool true) }
  else if c = chr 'f' then .ok { stack, mode := .word (str "alse") (.bool false) }
  else if c = chr 'N' then .ok { stack, mode := .word (str "aN") (.float .nan) }
  else if c = chr 'I' then .ok { stack, mode := .word (str "nfinity") (.float (.inf false)) }
  else if c = chr '-' then .ok { stack, mode := .number { negative := true } .minus }
  else match digit c with
    | some 0 => .ok { stack, mode := .number { negative := false, digits := [0] } .zero }
    | some d => .ok { stack, mode := .number { negative := false, digits := [d] } .digits }
    | none => .error .jsonDecodeError

/-- A character after a value. -/
def afterValue (stack : List Frame) (v : Json) (c : CodePoint) : Except PyExc Decoder :=
  if isJsonSpace c then .ok { stack, mode := .done v }
  else match stack with
    | .items done :: rest =>
      if c = chr ',' then .ok { stack := .items (done ++ [v]) :: rest, mode := .value }
      else if c = chr ']' then .ok { stack := rest, mode := .done (.arr (done ++ [v])) }
      else .error .jsonDecodeError
    | .entries done key :: rest =>
      if c = chr ',' then .ok { stack := .entries (done.set key v) [] :: rest, mode := .key }
      else if c = chr '}' then .ok { stack := rest, mode := .done (.obj (done.set key v)) }
      else .error .jsonDecodeError
    | [] => .error .jsonDecodeError

/-- The end of a string, as a key of the open object or as a value. -/
def endString (stack : List Frame) (isKey : Bool) (s : Str) : Except PyExc Decoder :=
  if isKey then
    match stack with
    | .entries done _ :: rest => .ok { stack := .entries done s :: rest, mode := .colon }
    | _ => .error .jsonDecodeError
  else .ok { stack, mode := .done (.str s) }

def escaped (c : CodePoint) : Option CodePoint :=
  if c = chr '"' ∨ c = chr '\\' ∨ c = chr '/' then some c
  else if c = chr 'b' then some (Fin.ofNat _ 8)
  else if c = chr 'f' then some (Fin.ofNat _ 12)
  else if c = chr 'n' then some (chr '\n')
  else if c = chr 'r' then some (chr '\r')
  else if c = chr 't' then some (chr '\t')
  else none

def plainChar (stack : List Frame) (isKey : Bool) (acc : Str) (c : CodePoint) :
    Except PyExc Decoder :=
  if c = chr '"' then endString stack isKey acc
  else if c = chr '\\' then .ok { stack, mode := .string isKey acc .backslash }
  else if c.val < 0x20 then .error .jsonDecodeError
  else .ok { stack, mode := .string isKey (acc ++ [c]) .chars }

def backslashed (stack : List Frame) (isKey : Bool) (acc : Str) (c : CodePoint) :
    Except PyExc Decoder :=
  if c = chr 'u' then .ok { stack, mode := .string isKey acc (.hex 0 0) }
  else match escaped c with
    | some e => .ok { stack, mode := .string isKey (acc ++ [e]) .chars }
    | none => .error .jsonDecodeError

/-- A high surrogate waits for an escaped low one. -/
def endEscape (isKey : Bool) (acc : Str) (n : Nat) : Mode :=
  let c : CodePoint := Fin.ofNat _ n
  if isHighSurrogate c then .string isKey acc (.high c) else .string isKey (acc ++ [c]) .chars

def stringChar (stack : List Frame) (isKey : Bool) (acc : Str) (c : CodePoint) :
    StringState → Except PyExc Decoder
  | .chars => plainChar stack isKey acc c
  | .backslash => backslashed stack isKey acc c
  | .hex seen n =>
    match hexDigit c with
    | some d =>
      .ok { stack, mode := if seen = 3 then endEscape isKey acc (16 * n + d)
                           else .string isKey acc (.hex (seen + 1) (16 * n + d)) }
    | none => .error .jsonDecodeError
  | .high h =>
    if c = chr '\\' then .ok { stack, mode := .string isKey acc (.highBackslash h) }
    else plainChar stack isKey (acc ++ [h]) c
  | .highBackslash h =>
    if c = chr 'u' then .ok { stack, mode := .string isKey acc (.highHex h 0 0) }
    else backslashed stack isKey (acc ++ [h]) c
  | .highHex h seen n =>
    match hexDigit c with
    | some d =>
      let point : CodePoint := Fin.ofNat _ (16 * n + d)
      .ok { stack, mode := if seen = 3 then
                             if isLowSurrogate point then
                               .string isKey (acc ++ [joinSurrogates h point]) .chars
                             else endEscape isKey (acc ++ [h]) (16 * n + d)
                           else .string isKey acc (.highHex h (seen + 1) (16 * n + d)) }
    | none => .error .jsonDecodeError

/-- The value of the longest number that the literal starts with, and whether characters
are left over after it. -/
def endNumber (literal : Literal) : NumberState → Except PyExc (Json × Bool)
  | .minus => .error .jsonDecodeError
  | .zero | .digits => (intOfDigits literal.negative literal.digits).map (fun i => (.int i,false))
  | .dot => (intOfDigits literal.negative literal.digits).map (fun i => (.int i,true))
  | .frac => .ok (.float (floatOfLiteral literal.negative literal.digits literal.frac 0),false)
  | .e | .expSign =>
    if literal.frac = [] then
      (intOfDigits literal.negative literal.digits).map (fun i => (.int i,true))
    else .ok (.float (floatOfLiteral literal.negative literal.digits literal.frac 0),true)
  | .exp =>
    let n : Int := ofDigits literal.expDigits
    .ok (.float (floatOfLiteral literal.negative literal.digits literal.frac
      (if literal.expNegative then -n else n)),false)

/-- A character that does not belong to a number ends it. -/
def leaveNumber (stack : List Frame) (literal : Literal) (state : NumberState) (c : CodePoint) :
    Except PyExc Decoder :=
  match endNumber literal state with
  | .ok (v,false) => afterValue stack v c
  | .ok (_,true) => .error .jsonDecodeError
  | .error e => .error e

def numberChar (stack : List Frame) (literal : Literal) (c : CodePoint) (state : NumberState) :
    Except PyExc Decoder :=
  let isExponent : Bool := c = chr 'e' ∨ c = chr 'E'
  match state, digit c with
  | .minus, some 0 => .ok { stack, mode := .number { literal with digits := [0] } .zero }
  | .minus, some d => .ok { stack, mode := .number { literal with digits := [d] } .digits }
  | .minus, none =>
    if c = chr 'I' then .ok { stack, mode := .word (str "nfinity") (.float (.inf true)) }
    else .error .jsonDecodeError
  | .digits, some d =>
    .ok { stack, mode := .number { literal with digits := literal.digits ++ [d] } .digits }
  | .dot, some d | .frac, some d =>
    .ok { stack, mode := .number { literal with frac := literal.frac ++ [d] } .frac }
  | .e, some d | .expSign, some d | .exp, some d =>
    .ok { stack, mode := .number { literal with expDigits := literal.expDigits ++ [d] } .exp }
  | .e, none =>
    if c = chr '+' ∨ c = chr '-' then
      .ok { stack, mode := .number { literal with expNegative := c = chr '-' } .expSign }
    else leaveNumber stack literal state c
  | .zero, none | .digits, none =>
    if c = chr '.' then .ok { stack, mode := .number literal .dot }
    else if isExponent then .ok { stack, mode := .number literal .e }
    else leaveNumber stack literal state c
  | .frac, none =>
    if isExponent then .ok { stack, mode := .number literal .e }
    else leaveNumber stack literal state c
  | _, _ => leaveNumber stack literal state c

/-- One character. -/
def Decoder.step (limit : Nat) (p : Decoder) (c : CodePoint) : Except PyExc Decoder :=
  match p.mode with
  | .value => if isJsonSpace c then .ok p else startValue limit p.stack c
  | .firstItem =>
    if isJsonSpace c then .ok p
    else if c = chr ']' then .ok { stack := p.stack.tail, mode := .done (.arr []) }
    else startValue limit p.stack c
  | .firstKey =>
    if isJsonSpace c then .ok p
    else if c = chr '}' then .ok { stack := p.stack.tail, mode := .done (.obj []) }
    else if c = chr '"' then .ok { p with mode := .string true [] .chars }
    else .error .jsonDecodeError
  | .key =>
    if isJsonSpace c then .ok p
    else if c = chr '"' then .ok { p with mode := .string true [] .chars }
    else .error .jsonDecodeError
  | .colon =>
    if isJsonSpace c then .ok p
    else if c = chr ':' then .ok { p with mode := .value }
    else .error .jsonDecodeError
  | .done v => afterValue p.stack v c
  | .string isKey acc state => stringChar p.stack isKey acc c state
  | .number literal state => numberChar p.stack literal c state
  | .word rest v =>
    match rest with
    | [r] => if c = r then .ok { p with mode := .done v } else .error .jsonDecodeError
    | r :: more => if c = r then .ok { p with mode := .word more v } else .error .jsonDecodeError
    | [] => .error .jsonDecodeError

/-- The end of the document. -/
def Decoder.finish (p : Decoder) : Except PyExc Json :=
  match p.mode with
  | .done v => if p.stack = [] then .ok v else .error .jsonDecodeError
  | .number literal state =>
    match endNumber literal state with
    | .ok (v,false) => if p.stack = [] then .ok v else .error .jsonDecodeError
    | .ok (_,true) => .error .jsonDecodeError
    | .error e => .error e
  | _ => .error .jsonDecodeError

def decodeFrom (limit : Nat) (p : Decoder) : Str → Except PyExc Json
  | [] => p.finish
  | c :: rest =>
    match p.step limit c with
    | .ok p => decodeFrom limit p rest
    | .error e => .error e

/-- `json.loads(body)`; `limit` is how many containers may be open at once. -/
def loads (limit : Nat) (body : Bytes) : Except PyExc Json :=
  match decodeDetected body with
  | some s => decodeFrom limit {} s
  | none => .error .unicodeDecodeError

section Exceptions

/-- The exceptions of a JSON text. -/
def IsDecodingError (e : PyExc) : Prop :=
  e = .jsonDecodeError ∨ e = .valueError ∨ e = .recursionError

/-- The exceptions of a JSON text that are ValueErrors. -/
def IsTextError (e : PyExc) : Prop := e = .jsonDecodeError ∨ e = .valueError

theorem IsTextError.decoding {e : PyExc} (h : IsTextError e) : IsDecodingError e := h.imp_right .inl

variable (limit : Nat) (stack : List Frame)

@[simp] theorem isDecodingError_json : IsDecodingError .jsonDecodeError := .inl rfl

@[simp] theorem isDecodingError_value : IsDecodingError .valueError := .inr (.inl rfl)

@[simp] theorem isTextError_json : IsTextError .jsonDecodeError := .inl rfl

@[simp] theorem isTextError_value : IsTextError .valueError := .inr rfl

@[simp] theorem isDecodingError_recursion : IsDecodingError .recursionError := .inr (.inr rfl)

theorem startValue_raises (c : CodePoint) : RaisesOnly IsDecodingError (startValue limit stack c) := by
  unfold startValue
  repeat' split
  all_goals simp

theorem afterValue_raises (v : Json) (c : CodePoint) :
    RaisesOnly IsTextError (afterValue stack v c) := by
  unfold afterValue
  repeat' split
  all_goals simp

theorem endString_raises (isKey : Bool) (s : Str) :
    RaisesOnly IsTextError (endString stack isKey s) := by
  unfold endString
  repeat' split
  all_goals simp

theorem plainChar_raises (isKey : Bool) (acc : Str) (c : CodePoint) :
    RaisesOnly IsTextError (plainChar stack isKey acc c) := by
  unfold plainChar
  split
  · exact endString_raises stack isKey acc
  · repeat' split
    all_goals simp

theorem backslashed_raises (isKey : Bool) (acc : Str) (c : CodePoint) :
    RaisesOnly IsTextError (backslashed stack isKey acc c) := by
  unfold backslashed
  repeat' split
  all_goals simp

theorem stringChar_raises (isKey : Bool) (acc : Str) (c : CodePoint) (state : StringState) :
    RaisesOnly IsTextError (stringChar stack isKey acc c state) := by
  cases state with
  | chars => exact plainChar_raises stack isKey acc c
  | backslash => exact backslashed_raises stack isKey acc c
  | hex seen n =>
    simp only [stringChar]
    split <;> simp
  | high h =>
    simp only [stringChar]
    split
    · simp
    · exact plainChar_raises stack isKey (acc ++ [h]) c
  | highBackslash h =>
    simp only [stringChar]
    split
    · simp
    · exact backslashed_raises stack isKey (acc ++ [h]) c
  | highHex h seen n =>
    simp only [stringChar]
    split <;> simp

theorem endNumber_raises (literal : Literal) (state : NumberState) :
    RaisesOnly IsTextError (endNumber literal state) := by
  have hint : RaisesOnly IsTextError (intOfDigits literal.negative literal.digits) := by
    refine (intOfDigits_raises literal.negative literal.digits).mono ?_
    intro e he
    exact .inr he
  cases state with
  | minus => simp [endNumber]
  | zero => exact hint.map _
  | digits => exact hint.map _
  | dot => exact hint.map _
  | frac => simp [endNumber]
  | exp => simp [endNumber]
  | e =>
    simp only [endNumber]
    split
    · exact hint.map _
    · simp
  | expSign =>
    simp only [endNumber]
    split
    · exact hint.map _
    · simp

theorem leaveNumber_raises (literal : Literal) (state : NumberState) (c : CodePoint) :
    RaisesOnly IsTextError (leaveNumber stack literal state c) := by
  have hend := endNumber_raises literal state
  unfold leaveNumber
  split
  · exact afterValue_raises stack _ c
  · simp
  · rename_i e he
    exact (raisesOnly_error e).mpr (hend e he)

theorem numberChar_raises (literal : Literal) (c : CodePoint) (state : NumberState) :
    RaisesOnly IsTextError (numberChar stack literal c state) := by
  have hleave := leaveNumber_raises stack literal state c
  by_cases he : c = chr 'e' ∨ c = chr 'E'
  · unfold numberChar
    repeat' split
    all_goals first | exact hleave | simp [he]
  · unfold numberChar
    repeat' split
    all_goals first | exact hleave | simp [he,hleave]

theorem Decoder.step_raises (p : Decoder) (c : CodePoint) :
    RaisesOnly IsDecodingError (p.step limit c) := by
  have hstart := startValue_raises limit p.stack c
  cases hm : p.mode with
  | done v =>
    simp only [Decoder.step,hm]
    exact (afterValue_raises p.stack v c).mono (fun _ => IsTextError.decoding)
  | string isKey acc state =>
    simp only [Decoder.step,hm]
    exact (stringChar_raises p.stack isKey acc c state).mono (fun _ => IsTextError.decoding)
  | number literal state =>
    simp only [Decoder.step,hm]
    exact (numberChar_raises p.stack literal c state).mono (fun _ => IsTextError.decoding)
  | word rest v =>
    simp only [Decoder.step,hm]
    repeat' split
    all_goals simp
  | _ =>
    simp only [Decoder.step,hm]
    repeat' split
    all_goals first | exact hstart | simp

theorem Decoder.finish_raises (p : Decoder) : RaisesOnly IsTextError p.finish := by
  unfold Decoder.finish
  split
  · split <;> simp
  · rename_i literal state _
    have hend := endNumber_raises literal state
    split
    · split <;> simp
    · simp
    · rename_i e he
      exact (raisesOnly_error e).mpr (hend e he)
  · simp

theorem decodeFrom_raises (p : Decoder) (s : Str) :
    RaisesOnly IsDecodingError (decodeFrom limit p s) := by
  induction s generalizing p with
  | nil => exact p.finish_raises.mono (fun _ => IsTextError.decoding)
  | cons c rest ih =>
    have hstep := p.step_raises limit c
    unfold decodeFrom
    split
    · exact ih _
    · rename_i e he
      exact (raisesOnly_error e).mpr (hstep e he)

/-- The exceptions of `json.loads`. -/
theorem loads_raises (body : Bytes) :
    RaisesOnly (fun e => e = .unicodeDecodeError ∨ IsDecodingError e) (loads limit body) := by
  unfold loads
  split
  · exact (decodeFrom_raises limit {} _).mono (fun e he => .inr he)
  · simp

end Exceptions

end Woodhouse.Python
