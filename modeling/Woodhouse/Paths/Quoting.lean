import Mathlib.Data.List.Basic
import Woodhouse.Identity.Models

namespace Woodhouse.Paths

/-- The bytes that `urllib.parse.quote` never escapes. -/
def isUnreserved (b : UInt8) : Bool :=
  let n := b.toNat
  (65 ≤ n ∧ n ≤ 90) ∨ (97 ≤ n ∧ n ≤ 122) ∨ (48 ≤ n ∧ n ≤ 57) ∨ n ∈ "_.-~".toList.map Char.toNat

/-- A digit of `%02X`. -/
def escapeDigit (n : Nat) : Char := Char.ofNat (if n < 10 then 48 + n else 55 + n)

def quoteByte (b : UInt8) : List Char :=
  if isUnreserved b then [Char.ofNat b.toNat]
  else ['%',escapeDigit (b.toNat / 16),escapeDigit (b.toNat % 16)]

/-- `quote(s, safe="")`. -/
def quote (s : String) : String :=
  String.ofList ((s.toList.flatMap String.utf8EncodeChar).flatMap quoteByte)

/-- `_path_part`. -/
def pathPart (value : String) : Except Identity.Exc String :=
  let normalized := Identity.strip value
  if normalized = "" then .error (.valueError "Tesla path identifier cannot be empty")
  else .ok (quote normalized)

def hexValue (c : Char) : Option Nat := Python.hexDigit (Python.chr c)

/-- The octets of a percent-encoded text. A percent sign that two hexadecimal digits do
not follow stands for itself. -/
def percentDecodeBytes : List Char → List UInt8
  | [] => []
  | c :: high :: low :: rest =>
    if c = '%' then
      match hexValue high,hexValue low with
      | some h,some l => UInt8.ofNat (16 * h + l) :: percentDecodeBytes rest
      | _,_ => String.utf8EncodeChar c ++ percentDecodeBytes (high :: low :: rest)
    else String.utf8EncodeChar c ++ percentDecodeBytes (high :: low :: rest)
  | c :: rest => String.utf8EncodeChar c ++ percentDecodeBytes rest

def percentDecode (segment : List Char) : Option String :=
  (percentDecodeBytes segment).toByteArray.utf8Decode?.map (fun chars => String.ofList chars.toList)

/-- A segment holds no character that ends a segment or the path. -/
def IsSegment (segment : List Char) : Prop := ∀ c ∈ segment, c ≠ '/' ∧ c ≠ '?' ∧ c ≠ '#'

theorem toNat_ofNat_ascii {n : Nat} (h : n < 128) : (Char.ofNat n).toNat = n := by
  have hvalid : Nat.isValidChar n := .inl (by omega)
  rw [Char.ofNat,dif_pos hvalid]
  rfl

section Bytes
variable {b : UInt8}

theorem isUnreserved_lt (h : isUnreserved b = true) : b.toNat < 127 := by
  simp [isUnreserved] at h
  omega

theorem toNat_unreserved (h : isUnreserved b = true) : (Char.ofNat b.toNat).toNat = b.toNat := by
  have hlt := isUnreserved_lt h
  exact toNat_ofNat_ascii (by omega)

theorem utf8EncodeChar_unreserved (h : isUnreserved b = true) :
    String.utf8EncodeChar (Char.ofNat b.toNat) = [b] := by
  have hlt := isUnreserved_lt h
  have hnat := toNat_unreserved h
  have hval : (Char.ofNat b.toNat).val.toNat = b.toNat := hnat
  rw [String.utf8EncodeChar_eq_singleton]
  · congr 1
    apply UInt8.toNat_inj.mp
    rw [UInt32.toNat_toUInt8,hval]
    omega
  · apply Char.utf8Size_eq_one_iff.mpr
    apply UInt32.le_iff_toNat_le.mpr
    rw [hval]
    exact Nat.le_of_lt_succ (by simpa using by omega)

theorem toNat_escapeDigit {n : Nat} (h : n < 16) :
    (escapeDigit n).toNat = if n < 10 then 48 + n else 55 + n := by
  apply toNat_ofNat_ascii
  split <;> omega

theorem hexValue_escapeDigit {n : Nat} (h : n < 16) : hexValue (escapeDigit n) = some n := by
  have hcode : (Python.chr (escapeDigit n)).val = if n < 10 then 48 + n else 55 + n := by
    unfold Python.chr
    rw [toNat_escapeDigit h,Fin.val_ofNat]
    split <;> omega
  unfold hexValue Python.hexDigit
  rw [hcode]
  by_cases hten : n < 10
  · rw [if_pos hten,if_pos (by omega),Nat.add_sub_cancel_left]
  · rw [if_neg hten,if_neg (by omega),if_neg (by omega),if_pos (by omega),Nat.add_sub_cancel_left]

theorem percentDecodeBytes_of_ne {c : Char} (h : c ≠ '%') (rest : List Char) :
    percentDecodeBytes (c :: rest) = String.utf8EncodeChar c ++ percentDecodeBytes rest := by
  match rest with
  | [] => rfl
  | [_] => rfl
  | high :: low :: rest => rw [percentDecodeBytes,if_neg h]

theorem percentDecodeBytes_quoteByte (b : UInt8) (rest : List Char) :
    percentDecodeBytes (quoteByte b ++ rest) = b :: percentDecodeBytes rest := by
  have hlt := b.toNat_lt
  unfold quoteByte
  by_cases h : isUnreserved b
  · have hne : Char.ofNat b.toNat ≠ '%' := by
      intro heq
      have hnat := toNat_unreserved h
      rw [heq] at hnat
      simp [isUnreserved,← hnat] at h
    rw [if_pos h,List.singleton_append,percentDecodeBytes_of_ne hne,utf8EncodeChar_unreserved h]
    rfl
  · rw [if_neg h]
    change percentDecodeBytes ('%' :: escapeDigit _ :: escapeDigit _ :: rest) = _
    rw [percentDecodeBytes,if_pos rfl,hexValue_escapeDigit (by omega),hexValue_escapeDigit (by omega)]
    simp only [Nat.div_add_mod,UInt8.ofNat_toNat]

theorem percentDecodeBytes_quoted (bytes : List UInt8) :
    percentDecodeBytes (bytes.flatMap quoteByte) = bytes := by
  induction bytes with
  | nil => rfl
  | cons b bytes ih => rw [List.flatMap_cons,percentDecodeBytes_quoteByte,ih]

/-- The characters of a quoted byte are unreserved, hexadecimal or a percent sign. -/
theorem isSegment_quoteByte (b : UInt8) : IsSegment (quoteByte b) := by
  have hlt := b.toNat_lt
  have hhex : ∀ n < 16, escapeDigit n ≠ '/' ∧ escapeDigit n ≠ '?' ∧ escapeDigit n ≠ '#' := by decide
  intro c hc
  unfold quoteByte at hc
  split at hc
  case isTrue h =>
    obtain rfl := List.mem_singleton.mp hc
    have hnat := toNat_unreserved h
    refine ⟨?_,?_,?_⟩ <;>
    · intro heq
      rw [heq] at hnat
      simp [isUnreserved,← hnat] at h
  case isFalse =>
    simp only [List.mem_cons,List.not_mem_nil,or_false] at hc
    obtain rfl | rfl | rfl := hc
    · decide
    · exact hhex _ (by omega)
    · exact hhex _ (by omega)

end Bytes

theorem isSegment_quote (s : String) : IsSegment (quote s).toList := by
  intro c hc
  rw [quote,String.toList_ofList] at hc
  obtain ⟨b,_,hb⟩ := List.mem_flatMap.mp hc
  exact isSegment_quoteByte b c hb

/-- Quoting loses nothing. -/
theorem percentDecode_quote (s : String) : percentDecode (quote s).toList = some s := by
  have hutf : (s.toList.flatMap String.utf8EncodeChar).toByteArray = s.toList.utf8Encode := rfl
  rw [percentDecode,quote,String.toList_ofList,percentDecodeBytes_quoted,hutf,
    List.utf8Decode?_utf8Encode]
  simp

theorem quote_injective {s t : String} (h : quote s = quote t) : s = t := by
  apply Option.some.inj
  rw [← percentDecode_quote s,h,percentDecode_quote]

end Woodhouse.Paths
