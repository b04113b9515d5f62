import Woodhouse.Transport.Urls

namespace Woodhouse.Transport
open Paths

def quotePlusByte (b : UInt8) : List Char := if b = 32 then ['+'] else quoteByte b

/-- `quote_plus(s)`. -/
def quotePlus (s : String) : List Char :=
  (s.toList.flatMap String.utf8EncodeChar).flatMap quotePlusByte

/-- `urlencode` of a dictionary's items. -/
def urlencode (pairs : List (String × String)) : List Char :=
  ['&'].intercalate (pairs.map (fun p => quotePlus p.1 ++ '=' :: quotePlus p.2))

/-- `_with_query`, given the parameters that are present. -/
def withQuery (path : List Char) (pairs : List (String × String)) : List Char :=
  if pairs = [] then path else path ++ '?' :: urlencode pairs

def plusToSpace (c : Char) : Char := if c = '+' then ' ' else c

def unquotePlus (s : List Char) : String := unquote (s.map plusToSpace)

/-- One part of a query between two ampersands. -/
def parsePair (part : List Char) : Option (String × String) :=
  let value := (part.dropWhile (· ≠ '=')).drop 1
  if '=' ∈ part ∧ value ≠ [] then some (unquotePlus (part.takeWhile (· ≠ '=')),unquotePlus value)
  else none

/-- `parse_qsl(query)`. -/
def parseQsl (query : List Char) : List (String × String) := (query.splitOn '&').filterMap parsePair

section Characters

/-- A visible ASCII character that does not end the path or the query of a URL. -/
def IsUrlChar (c : Char) : Prop := 32 < c.toNat ∧ c.toNat < 127 ∧ c ≠ '#'

instance (c : Char) : Decidable (IsUrlChar c) := inferInstanceAs (Decidable (_ ∧ _))

theorem isUnreserved_ge {b : UInt8} (h : isUnreserved b = true) : 45 ≤ b.toNat := by
  simp [isUnreserved] at h
  omega

/-- A byte is quoted by characters that stand for nothing else in a URL. -/
theorem quoteByte_chars (b : UInt8) :
    ∀ c ∈ quoteByte b, IsUrlChar c ∧ c ≠ '/' ∧ c ≠ '?' ∧ c ≠ '&' ∧ c ≠ '=' ∧ c ≠ '+' := by
  have hlt := b.toNat_lt
  have hhex : ∀ n < 16, IsUrlChar (escapeDigit n) ∧ escapeDigit n ≠ '/' ∧ escapeDigit n ≠ '?' ∧
      escapeDigit n ≠ '&' ∧ escapeDigit n ≠ '=' ∧ escapeDigit n ≠ '+' := by decide
  intro c hc
  unfold quoteByte at hc
  split at hc
  case isTrue h =>
    obtain rfl := List.mem_singleton.mp hc
    have hnat := toNat_unreserved h
    have hge := isUnreserved_ge h
    have hlt := isUnreserved_lt h
    have hne : ∀ d : Char, isUnreserved (UInt8.ofNat d.toNat) = false → d.toNat < 256 →
        Char.ofNat b.toNat ≠ d := by
      intro d hd hd256 heq
      rw [heq] at hnat
      rw [hnat,UInt8.ofNat_toNat,h] at hd
      cases hd
    refine ⟨⟨?_,?_,?_⟩,?_,?_,?_,?_,?_⟩
    · omega
    · omega
    all_goals exact hne _ (by decide) (by decide)
  case isFalse =>
    simp only [List.mem_cons,List.not_mem_nil,or_false] at hc
    obtain rfl | rfl | rfl := hc
    · decide
    · exact hhex _ (by omega)
    · exact hhex _ (by omega)

theorem quotePlus_chars (s : String) :
    ∀ c ∈ quotePlus s, IsUrlChar c ∧ c ≠ '&' ∧ c ≠ '=' := by
  intro c hc
  obtain ⟨b,_,hb⟩ := List.mem_flatMap.mp hc
  unfold quotePlusByte at hb
  split at hb
  · obtain rfl := List.mem_singleton.mp hb
    decide
  · obtain ⟨hurl,_,_,hamp,heq,_⟩ := quoteByte_chars b c hb
    exact ⟨hurl,hamp,heq⟩

end Characters

section RoundTrip

theorem map_plusToSpace_quoteByte (b : UInt8) : (quoteByte b).map plusToSpace = quoteByte b := by
  have hsame : ∀ c ∈ quoteByte b, plusToSpace c = id c := fun c hc =>
    if_neg (quoteByte_chars b c hc).2.2.2.2.2
  rw [List.map_congr_left hsame,List.map_id]

theorem percentDecodeBytes_quotePlus (bytes : List UInt8) :
    percentDecodeBytes ((bytes.flatMap quotePlusByte).map plusToSpace) = bytes := by
  induction bytes with
  | nil => rfl
  | cons b bytes ih =>
    rw [List.flatMap_cons,List.map_append]
    by_cases h : b = 32
    · subst h
      have hspace : (quotePlusByte 32).map plusToSpace = [' '] := rfl
      rw [hspace,List.singleton_append,percentDecodeBytes_of_ne (by decide),ih]
      rfl
    · rw [quotePlusByte,if_neg h,map_plusToSpace_quoteByte,percentDecodeBytes_quoteByte,ih]

@[simp] theorem unquotePlus_quotePlus (s : String) : unquotePlus (quotePlus s) = s := by
  rw [unquotePlus,unquote,quotePlus,percentDecodeBytes_quotePlus,decodeReplace_encoded,
    String.ofList_toList]

theorem quotePlus_eq_nil {s : String} (h : quotePlus s = []) : s = "" := by
  have hempty : unquotePlus [] = "" := unquotePlus_quotePlus ""
  rw [← unquotePlus_quotePlus s,h,hempty]

theorem parsePair_encoded (name value : String) :
    parsePair (quotePlus name ++ '=' :: quotePlus value) =
      if value = "" then none else some (name,value) := by
  have hname : ∀ c ∈ quotePlus name, decide (c ≠ '=') = true := fun c hc =>
    decide_eq_true (quotePlus_chars name c hc).2.2
  have htake : (quotePlus name ++ '=' :: quotePlus value).takeWhile (· ≠ '=') = quotePlus name := by
    rw [List.takeWhile_append_of_pos hname]
    simp
  have hdrop : (quotePlus name ++ '=' :: quotePlus value).dropWhile (· ≠ '=') =
      '=' :: quotePlus value := by
    rw [List.dropWhile_append_of_pos hname]
    simp
  unfold parsePair
  simp only [htake,hdrop,List.drop_one,List.tail_cons,unquotePlus_quotePlus]
  by_cases hvalue : value = ""
  · subst hvalue
    rw [if_pos rfl,if_neg]
    exact fun h => h.2 rfl
  · rw [if_neg hvalue,if_pos]
    exact ⟨by simp,fun h => hvalue (quotePlus_eq_nil h)⟩

/-- What a client writes into a query is read back from it, but for blank values. -/
theorem parseQsl_urlencode (pairs : List (String × String)) :
    parseQsl (urlencode pairs) = pairs.filter (fun p => p.2 ≠ "") := by
  cases hpairs : pairs with
  | nil => decide
  | cons p rest =>
    have hsplit : (urlencode pairs).splitOn '&' =
        pairs.map (fun p => quotePlus p.1 ++ '=' :: quotePlus p.2) := by
      apply List.splitOn_intercalate
      · intro part hpart hamp
        obtain ⟨p,_,rfl⟩ := List.mem_map.mp hpart
        rcases List.mem_append.mp hamp with h | h
        · exact (quotePlus_chars _ _ h).2.1 rfl
        · rcases List.mem_cons.mp h with h | h
          · exact absurd h (by decide)
          · exact (quotePlus_chars _ _ h).2.1 rfl
      · simp [hpairs]
    rw [← hpairs,parseQsl,hsplit,List.filterMap_map]
    rw [← List.filterMap_eq_filter]
    congr 1
    funext p
    rw [Function.comp_apply,parsePair_encoded]
    by_cases h : p.2 = ""
    · simp [h,Option.guard]
    · simp [h,Option.guard]

theorem mem_intercalate {α : Type} {sep : List α} {c : α} {parts : List (List α)}
    (h : c ∈ sep.intercalate parts) : c ∈ sep ∨ ∃ part ∈ parts, c ∈ part := by
  induction parts with
  | nil => simp at h
  | cons part parts ih =>
    cases parts with
    | nil => exact .inr ⟨part,by simp,by simpa using h⟩
    | cons next parts =>
      rw [List.intercalate_cons_cons] at h
      rcases List.mem_append.mp h with h | h
      · rcases List.mem_append.mp h with h | h
        · exact .inr ⟨part,by simp,h⟩
        · exact .inl h
      · refine (ih h).imp_right ?_
        rintro ⟨part',hpart',hc⟩
        exact ⟨part',List.mem_cons_of_mem part hpart',hc⟩

theorem urlencode_chars (pairs : List (String × String)) : ∀ c ∈ urlencode pairs, IsUrlChar c := by
  intro c hc
  rcases mem_intercalate hc with h | ⟨part,hpart,h⟩
  · obtain rfl := List.mem_singleton.mp h
    decide
  · obtain ⟨p,_,rfl⟩ := List.mem_map.mp hpart
    rcases List.mem_append.mp h with h | h
    · exact (quotePlus_chars _ _ h).1
    · rcases List.mem_cons.mp h with rfl | h
      · decide
      · exact (quotePlus_chars _ _ h).1

end RoundTrip

end Woodhouse.Transport
