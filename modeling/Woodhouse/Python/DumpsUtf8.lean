import Woodhouse.Python.Ascii

namespace Woodhouse.Python

/-- A character of a string that is written as it is where JSON allows it. -/
def escapeUtf8 (c : CodePoint) : Str :=
  if c = chr '"' then str "\\\""
  else if c = chr '\\' then str "\\\\"
  else if c.val = 8 then str "\\b"
  else if c.val = 12 then str "\\f"
  else if c = chr '\n' then str "\\n"
  else if c = chr '\r' then str "\\r"
  else if c = chr '\t' then str "\\t"
  else if c.val < 32 then unicodeEscape c.val
  else [c]

def dumpStrUtf8 (s : Str) : Str := str "\"" ++ s.flatMap escapeUtf8 ++ str "\""

mutual

/-- `json.dumps(v, separators=(",", ":"), ensure_ascii=False)`. -/
def dumpsUtf8 : Json → Str
  | .null => str "null"
  | .bool b => str (if b then "true" else "false")
  | .int i => reprInt i
  | .float x => reprFloat x
  | .str s => dumpStrUtf8 s
  | .arr items => str "[" ++ commaSeparated (dumpItemsUtf8 items) ++ str "]"
  | .obj entries => str "\x7b" ++ commaSeparated (dumpEntriesUtf8 entries) ++ str "\x7d"

def dumpItemsUtf8 : List Json → List Str
  | [] => []
  | v :: rest => dumpsUtf8 v :: dumpItemsUtf8 rest

def dumpEntriesUtf8 : List (Str × Json) → List Str
  | [] => []
  | (key,v) :: rest => (dumpStrUtf8 key ++ str ":" ++ dumpsUtf8 v) :: dumpEntriesUtf8 rest

end

theorem dumpItemsUtf8_eq (items : List Json) : dumpItemsUtf8 items = items.map (fun v => dumpsUtf8 v) := by
  induction items with
  | nil => rfl
  | cons v rest ih => rw [dumpItemsUtf8,List.map_cons,ih]

section Encoding

/-- How many bytes a string takes in UTF-8. -/
def byteLength (s : Str) : Nat := (s.flatMap utf8Bytes).length

@[simp] theorem byteLength_nil : byteLength [] = 0 := rfl

@[simp] theorem byteLength_append (s t : Str) : byteLength (s ++ t) = byteLength s + byteLength t := by
  unfold byteLength
  rw [List.flatMap_append,List.length_append]

/-- A string of Unicode scalar values. -/
def IsUnicode (s : Str) : Prop := ∀ c ∈ s, isSurrogate c = false

@[simp] theorem isUnicode_nil : IsUnicode [] := fun _ hc => nomatch hc

@[simp] theorem isUnicode_append {s t : Str} : IsUnicode (s ++ t) ↔ IsUnicode s ∧ IsUnicode t :=
  List.forall_mem_append

theorem isUnicode_of_isAscii {s : Str} (h : isAscii s = true) : IsUnicode s := by
  intro c hc
  have hlt := isAscii_iff.mp h c hc
  unfold isSurrogate
  simp only [decide_eq_false_iff_not]
  omega

/-- `s.encode("utf-8")` succeeds on the strings of Unicode scalar values. -/
theorem encodeUtf8_eq_ok {s : Str} {b : Bytes} :
    encodeUtf8 s = .ok b ↔ IsUnicode s ∧ s.flatMap utf8Bytes = b := by
  unfold encodeUtf8 IsUnicode
  by_cases h : s.any isSurrogate = true
  · rw [if_pos h]
    obtain ⟨c,hc,hs⟩ := List.any_eq_true.mp h
    refine iff_of_false (by simp) ?_
    rintro ⟨hall,_⟩
    rw [hall c hc] at hs
    cases hs
  · rw [if_neg h]
    have hall : ∀ c ∈ s, isSurrogate c = false := by
      intro c hc
      by_contra hs
      exact h (List.any_eq_true.mpr ⟨c,hc,by simpa using hs⟩)
    constructor
    · intro hb
      exact ⟨hall,Except.ok.inj hb⟩
    · intro hb
      exact congrArg Except.ok hb.2

theorem isUnicode_escapeUtf8 {c : CodePoint} (h : isSurrogate c = false) : IsUnicode (escapeUtf8 c) := by
  have hliteral : ∀ s : Str, isAscii s = true → IsUnicode s := fun s => isUnicode_of_isAscii
  unfold escapeUtf8
  repeat' split
  all_goals first | exact hliteral _ (by decide) | skip
  · exact hliteral _ (isAscii_unicodeEscape _)
  · intro d hd
    rw [List.mem_singleton.mp hd]
    exact h

theorem isUnicode_dumpStrUtf8 {s : Str} (h : IsUnicode s) : IsUnicode (dumpStrUtf8 s) := by
  have hquote : IsUnicode (str "\"") := isUnicode_of_isAscii (by decide)
  have hchars : IsUnicode (s.flatMap escapeUtf8) := by
    intro d hd
    obtain ⟨c,hc,hd⟩ := List.mem_flatMap.mp hd
    exact isUnicode_escapeUtf8 (h c hc) d hd
  unfold dumpStrUtf8
  simp [hquote,hchars]

/-- The texts joined are one comma longer each than without, less one. -/
theorem byteLength_commaSeparated {texts : List Str} (h : texts ≠ []) :
    byteLength (commaSeparated texts) + 1 = (texts.map (fun t => byteLength t + 1)).sum := by
  induction texts with
  | nil => exact absurd rfl h
  | cons t rest ih =>
    cases rest with
    | nil => simp [commaSeparated]
    | cons u rest =>
      have hcomma : byteLength (str ",") = 1 := by decide
      have hrest := ih (by simp)
      unfold commaSeparated at hrest ⊢
      rw [List.intersperse_cons_cons,List.flatten_cons,List.flatten_cons,byteLength_append,
        byteLength_append,hcomma,List.map_cons,List.sum_cons]
      omega

theorem isUnicode_commaSeparated {texts : List Str} :
    IsUnicode (commaSeparated texts) ↔ ∀ t ∈ texts, IsUnicode t := by
  induction texts with
  | nil => simp [commaSeparated]
  | cons t rest ih =>
    cases rest with
    | nil => simp [commaSeparated]
    | cons u rest =>
      have hcomma : IsUnicode (str ",") := isUnicode_of_isAscii (by decide)
      have hjoined : commaSeparated (t :: u :: rest) = t ++ (str "," ++ commaSeparated (u :: rest)) := by
        unfold commaSeparated
        rw [List.intersperse_cons_cons,List.flatten_cons,List.flatten_cons]
      rw [hjoined,isUnicode_append,isUnicode_append,ih]
      simp [hcomma]

end Encoding

section Texts

mutual

/-- Every string of a value, the keys of its objects included. -/
def texts : Json → List Str
  | .str s => [s]
  | .arr items => itemTexts items
  | .obj entries => entryTexts entries
  | _ => []

def itemTexts : List Json → List Str
  | [] => []
  | v :: rest => texts v ++ itemTexts rest

def entryTexts : List (Str × Json) → List Str
  | [] => []
  | (key,v) :: rest => key :: texts v ++ entryTexts rest

end

theorem texts_set {d : Dict Json} {key s : Str} {v : Json} (h : s ∈ entryTexts (d.set key v)) :
    s = key ∨ s ∈ texts v ∨ s ∈ entryTexts d := by
  induction d with
  | nil =>
    simp only [Dict.set,entryTexts,List.append_nil,List.mem_cons] at h
    exact h.imp_right .inl
  | cons entry rest ih =>
    obtain ⟨k,u⟩ := entry
    unfold Dict.set at h
    split at h
    · rename_i hk
      subst hk
      simp only [entryTexts,List.cons_append,List.mem_cons,List.mem_append] at h ⊢
      rcases h with h | h | h
      · exact .inl h
      · exact .inr (.inl h)
      · exact .inr (.inr (.inr (.inr h)))
    · simp only [entryTexts,List.cons_append,List.mem_cons,List.mem_append] at h ⊢
      rcases h with h | h | h
      · exact .inr (.inr (.inl h))
      · exact .inr (.inr (.inr (.inl h)))
      · rcases ih h with h | h | h
        · exact .inl h
        · exact .inr (.inl h)
        · exact .inr (.inr (.inr (.inr h)))

mutual

/-- A value whose strings are Unicode is written in Unicode. -/
theorem isUnicode_dumpsUtf8 (v : Json) (h : ∀ s ∈ texts v, IsUnicode s) : IsUnicode (dumpsUtf8 v) := by
  have hliteral : ∀ s : Str, isAscii s = true → IsUnicode s := fun s => isUnicode_of_isAscii
  cases v with
  | null => exact hliteral _ (by decide)
  | bool b => exact hliteral _ (by cases b <;> decide)
  | int i => exact hliteral _ (isAscii_reprInt i)
  | float x => exact hliteral _ (isAscii_reprFloat x)
  | str s =>
    apply isUnicode_dumpStrUtf8
    exact h s List.mem_cons_self
  | arr items =>
    have hopen := hliteral (str "[") (by decide)
    have hclose := hliteral (str "]") (by decide)
    unfold dumpsUtf8
    simp only [isUnicode_append,hopen,hclose,true_and,and_true,isUnicode_commaSeparated]
    exact isUnicode_dumpItemsUtf8 items h
  | obj entries =>
    have hopen := hliteral (str "\x7b") (by decide)
    have hclose := hliteral (str "\x7d") (by decide)
    unfold dumpsUtf8
    simp only [isUnicode_append,hopen,hclose,true_and,and_true,isUnicode_commaSeparated]
    exact isUnicode_dumpEntriesUtf8 entries h

theorem isUnicode_dumpItemsUtf8 (items : List Json) (h : ∀ s ∈ itemTexts items, IsUnicode s) :
    ∀ t ∈ dumpItemsUtf8 items, IsUnicode t := by
  cases items with
  | nil => exact fun t ht => nomatch ht
  | cons v rest =>
    rw [itemTexts,List.forall_mem_append] at h
    intro t ht
    rcases List.mem_cons.mp ht with rfl | ht
    · exact isUnicode_dumpsUtf8 v h.1
    · exact isUnicode_dumpItemsUtf8 rest h.2 t ht

theorem isUnicode_dumpEntriesUtf8 (entries : List (Str × Json))
    (h : ∀ s ∈ entryTexts entries, IsUnicode s) : ∀ t ∈ dumpEntriesUtf8 entries, IsUnicode t := by
  cases entries with
  | nil => exact fun t ht => nomatch ht
  | cons entry rest =>
    obtain ⟨key,v⟩ := entry
    rw [entryTexts,List.forall_mem_append,List.forall_mem_cons] at h
    obtain ⟨⟨hkey,hv⟩,hrest⟩ := h
    intro t ht
    rcases List.mem_cons.mp ht with rfl | ht
    · have hcolon : IsUnicode (str ":") := isUnicode_of_isAscii (by decide)
      rw [isUnicode_append,isUnicode_append]
      exact ⟨⟨isUnicode_dumpStrUtf8 hkey,hcolon⟩,isUnicode_dumpsUtf8 v hv⟩
    · exact isUnicode_dumpEntriesUtf8 rest hrest t ht

end

end Texts

end Woodhouse.Python
