import Woodhouse.Python.DumpsReadBack
import Woodhouse.Python.FloatTexts
import Woodhouse.Python.JsonGrammar
import Woodhouse.Python.JsonParts
import Woodhouse.Python.LoadedValues

namespace Woodhouse.Python
open Sql

/-- A number that JSON can write. -/
def IsFinite : Json → Prop
  | .float .nan => False
  | .float (.inf _) => False
  | _ => True

instance decidableFinite : DecidablePred IsFinite
  | .float .nan | .float (.inf _) => .isFalse id
  | .null | .bool _ | .int _ | .str _ | .arr _ | .obj _ | .float (.finite ..) => .isTrue trivial

section Strings
variable {s t : Str} {c : CodePoint}

theorem IsChars.append (hs : IsChars s) (ht : IsChars t) : IsChars (s ++ t) := by
  induction hs with
  | nil => exact ht
  | unescaped hc _ ih => exact .unescaped hc ih
  | escaped hc _ ih => exact .escaped hc ih
  | @unicode digits rest hlength hdigits _ ih =>
    rw [List.cons_append,List.cons_append,List.append_assoc]
    exact .unicode hlength hdigits ih

theorem isChars_unicodeEscape (n : ℕ) : IsChars (unicodeEscape n) := by
  have hhex : ∀ c ∈ hexDigits n, (hexDigit c).isSome := by
    intro c hc
    obtain ⟨d,hd,rfl⟩ := List.mem_map.mp hc
    have hlt : d < 16 := by
      simp only [List.mem_cons,List.not_mem_nil,or_false] at hd
      omega
    rw [hexDigit_digit hlt]
    rfl
  have hchars : IsChars (chr '\\' :: chr 'u' :: (hexDigits n ++ [])) := .unicode rfl hhex .nil
  rw [List.append_nil] at hchars
  exact hchars

theorem isChars_escape (c : CodePoint) : IsChars (escape c) := by
  have hshort : ∀ e, e ∈ str "\"\\/bfnrt" → IsChars [chr '\\',e] := fun e he => .escaped he .nil
  unfold escape
  split
  · exact hshort _ (by decide)
  split
  · exact hshort _ (by decide)
  split
  · exact hshort _ (by decide)
  split
  · exact hshort _ (by decide)
  split
  · exact hshort _ (by decide)
  split
  · exact hshort _ (by decide)
  split
  · exact hshort _ (by decide)
  split
  · rename_i hquote hslash _ _ _ _ _ hrange
    exact .unescaped ⟨hrange.1,fun h => hquote (Fin.ext h),fun h => hslash (Fin.ext h)⟩ .nil
  split
  · exact isChars_unicodeEscape c.val
  · exact (isChars_unicodeEscape _).append (isChars_unicodeEscape _)

theorem isStringText_dumpStr (s : Str) : IsStringText (dumpStr s) := by
  refine ⟨s.flatMap escape,rfl,?_⟩
  induction s with
  | nil => exact .nil
  | cons c s ih => exact (isChars_escape c).append ih

end Strings

section Numbers
variable {q : ℚ} {text : Str} {p : NumberParts}

theorem isNumberText_signed (negative : Bool) {whole frac exp : Str} (hwhole : IsWhole whole)
    (hfrac : frac = [] ∨ IsFracText frac) (hexp : exp = [] ∨ IsExpText exp) :
    IsNumberText (signed negative (whole ++ frac ++ exp)) := by
  cases negative with
  | true => exact ⟨str "-",whole,frac,exp,rfl,.inr rfl,hwhole,hfrac,hexp⟩
  | false => exact ⟨[],whole,frac,exp,rfl,.inl rfl,hwhole,hfrac,hexp⟩

theorem isNumberText_reprInt (i : Int) : IsNumberText (reprInt i) := by
  have h := isNumberText_signed (decide (i < 0)) (isWhole_decimal i.natAbs)
    (.inl rfl) (.inl rfl)
  rw [List.append_nil,List.append_nil,← reprInt_eq] at h
  exact h

theorem NumberParts.Valid.isNumberText (hp : p.Valid) (negative : Bool) :
    IsNumberText (signed negative p.text) := by
  refine isNumberText_signed negative hp.whole ?_ ?_
  · unfold fracText
    split
    · exact .inl rfl
    · rename_i hne
      exact .inr ⟨p.frac,rfl,hp.frac,hne⟩
  · cases hpower : p.power with
    | none => exact .inl rfl
    | some x =>
      obtain ⟨negativePower,digits⟩ := x
      obtain ⟨hdigits,hne⟩ := hp.power _ hpower
      refine .inr ?_
      cases negativePower with
      | true => exact ⟨chr 'e',str "-",digits,rfl,.inl rfl,.inr (.inl rfl),hdigits,hne⟩
      | false => exact ⟨chr 'e',str "+",digits,rfl,.inl rfl,.inr (.inr rfl),hdigits,hne⟩

theorem isNumberText_reprFloat (hf : IsFloat q) (hq : 0 ≤ q) (negative : Bool) :
    IsNumberText (reprFloat (.finite negative q)) := by
  obtain ⟨p,hvalid,_,htext,_⟩ := reprFloat_writes hf hq negative
  rw [htext]
  exact hvalid.isNumberText negative

end Numbers

section Containers
variable {texts : List Str} {text s t : Str} {entries : List (Str × Json)} {items : List Json}
  {v : Json}

theorem derives_elements (hne : texts ≠ []) (h : ∀ t ∈ texts, Derives .value t) :
    Derives .elements (commaSeparated texts) := by
  induction texts with
  | nil => exact absurd rfl hne
  | cons t rest ih =>
    obtain ⟨ht,hrest⟩ := List.forall_mem_cons.mp h
    rw [commaSeparated_cons]
    split
    · exact .element ht
    · rename_i hmore
      rw [← List.append_assoc]
      exact .elements ht (isToken_self (chr ',')) (ih hmore hrest)

theorem derives_members (hne : entries ≠ []) (h : ∀ e ∈ entries, Derives .value (dumps e.2)) :
    Derives .members (commaSeparated (entries.map (fun e => (memberOf e).written))) := by
  induction entries with
  | nil => exact absurd rfl hne
  | cons e rest ih =>
    obtain ⟨he,hrest⟩ := List.forall_mem_cons.mp h
    have hname := isStringText_dumpStr e.1
    rw [List.map_cons,commaSeparated_cons]
    split
    · exact .member hname (isToken_self (chr ':')) he
    · rename_i hmore
      rw [← List.append_assoc]
      exact .members hname (isToken_self (chr ':')) he (isToken_self (chr ','))
        (ih (fun hnil => hmore (by rw [hnil]; rfl)) hrest)

theorem derives_arr (h : ∀ v ∈ items, Derives .value (dumps v)) :
    Derives .value (dumps (.arr items)) := by
  rw [dumps,dumpItems_eq]
  by_cases hnil : items = []
  · subst hnil
    exact .emptyArray (isToken_self (chr '[')) (isToken_self (chr ']'))
  · refine .array (isToken_self (chr '[')) (derives_elements (by simpa using hnil) ?_)
      (isToken_self (chr ']'))
    intro t ht
    obtain ⟨v,hv,rfl⟩ := List.mem_map.mp ht
    exact h v hv

theorem derives_obj (h : ∀ e ∈ entries, Derives .value (dumps e.2)) :
    Derives .value (dumps (.obj entries)) := by
  rw [dumps_obj,List.map_map]
  by_cases hnil : entries = []
  · subst hnil
    rw [orderBy_nil]
    exact .emptyObject (isToken_self (chr '{')) (isToken_self (chr '\x7d'))
  · have hne : orderBy Prod.fst entries ≠ [] := by
      intro hempty
      have hlength := (orderBy_perm Prod.fst entries).length_eq
      rw [hempty] at hlength
      exact hnil (List.eq_nil_of_length_eq_zero hlength.symm)
    exact .object (isToken_self (chr '{')) (derives_members hne (fun e he => h e (mem_orderBy.mp he)))
      (isToken_self (chr '\x7d'))

/-- The strings of a text end in it. -/
def Closed (s : Str) : Prop := ∃ out, Unquotes s out

/-- Outside its strings a text has the first letter of `NaN` or of `Infinity`. -/
def Names (s : Str) : Prop := ∃ out, Unquotes s out ∧ ¬ NoNames out

theorem Names.closed (h : Names s) : Closed s := by
  obtain ⟨out,hout,_⟩ := h
  exact ⟨out,hout⟩

theorem Derives.closed {symbol : Symbol} (h : Derives symbol s) : Closed s := by
  obtain ⟨out,hout,_⟩ := h.unquotes
  exact ⟨out,hout⟩

theorem Names.not_text (h : Names s) : ¬ IsJsonText s := by
  intro htext
  obtain ⟨out,hout,hnames⟩ := h
  obtain ⟨out',hout',hsafe⟩ := htext.unquotes
  rw [hout.unique hout'] at hnames
  exact hnames hsafe

theorem Closed.append (hs : Closed s) (ht : Closed t) : Closed (s ++ t) := by
  obtain ⟨out,hs⟩ := hs
  obtain ⟨out',ht⟩ := ht
  exact ⟨out ++ out',hs.append ht⟩

theorem Names.appendLeft (hs : Names s) (ht : Closed t) : Names (s ++ t) := by
  obtain ⟨out,hs,hnames⟩ := hs
  obtain ⟨out',ht⟩ := ht
  exact ⟨out ++ out',hs.append ht,fun h => hnames (noNames_append_iff.mp h).1⟩

theorem Names.appendRight (hs : Closed s) (ht : Names t) : Names (s ++ t) := by
  obtain ⟨out,hs⟩ := hs
  obtain ⟨out',ht,hnames⟩ := ht
  exact ⟨out ++ out',hs.append ht,fun h => hnames (noNames_append_iff.mp h).2⟩

theorem closed_char {c : Char} (h : chr c ≠ chr '"') : Closed [chr c] :=
  ⟨[chr c],unquotes_plain (by simpa using h.symm)⟩

theorem closed_commaSeparated (h : ∀ t ∈ texts, Closed t) : Closed (commaSeparated texts) := by
  induction texts with
  | nil => exact ⟨[],fun _ => rfl⟩
  | cons t rest ih =>
    obtain ⟨ht,hrest⟩ := List.forall_mem_cons.mp h
    rw [commaSeparated_cons]
    split
    · exact ht
    · exact ht.append ((closed_char (by decide)).append (ih hrest))

theorem names_commaSeparated (h : ∀ t ∈ texts, Closed t) (hmem : text ∈ texts) (hnames : Names text) :
    Names (commaSeparated texts) := by
  induction texts with
  | nil => cases hmem
  | cons t rest ih =>
    obtain ⟨ht,hrest⟩ := List.forall_mem_cons.mp h
    rw [commaSeparated_cons]
    split
    · rename_i hnil
      subst hnil
      obtain rfl := List.mem_singleton.mp hmem
      exact hnames
    · have hcomma : Closed (str ",") := closed_char (by decide)
      rcases List.mem_cons.mp hmem with rfl | hmem
      · exact hnames.appendLeft (hcomma.append (closed_commaSeparated hrest))
      · exact (Names.appendRight hcomma (ih hrest hmem)).appendRight ht

end Containers

section Values
variable {v : Json}

theorem names_nan : Names (dumps (.float .nan)) :=
  ⟨str "NaN",unquotes_plain (by decide),fun h => h.1 (by decide)⟩

theorem names_inf (negative : Bool) : Names (dumps (.float (.inf negative))) := by
  cases negative with
  | true => exact ⟨str "-Infinity",unquotes_plain (by decide),fun h => h.2 (by decide)⟩
  | false => exact ⟨str "Infinity",unquotes_plain (by decide),fun h => h.2 (by decide)⟩

/-- A text of `json.dumps` is a JSON value, or it has the name of a number that JSON cannot write. -/
theorem dumps_text (hv : v.Every CanLoad) :
    v.Every IsFinite ∧ Derives .value (dumps v) ∨ ¬ v.Every IsFinite ∧ Names (dumps v) := by
  have hleaf : ∀ w : Json, (∀ items, w ≠ .arr items) → (∀ entries, w ≠ .obj entries) →
      IsFinite w → Derives .value (dumps w) →
      w.Every IsFinite ∧ Derives .value (dumps w) ∨ ¬ w.Every IsFinite ∧ Names (dumps w) :=
    fun w harr hobj hfinite hderives => .inl ⟨(every_leaf_iff harr hobj).mpr hfinite,hderives⟩
  induction v using Json.induct with
  | null => exact hleaf _ (by simp) (by simp) trivial (.word (by simp [dumps]))
  | bool b =>
    refine hleaf _ (by simp) (by simp) trivial (.word ?_)
    cases b <;> simp [dumps]
  | int i => exact hleaf _ (by simp) (by simp) trivial (.number (isNumberText_reprInt i))
  | str s => exact hleaf _ (by simp) (by simp) trivial (.string (isStringText_dumpStr s))
  | float x =>
    cases x with
    | nan => exact .inr ⟨fun h => h.here,names_nan⟩
    | inf negative => exact .inr ⟨fun h => h.here,names_inf negative⟩
    | finite negative q =>
      obtain ⟨hq,hf⟩ := hv.here
      exact hleaf _ (by simp) (by simp) trivial (.number (isNumberText_reprFloat hf hq negative))
  | arr items ih =>
    have ih := fun v hmem => ih v hmem ((every_arr_iff.mp hv).2 v hmem)
    by_cases hall : ∀ v ∈ items, v.Every IsFinite
    · have hderives : ∀ v ∈ items, Derives .value (dumps v) := by
        intro v hmem
        rcases ih v hmem with h | h
        · exact h.2
        · exact absurd (hall v hmem) h.1
      exact .inl ⟨every_arr_iff.mpr ⟨trivial,hall⟩,derives_arr hderives⟩
    · refine .inr ⟨fun h => hall (every_arr_iff.mp h).2,?_⟩
      push Not at hall
      obtain ⟨w,hw,hbad⟩ := hall
      have hclosed : ∀ t ∈ items.map dumps, Closed t := by
        intro t ht
        obtain ⟨v,hmem,rfl⟩ := List.mem_map.mp ht
        rcases ih v hmem with h | h
        · exact h.2.closed
        · exact h.2.closed
      have hnames : Names (dumps w) := by
        rcases ih w hw with h | h
        · exact absurd h.1 hbad
        · exact h.2
      rw [dumps,dumpItems_eq]
      exact (Names.appendRight (closed_char (by decide))
        (names_commaSeparated hclosed (List.mem_map_of_mem hw) hnames)).appendLeft
          (closed_char (by decide))
  | obj entries ih =>
    have ih := fun e hmem => ih e hmem ((every_obj_iff.mp hv).2 e hmem)
    by_cases hall : ∀ e ∈ entries, e.2.Every IsFinite
    · have hderives : ∀ e ∈ entries, Derives .value (dumps e.2) := by
        intro e hmem
        rcases ih e hmem with h | h
        · exact h.2
        · exact absurd (hall e hmem) h.1
      exact .inl ⟨every_obj_iff.mpr ⟨trivial,hall⟩,derives_obj hderives⟩
    · refine .inr ⟨fun h => hall (every_obj_iff.mp h).2,?_⟩
      push Not at hall
      obtain ⟨f,hf,hbad⟩ := hall
      have hname : ∀ e : Str × Json, Closed (dumpStr e.1 ++ str ":") :=
        fun e => (Derives.string (isStringText_dumpStr e.1)).closed.append (closed_char (by decide))
      have hclosed : ∀ t ∈ ((orderBy Prod.fst entries).map memberOf).map Member.written, Closed t := by
        intro t ht
        rw [List.map_map] at ht
        obtain ⟨e,hmem,rfl⟩ := List.mem_map.mp ht
        rcases ih e (mem_orderBy.mp hmem) with h | h
        · exact (hname e).append h.2.closed
        · exact (hname e).append h.2.closed
      have hnames : Names (memberOf f).written := by
        rcases ih f hf with h | h
        · exact absurd h.1 hbad
        · exact Names.appendRight (hname f) h.2
      rw [dumps_obj]
      exact (Names.appendRight (closed_char (by decide)) (names_commaSeparated hclosed
        (List.mem_map_of_mem (List.mem_map_of_mem (mem_orderBy.mpr hf))) hnames)).appendLeft
          (closed_char (by decide))

/-- What `json.loads` gave is written as JSON exactly when all its numbers are finite. -/
theorem isJsonText_dumps_iff (hv : v.Every CanLoad) : IsJsonText (dumps v) ↔ v.Every IsFinite := by
  rcases dumps_text hv with h | h
  · exact iff_of_true h.2.text h.1
  · exact iff_of_false h.2.not_text h.1

end Values

end Woodhouse.Python
