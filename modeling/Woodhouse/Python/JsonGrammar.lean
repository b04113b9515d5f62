import Woodhouse.Python.NumberTexts

namespace Woodhouse.Python

/-- `ws = *( %x20 / %x09 / %x0A / %x0D )` -/
def IsWs (s : Str) : Prop := ∀ c ∈ s, c = chr ' ' ∨ c = chr '\t' ∨ c = chr '\n' ∨ c = chr '\r'

/-- A structural character between white space. -/
def IsToken (c : CodePoint) (s : Str) : Prop :=
  ∃ before after, s = before ++ c :: after ∧ IsWs before ∧ IsWs after

/-- `unescaped = %x20-21 / %x23-5B / %x5D-10FFFF` -/
def IsUnescaped (c : CodePoint) : Prop := 0x20 ≤ c.val ∧ c.val ≠ 0x22 ∧ c.val ≠ 0x5C

/-- `*char` -/
inductive IsChars : Str → Prop where
  | nil : IsChars []
  | unescaped {c : CodePoint} {rest : Str} (hc : IsUnescaped c) (hrest : IsChars rest) :
      IsChars (c :: rest)
  | escaped {c : CodePoint} {rest : Str} (hc : c ∈ str "\"\\/bfnrt") (hrest : IsChars rest) :
      IsChars (chr '\\' :: c :: rest)
  | unicode {digits rest : Str} (hlength : digits.length = 4)
      (hdigits : ∀ c ∈ digits, (hexDigit c).isSome) (hrest : IsChars rest) :
      IsChars (chr '\\' :: chr 'u' :: (digits ++ rest))

/-- `string = quotation-mark *char quotation-mark` -/
def IsStringText (s : Str) : Prop := ∃ body, s = chr '"' :: (body ++ [chr '"']) ∧ IsChars body

/-- `frac = decimal-point 1*DIGIT` -/
def IsFracText (s : Str) : Prop := ∃ digits, s = chr '.' :: digits ∧ IsDigits digits ∧ digits ≠ []

/-- `exp = e [ minus / plus ] 1*DIGIT` -/
def IsExpText (s : Str) : Prop := ∃ e sign digits, s = e :: (sign ++ digits) ∧
  (e = chr 'e' ∨ e = chr 'E') ∧ (sign = [] ∨ sign = str "-" ∨ sign = str "+") ∧
  IsDigits digits ∧ digits ≠ []

/-- `number = [ minus ] int [ frac ] [ exp ]` -/
def IsNumberText (s : Str) : Prop := ∃ sign whole frac exp, s = sign ++ whole ++ frac ++ exp ∧
  (sign = [] ∨ sign = str "-") ∧ IsWhole whole ∧ (frac = [] ∨ IsFracText frac) ∧
  (exp = [] ∨ IsExpText exp)

inductive Symbol where
  | value
  | elements
  | members

/-- The grammar of RFC 8259; an array is written from its elements, an object from its members. -/
inductive Derives : Symbol → Str → Prop where
  | word {s : Str} (h : s ∈ [str "false",str "null",str "true"]) : Derives .value s
  | number {s : Str} (h : IsNumberText s) : Derives .value s
  | string {s : Str} (h : IsStringText s) : Derives .value s
  | emptyArray {opening closing : Str} (hopen : IsToken (chr '[') opening)
      (hclose : IsToken (chr ']') closing) : Derives .value (opening ++ closing)
  | array {opening s closing : Str} (hopen : IsToken (chr '[') opening) (h : Derives .elements s)
      (hclose : IsToken (chr ']') closing) : Derives .value (opening ++ s ++ closing)
  | emptyObject {opening closing : Str} (hopen : IsToken (chr '{') opening)
      (hclose : IsToken (chr '}') closing) : Derives .value (opening ++ closing)
  | object {opening s closing : Str} (hopen : IsToken (chr '{') opening) (h : Derives .members s)
      (hclose : IsToken (chr '}') closing) : Derives .value (opening ++ s ++ closing)
  | element {s : Str} (h : Derives .value s) : Derives .elements s
  | elements {s comma rest : Str} (h : Derives .value s) (hcomma : IsToken (chr ',') comma)
      (hrest : Derives .elements rest) : Derives .elements (s ++ comma ++ rest)
  | member {name colon s : Str} (hname : IsStringText name) (hcolon : IsToken (chr ':') colon)
      (h : Derives .value s) : Derives .members (name ++ colon ++ s)
  | members {name colon s comma rest : Str} (hname : IsStringText name)
      (hcolon : IsToken (chr ':') colon) (h : Derives .value s) (hcomma : IsToken (chr ',') comma)
      (hrest : Derives .members rest) : Derives .members (name ++ colon ++ s ++ comma ++ rest)

/-- `JSON-text = ws value ws` -/
def IsJsonText (s : Str) : Prop :=
  ∃ before value after, s = before ++ value ++ after ∧ IsWs before ∧ Derives .value value ∧ IsWs after

theorem isWs_nil : IsWs [] := by
  intro c hc
  cases hc

theorem isToken_self (c : CodePoint) : IsToken c [c] := ⟨[],[],rfl,isWs_nil,isWs_nil⟩

theorem Derives.text {s : Str} (h : Derives .value s) : IsJsonText s :=
  ⟨[],s,[],by simp,isWs_nil,h,isWs_nil⟩

section Quotes
variable {s t out out' : Str} {c : CodePoint}

inductive Quoting where
  | outside
  | inside
  | escape

/-- What a text has outside its strings. -/
def unquoted : Quoting → Str → Str
  | _,[] => []
  | .outside,c :: rest =>
    if c = chr '"' then unquoted .inside rest else c :: unquoted .outside rest
  | .inside,c :: rest =>
    if c = chr '"' then unquoted .outside rest
    else if c = chr '\\' then unquoted .escape rest
    else unquoted .inside rest
  | .escape,_ :: rest => unquoted .inside rest

/-- The strings of a text end in it, and `out` stands outside them. -/
def Unquotes (s out : Str) : Prop :=
  ∀ rest, unquoted .outside (s ++ rest) = out ++ unquoted .outside rest

theorem Unquotes.append (hs : Unquotes s out) (ht : Unquotes t out') :
    Unquotes (s ++ t) (out ++ out') := by
  intro rest
  rw [List.append_assoc,hs,ht,List.append_assoc]

theorem unquotes_plain (h : chr '"' ∉ s) : Unquotes s s := by
  intro rest
  induction s with
  | nil => rfl
  | cons c s ih =>
    obtain ⟨hc,hs⟩ := not_or.mp (fun h' => h (List.mem_cons.mpr h'))
    rw [List.cons_append,unquoted,if_neg (Ne.symm hc),ih hs]
    rfl

theorem Unquotes.unique (h : Unquotes s out) (h' : Unquotes s out') : out = out' := by
  have heq := (h []).symm.trans (h' [])
  simpa [unquoted] using heq

theorem isChars_inside (h : IsChars s) (rest : Str) :
    unquoted .inside (s ++ chr '"' :: rest) = unquoted .outside rest := by
  have hskip : ∀ (t more : Str), (∀ c ∈ t, c ≠ chr '"' ∧ c ≠ chr '\\') →
      unquoted .inside (t ++ more) = unquoted .inside more := by
    intro t more ht
    induction t with
    | nil => rfl
    | cons c t ih =>
      obtain ⟨⟨hquote,hslash⟩,hrest⟩ := List.forall_mem_cons.mp ht
      rw [List.cons_append,unquoted,if_neg hquote,if_neg hslash,ih hrest]
  induction h with
  | nil => exact if_pos rfl
  | @unescaped c rest hc hrest ih =>
    have hne : c ≠ chr '"' ∧ c ≠ chr '\\' :=
      ⟨fun h => hc.2.1 (congrArg Fin.val h),fun h => hc.2.2 (congrArg Fin.val h)⟩
    rw [List.cons_append,unquoted,if_neg hne.1,if_neg hne.2,ih]
  | escaped hc hrest ih =>
    rw [List.cons_append,unquoted,if_neg (by decide),if_pos rfl,List.cons_append,unquoted,ih]
  | @unicode digits rest hlength hdigits hrest ih =>
    have hplain : ∀ c ∈ digits, c ≠ chr '"' ∧ c ≠ chr '\\' := by
      intro c hc
      have hhex := hdigits c hc
      constructor
      · rintro rfl
        exact absurd hhex (by decide)
      · rintro rfl
        exact absurd hhex (by decide)
    rw [List.cons_append,unquoted,if_neg (by decide),if_pos rfl,List.cons_append,unquoted,
      List.append_assoc,hskip digits _ hplain,ih]

theorem IsStringText.unquotes (h : IsStringText s) : Unquotes s [] := by
  obtain ⟨body,rfl,hbody⟩ := h
  intro rest
  rw [List.cons_append,unquoted,if_pos rfl,List.append_assoc]
  exact isChars_inside hbody rest

/-- Neither letter that begins a number outside JSON. -/
def NoNames (out : Str) : Prop := chr 'N' ∉ out ∧ chr 'I' ∉ out

theorem noNames_append_iff : NoNames (out ++ out') ↔ NoNames out ∧ NoNames out' := by
  unfold NoNames
  simp only [List.mem_append,not_or]
  exact and_and_and_comm

/-- A text without quotes and without those letters. -/
theorem unquotes_safe (h : ∀ c ∈ s, c ≠ chr '"' ∧ c ≠ chr 'N' ∧ c ≠ chr 'I') :
    ∃ out, Unquotes s out ∧ NoNames out :=
  ⟨s,unquotes_plain (fun hc => (h _ hc).1 rfl),fun hc => (h _ hc).2.1 rfl,fun hc => (h _ hc).2.2 rfl⟩

theorem safe_of_all
    (h : s.all (fun c => decide (c ≠ chr '"' ∧ c ≠ chr 'N' ∧ c ≠ chr 'I')) = true) :
    ∀ c ∈ s, c ≠ chr '"' ∧ c ≠ chr 'N' ∧ c ≠ chr 'I' :=
  fun c hc => of_decide_eq_true (List.all_eq_true.mp h c hc)

theorem isWs_safe (h : IsWs s) : ∀ c ∈ s, c ≠ chr '"' ∧ c ≠ chr 'N' ∧ c ≠ chr 'I' := by
  intro c hc
  rcases h c hc with rfl | rfl | rfl | rfl
  · decide
  · decide
  · decide
  · decide

theorem IsToken.unquotes (h : IsToken c s) (hc : c ≠ chr '"' ∧ c ≠ chr 'N' ∧ c ≠ chr 'I') :
    ∃ out, Unquotes s out ∧ NoNames out := by
  obtain ⟨before,after,rfl,hbefore,hafter⟩ := h
  refine unquotes_safe ?_
  intro d hd
  rcases List.mem_append.mp hd with hd | hd
  · exact isWs_safe hbefore d hd
  · rcases List.mem_cons.mp hd with rfl | hd
    · exact hc
    · exact isWs_safe hafter d hd

theorem isDigits_safe (h : IsDigits s) : ∀ c ∈ s, c ≠ chr '"' ∧ c ≠ chr 'N' ∧ c ≠ chr 'I' := by
  intro c hc
  have hdigit := h c hc
  refine ⟨?_,?_,?_⟩
  · rintro rfl
    exact absurd hdigit (by decide)
  · rintro rfl
    exact absurd hdigit (by decide)
  · rintro rfl
    exact absurd hdigit (by decide)

theorem IsNumberText.unquotes (h : IsNumberText s) : ∃ out, Unquotes s out ∧ NoNames out := by
  obtain ⟨sign,whole,frac,exp,rfl,hsign,hwhole,hfrac,hexp⟩ := h
  refine unquotes_safe ?_
  intro c hc
  simp only [List.mem_append] at hc
  rcases hc with ((hc | hc) | hc) | hc
  · rcases hsign with rfl | rfl
    · cases hc
    · rw [List.mem_singleton.mp hc]
      decide
  · exact isDigits_safe hwhole.isDigits c hc
  · rcases hfrac with rfl | ⟨digits,rfl,hdigits,_⟩
    · cases hc
    · rcases List.mem_cons.mp hc with rfl | hc
      · decide
      · exact isDigits_safe hdigits c hc
  · rcases hexp with rfl | ⟨e,sign,digits,rfl,he,hsign,hdigits,_⟩
    · cases hc
    · rcases List.mem_cons.mp hc with rfl | hc
      · rcases he with rfl | rfl
        · decide
        · decide
      · rcases List.mem_append.mp hc with hc | hc
        · rcases hsign with rfl | rfl | rfl
          · cases hc
          · rw [List.mem_singleton.mp hc]
            decide
          · rw [List.mem_singleton.mp hc]
            decide
        · exact isDigits_safe hdigits c hc

theorem unquotes_append (hs : ∃ out, Unquotes s out ∧ NoNames out)
    (ht : ∃ out, Unquotes t out ∧ NoNames out) : ∃ out, Unquotes (s ++ t) out ∧ NoNames out := by
  obtain ⟨out,hs,hsafe⟩ := hs
  obtain ⟨out',ht,hsafe'⟩ := ht
  exact ⟨out ++ out',hs.append ht,noNames_append_iff.mpr ⟨hsafe,hsafe'⟩⟩

theorem IsStringText.safe (h : IsStringText s) : ∃ out, Unquotes s out ∧ NoNames out :=
  ⟨[],h.unquotes,by simp [NoNames]⟩

/-- Outside its strings a JSON text has no capital letter that a number outside JSON begins with. -/
theorem Derives.unquotes {symbol : Symbol} (h : Derives symbol s) :
    ∃ out, Unquotes s out ∧ NoNames out := by
  induction h with
  | @word s h =>
    refine unquotes_safe ?_
    simp only [List.mem_cons,List.not_mem_nil,or_false] at h
    rcases h with rfl | rfl | rfl
    · exact safe_of_all (by decide)
    · exact safe_of_all (by decide)
    · exact safe_of_all (by decide)
  | number h => exact h.unquotes
  | string h => exact h.safe
  | emptyArray hopen hclose =>
    exact unquotes_append (hopen.unquotes (by decide)) (hclose.unquotes (by decide))
  | emptyObject hopen hclose =>
    exact unquotes_append (hopen.unquotes (by decide)) (hclose.unquotes (by decide))
  | array hopen _ hclose ih =>
    exact unquotes_append (unquotes_append (hopen.unquotes (by decide)) ih)
      (hclose.unquotes (by decide))
  | object hopen _ hclose ih =>
    exact unquotes_append (unquotes_append (hopen.unquotes (by decide)) ih)
      (hclose.unquotes (by decide))
  | element _ ih => exact ih
  | elements _ hcomma _ ih ihrest =>
    exact unquotes_append (unquotes_append ih (hcomma.unquotes (by decide))) ihrest
  | member hname hcolon _ ih =>
    exact unquotes_append (unquotes_append hname.safe (hcolon.unquotes (by decide))) ih
  | members hname hcolon _ hcomma _ ih ihrest =>
    exact unquotes_append (unquotes_append (unquotes_append
      (unquotes_append hname.safe (hcolon.unquotes (by decide))) ih)
      (hcomma.unquotes (by decide))) ihrest

theorem IsJsonText.unquotes (h : IsJsonText s) : ∃ out, Unquotes s out ∧ NoNames out := by
  obtain ⟨before,value,after,rfl,hbefore,hvalue,hafter⟩ := h
  exact unquotes_append (unquotes_append (unquotes_safe (isWs_safe hbefore)) hvalue.unquotes)
    (unquotes_safe (isWs_safe hafter))

end Quotes

end Woodhouse.Python
