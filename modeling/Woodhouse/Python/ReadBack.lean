import Woodhouse.Python.DumpsUtf8

namespace Woodhouse.Python

/-- The decoder gets from `p` to `q` over a text, whatever comes after it. -/
def Reads (limit : Nat) (p : Decoder) (text : Str) (q : Decoder) : Prop :=
  ∀ rest, decodeFrom limit p (text ++ rest) = decodeFrom limit q rest

section Runs
variable {limit : Nat} {p q r : Decoder} {c : CodePoint} {s t : Str} {v : Json}

theorem Reads.nil (limit : Nat) (p : Decoder) : Reads limit p [] p := fun _ => rfl

theorem Reads.cons (h : p.step limit c = .ok q) (hrest : Reads limit q t r) :
    Reads limit p (c :: t) r := by
  intro rest
  rw [List.cons_append,decodeFrom,h]
  exact hrest rest

theorem Reads.one (h : p.step limit c = .ok q) : Reads limit p [c] q := .cons h (.nil limit q)

theorem Reads.append (h : Reads limit p s q) (hrest : Reads limit q t r) :
    Reads limit p (s ++ t) r := by
  intro rest
  rw [List.append_assoc,h,hrest]

/-- What stands behind a value without space: a separator, the end of a container or of the text. -/
def EndsValue (rest : Str) : Prop := ∀ c ∈ rest.head?, c = chr ',' ∨ c = chr ']' ∨ c = chr '\x7d'

/-- The decoder gets from `p` to `q` over a text that a value ends with. -/
def ReadsBefore (limit : Nat) (p : Decoder) (text : Str) (q : Decoder) : Prop :=
  ∀ rest, EndsValue rest → decodeFrom limit p (text ++ rest) = decodeFrom limit q rest

theorem Reads.before (h : Reads limit p s q) : ReadsBefore limit p s q := fun rest _ => h rest

theorem ReadsBefore.cons (h : p.step limit c = .ok q) (hrest : ReadsBefore limit q t r) :
    ReadsBefore limit p (c :: t) r := by
  intro rest hend
  rw [List.cons_append,decodeFrom,h]
  exact hrest rest hend

theorem Reads.appendBefore (h : Reads limit p s q) (hrest : ReadsBefore limit q t r) :
    ReadsBefore limit p (s ++ t) r := by
  intro rest hend
  rw [List.append_assoc,h,hrest rest hend]

theorem ReadsBefore.append (h : ReadsBefore limit p s q) (hend : EndsValue t) (hne : t ≠ [])
    (hrest : Reads limit q t r) : Reads limit p (s ++ t) r := by
  intro rest
  have hends : EndsValue (t ++ rest) := by
    cases t with
    | nil => exact absurd rfl hne
    | cons c t => exact hend
  rw [List.append_assoc,h _ hends,hrest]

/-- A text that is read up to the end of a value is the text of that value. -/
theorem ReadsBefore.decode (h : ReadsBefore limit {} s { mode := .done v }) :
    decodeFrom limit {} s = .ok v := by
  have hend := h [] (by simp [EndsValue])
  rw [List.append_nil] at hend
  rw [hend]
  rfl

end Runs

section Strings
variable {limit : Nat} {stack : List Frame} {isKey : Bool} {mode : Mode} {s : Str} {c h : CodePoint}

/-- The string that the decoder has read so far, with a high surrogate that still waits. -/
inductive Spelling (isKey : Bool) : Mode → Str → Prop where
  | chars (s : Str) : Spelling isKey (.string isKey s .chars) s
  | high (acc : Str) (h : CodePoint) : Spelling isKey (.string isKey acc (.high h)) (acc ++ [h])

theorem Spelling.step_plain (hs : Spelling isKey mode s) (hc : c ≠ chr '\\') :
    (⟨stack,mode⟩ : Decoder).step limit c = plainChar stack isKey s c := by
  cases hs with
  | chars => rfl
  | high acc h => exact if_neg hc

theorem Spelling.quote (hs : Spelling isKey mode s) :
    (⟨stack,mode⟩ : Decoder).step limit (chr '"') = endString stack isKey s := by
  rw [hs.step_plain (by decide)]
  rfl

theorem Spelling.plain (hs : Spelling isKey mode s) (hquote : c ≠ chr '"') (hslash : c ≠ chr '\\')
    (hc : 32 ≤ c.val) : Reads limit ⟨stack,mode⟩ [c] ⟨stack,.string isKey (s ++ [c]) .chars⟩ := by
  refine .one ?_
  rw [hs.step_plain hslash]
  unfold plainChar
  rw [if_neg hquote,if_neg hslash,if_neg (by omega)]

theorem Spelling.shortEscape {e : CodePoint} (hs : Spelling isKey mode s) (he : e ≠ chr 'u')
    (hc : escaped e = some c) :
    Reads limit ⟨stack,mode⟩ [chr '\\',e] ⟨stack,.string isKey (s ++ [c]) .chars⟩ := by
  have hlast : backslashed stack isKey s e = .ok ⟨stack,.string isKey (s ++ [c]) .chars⟩ := by
    unfold backslashed
    rw [if_neg he,hc]
  cases hs with
  | chars => exact .cons rfl (.one hlast)
  | high acc h =>
    refine .cons (q := ⟨stack,.string isKey acc (.highBackslash h)⟩) rfl (.one ?_)
    rw [← hlast]
    exact if_neg he

theorem hexDigit_digit {d : Nat} (h : d < 16) :
    hexDigit (Fin.ofNat 0x110000 (if d < 10 then 48 + d else 87 + d)) = some d := by
  unfold hexDigit
  split
  · rw [Fin.val_ofNat,Nat.mod_eq_of_lt (by omega),if_pos (by omega)]
    simp
  · rw [Fin.val_ofNat,Nat.mod_eq_of_lt (by omega),if_neg (by omega),if_pos (by omega)]
    simp

/-- An escape outside a pair stands for its number. -/
theorem reads_unicodeEscape {n : Nat} (hn : n < 0x10000) :
    Reads limit ⟨stack,.string isKey s .chars⟩ (unicodeEscape n) ⟨stack,endEscape isKey s n⟩ := by
  have hdigit : ∀ seen value d, d < 16 → (⟨stack,.string isKey s (.hex seen value)⟩ : Decoder).step
      limit (Fin.ofNat _ (if d < 10 then 48 + d else 87 + d)) = .ok ⟨stack,if seen = 3 then
        endEscape isKey s (16 * value + d) else .string isKey s (.hex (seen + 1) (16 * value + d))⟩ := by
    intro seen value d hd
    simp only [Decoder.step,stringChar,hexDigit_digit hd]
  refine .cons (q := ⟨stack,.string isKey s .backslash⟩) rfl ?_
  refine .cons (q := ⟨stack,.string isKey s (.hex 0 0)⟩) rfl ?_
  refine .cons (hdigit 0 0 _ (Nat.mod_lt _ (by decide))) ?_
  refine .cons (hdigit 1 _ _ (Nat.mod_lt _ (by decide))) ?_
  refine .cons (hdigit 2 _ _ (Nat.mod_lt _ (by decide))) ?_
  refine .one ((hdigit 3 _ _ (Nat.mod_lt _ (by decide))).trans ?_)
  have hvalue : 16 * (16 * (16 * (16 * 0 + n / 4096 % 16) + n / 256 % 16) + n / 16 % 16) + n % 16 =
      n := by
    omega
  rw [if_pos rfl,hvalue]

/-- An escape behind a high surrogate joins it, where it stands for a low one. -/
theorem reads_unicodeEscape_high {n : Nat} (hn : n < 0x10000) :
    Reads limit ⟨stack,.string isKey s (.high h)⟩ (unicodeEscape n)
      ⟨stack,if isLowSurrogate (Fin.ofNat _ n) then
        .string isKey (s ++ [joinSurrogates h (Fin.ofNat _ n)]) .chars
        else endEscape isKey (s ++ [h]) n⟩ := by
  have hdigit : ∀ seen value d, d < 16 →
      (⟨stack,.string isKey s (.highHex h seen value)⟩ : Decoder).step limit
        (Fin.ofNat _ (if d < 10 then 48 + d else 87 + d)) = .ok ⟨stack,if seen = 3 then
          if isLowSurrogate (Fin.ofNat _ (16 * value + d)) then
            .string isKey (s ++ [joinSurrogates h (Fin.ofNat _ (16 * value + d))]) .chars
          else endEscape isKey (s ++ [h]) (16 * value + d)
        else .string isKey s (.highHex h (seen + 1) (16 * value + d))⟩ := by
    intro seen value d hd
    simp only [Decoder.step,stringChar,hexDigit_digit hd]
  refine .cons (q := ⟨stack,.string isKey s (.highBackslash h)⟩) rfl ?_
  refine .cons (q := ⟨stack,.string isKey s (.highHex h 0 0)⟩) rfl ?_
  refine .cons (hdigit 0 0 _ (Nat.mod_lt _ (by decide))) ?_
  refine .cons (hdigit 1 _ _ (Nat.mod_lt _ (by decide))) ?_
  refine .cons (hdigit 2 _ _ (Nat.mod_lt _ (by decide))) ?_
  refine .one ((hdigit 3 _ _ (Nat.mod_lt _ (by decide))).trans ?_)
  have hvalue : 16 * (16 * (16 * (16 * 0 + n / 4096 % 16) + n / 256 % 16) + n / 16 % 16) + n % 16 =
      n := by
    omega
  rw [if_pos rfl,hvalue]

/-- The characters that both ways of writing escape with a backslash and a letter. -/
def IsShort (c : CodePoint) : Prop :=
  c = chr '"' ∨ c = chr '\\' ∨ c.val = 8 ∨ c.val = 12 ∨ c = chr '\n' ∨ c = chr '\r' ∨ c = chr '\t'

theorem Spelling.short (hs : Spelling isKey mode s) (hc : IsShort c) :
    Reads limit ⟨stack,mode⟩ (escape c) ⟨stack,.string isKey (s ++ [c]) .chars⟩ ∧
      escapeUtf8 c = escape c := by
  rcases hc with rfl | rfl | hc | hc | rfl | rfl | rfl
  · exact ⟨hs.shortEscape (by decide) (by decide),rfl⟩
  · exact ⟨hs.shortEscape (by decide) (by decide),rfl⟩
  · obtain rfl : c = Fin.ofNat _ 8 := Fin.ext hc
    exact ⟨hs.shortEscape (by decide) (by decide),rfl⟩
  · obtain rfl : c = Fin.ofNat _ 12 := Fin.ext hc
    exact ⟨hs.shortEscape (by decide) (by decide),rfl⟩
  · exact ⟨hs.shortEscape (by decide) (by decide),rfl⟩
  · exact ⟨hs.shortEscape (by decide) (by decide),rfl⟩
  · exact ⟨hs.shortEscape (by decide) (by decide),rfl⟩

theorem escapeUtf8_eq (hc : ¬ IsShort c) :
    escapeUtf8 c = if c.val < 32 then unicodeEscape c.val else [c] := by
  simp only [IsShort,not_or] at hc
  obtain ⟨h₁,h₂,h₃,h₄,h₅,h₆,h₇⟩ := hc
  simp [escapeUtf8,h₁,h₂,h₃,h₄,h₅,h₆,h₇]

theorem escape_eq (hc : ¬ IsShort c) : escape c =
    if 32 ≤ c.val ∧ c.val ≤ 126 then [c]
    else if c.val < 0x10000 then unicodeEscape c.val
    else unicodeEscape (0xD800 + (c.val - 0x10000) / 1024) ++
      unicodeEscape (0xDC00 + (c.val - 0x10000) % 1024) := by
  simp only [IsShort,not_or] at hc
  obtain ⟨h₁,h₂,h₃,h₄,h₅,h₆,h₇⟩ := hc
  simp [escape,h₁,h₂,h₃,h₄,h₅,h₆,h₇]

theorem endEscape_of_low {n : Nat} (hn : n < 0xD800 ∨ 0xDBFF < n) (hmax : n < 0x110000) :
    endEscape isKey s n = .string isKey (s ++ [⟨n,hmax⟩]) .chars := by
  have heq : (Fin.ofNat _ n : CodePoint) = ⟨n,hmax⟩ := Fin.ext (Nat.mod_eq_of_lt hmax)
  unfold endEscape
  rw [heq]
  refine if_neg ?_
  unfold isHighSurrogate
  simp only [decide_eq_true_eq]
  omega

/-- A character that is written as it is where JSON allows it is read back. -/
theorem reads_escapeUtf8 : Reads limit ⟨stack,.string isKey s .chars⟩ (escapeUtf8 c)
    ⟨stack,.string isKey (s ++ [c]) .chars⟩ := by
  by_cases hshort : IsShort c
  · obtain ⟨hreads,heq⟩ := (Spelling.chars s).short hshort
    rw [heq]
    exact hreads
  · rw [escapeUtf8_eq hshort]
    simp only [IsShort,not_or] at hshort
    split
    · rename_i hc
      have hreads : Reads limit ⟨stack,.string isKey s .chars⟩ (unicodeEscape c.val)
          ⟨stack,endEscape isKey s c.val⟩ := reads_unicodeEscape (by omega)
      rwa [endEscape_of_low (by omega) c.isLt] at hreads
    · exact (Spelling.chars s).plain hshort.1 hshort.2.1 (by omega)

theorem reads_charsUtf8 (t : Str) : Reads limit ⟨stack,.string isKey s .chars⟩ (t.flatMap escapeUtf8)
    ⟨stack,.string isKey (s ++ t) .chars⟩ := by
  induction t generalizing s with
  | nil =>
    rw [List.append_nil]
    exact .nil limit _
  | cons c t ih =>
    have hrest := ih (s := s ++ [c])
    rw [List.append_assoc] at hrest
    exact reads_escapeUtf8.append hrest

/-- A string with a character more; one behind a high surrogate may join it. -/
def joinLast (s : Str) (c : CodePoint) : Str :=
  match s.getLast? with
  | some h =>
    if isHighSurrogate h ∧ isLowSurrogate c then s.dropLast ++ [joinSurrogates h c] else s ++ [c]
  | none => s ++ [c]

/-- Only a high surrogate waits. -/
inductive Waiting (isKey : Bool) : Mode → Str → Prop where
  | chars (s : Str) (hs : ∀ h ∈ s.getLast?, isHighSurrogate h = false) :
      Waiting isKey (.string isKey s .chars) s
  | high (acc : Str) (h : CodePoint) (hh : isHighSurrogate h = true) :
      Waiting isKey (.string isKey acc (.high h)) (acc ++ [h])

theorem Waiting.spelling (hs : Waiting isKey mode s) : Spelling isKey mode s := by
  cases hs with
  | chars => exact .chars s
  | high acc h => exact .high acc h

theorem not_low_of_high (hc : isHighSurrogate c = true) : isLowSurrogate c = false := by
  unfold isHighSurrogate at hc
  unfold isLowSurrogate
  simp only [decide_eq_true_eq,decide_eq_false_iff_not] at hc ⊢
  omega

theorem joinLast_of_not_low (hc : isLowSurrogate c = false) : joinLast s c = s ++ [c] := by
  unfold joinLast
  split
  · rw [hc]
    simp
  · rfl

@[simp] theorem joinLast_concat : joinLast (s ++ [h]) c =
    if isHighSurrogate h ∧ isLowSurrogate c then s ++ [joinSurrogates h c] else s ++ [h] ++ [c] := by
  unfold joinLast
  rw [List.getLast?_concat,List.dropLast_concat]

theorem Waiting.endEscape (n : Nat) :
    Waiting isKey (endEscape isKey s n) (s ++ [Fin.ofNat _ n]) := by
  unfold Python.endEscape
  dsimp only
  split
  · rename_i hh
    exact .high s _ hh
  · rename_i hh
    refine .chars _ ?_
    intro h hlast
    rw [List.getLast?_concat,Option.mem_some_iff] at hlast
    rw [← hlast]
    simpa using hh

theorem Waiting.unicodeEscape (limit : Nat) (stack : List Frame) {n : Nat} (hs : Waiting isKey mode s) (hn : n < 0x10000) :
    ∃ next, Waiting isKey next (joinLast s (Fin.ofNat _ n)) ∧
      Reads limit ⟨stack,mode⟩ (unicodeEscape n) ⟨stack,next⟩ := by
  cases hs with
  | chars s hlast =>
    have heq : joinLast s (Fin.ofNat _ n) = s ++ [Fin.ofNat _ n] := by
      unfold joinLast
      split
      · rename_i h hh
        rw [hlast h hh]
        simp
      · rfl
    rw [heq]
    exact ⟨_,.endEscape n,reads_unicodeEscape hn⟩
  | high acc h hh =>
    refine ⟨_,?_,reads_unicodeEscape_high hn⟩
    rw [joinLast_concat]
    by_cases hlow : isLowSurrogate (Fin.ofNat _ n) = true
    · simp only [hh,hlow,and_self,if_true]
      refine .chars _ ?_
      intro j hj
      rw [List.getLast?_concat,Option.mem_some_iff] at hj
      rw [← hj]
      unfold isHighSurrogate joinSurrogates
      unfold isHighSurrogate at hh
      unfold isLowSurrogate at hlow
      simp only [decide_eq_true_eq,decide_eq_false_iff_not,Fin.val_ofNat] at hh hlow ⊢
      omega
    · rw [if_neg hlow,if_neg (fun h => hlow h.2)]
      exact .endEscape n

theorem joinSurrogates_split (hc : 0x10000 ≤ c.val) :
    joinSurrogates (Fin.ofNat _ (0xD800 + (c.val - 0x10000) / 1024))
      (Fin.ofNat _ (0xDC00 + (c.val - 0x10000) % 1024)) = c := by
  have hmax := c.isLt
  unfold joinSurrogates
  refine Fin.ext ?_
  simp only [Fin.val_ofNat]
  omega

/-- A character that is written in ASCII is read back, or joins the one before it. -/
theorem Waiting.escape (hs : Waiting isKey mode s) : ∃ next, Waiting isKey next (joinLast s c) ∧
    Reads limit ⟨stack,mode⟩ (escape c) ⟨stack,next⟩ := by
  have hplain : isSurrogate c = false →
      Reads limit ⟨stack,mode⟩ (Python.escape c) ⟨stack,.string isKey (s ++ [c]) .chars⟩ →
      ∃ next, Waiting isKey next (joinLast s c) ∧
        Reads limit ⟨stack,mode⟩ (Python.escape c) ⟨stack,next⟩ := by
    intro hc hreads
    unfold isSurrogate at hc
    simp only [decide_eq_false_iff_not] at hc
    refine ⟨_,?_,hreads⟩
    rw [joinLast_of_not_low (by simp only [isLowSurrogate,decide_eq_false_iff_not]; omega)]
    refine .chars _ ?_
    intro h hlast
    rw [List.getLast?_concat,Option.mem_some_iff] at hlast
    simp only [← hlast,isHighSurrogate,decide_eq_false_iff_not]
    omega
  by_cases hshort : IsShort c
  · refine hplain ?_ (hs.spelling.short hshort).1
    rcases hshort with rfl | rfl | hc | hc | rfl | rfl | rfl
    case inr.inr.inl => simp [isSurrogate,hc]
    case inr.inr.inr.inl => simp [isSurrogate,hc]
    all_goals rfl
  · by_cases hascii : 32 ≤ c.val ∧ c.val ≤ 126
    · refine hplain ?_ ?_
      · simp only [isSurrogate,decide_eq_false_iff_not]
        omega
      · rw [escape_eq hshort,if_pos hascii]
        simp only [IsShort,not_or] at hshort
        exact hs.spelling.plain hshort.1 hshort.2.1 hascii.1
    · rw [escape_eq hshort,if_neg hascii]
      split
      · rename_i hc
        have heq : (Fin.ofNat _ c.val : CodePoint) = c := Fin.ext (Nat.mod_eq_of_lt c.isLt)
        have hpoint := hs.unicodeEscape limit stack hc
        rwa [heq] at hpoint
      · -- above the surrogates a character is written as the pair that joins to it
        rename_i hc
        have hmax := c.isLt
        obtain ⟨middle,hmiddle,hfirst⟩ := hs.unicodeEscape limit stack
          (n := 0xD800 + (c.val - 0x10000) / 1024) (by omega)
        obtain ⟨next,hnext,hsecond⟩ := hmiddle.unicodeEscape limit stack
          (n := 0xDC00 + (c.val - 0x10000) % 1024) (by omega)
        refine ⟨next,?_,hfirst.append hsecond⟩
        have hhigh : isHighSurrogate
            (Fin.ofNat _ (0xD800 + (c.val - 0x10000) / 1024)) = true := by
          simp only [isHighSurrogate,decide_eq_true_eq,Fin.val_ofNat]
          omega
        have hlow : isLowSurrogate (Fin.ofNat _ (0xDC00 + (c.val - 0x10000) % 1024)) = true := by
          simp only [isLowSurrogate,decide_eq_true_eq,Fin.val_ofNat]
          omega
        rw [joinLast_of_not_low (not_low_of_high hhigh)] at hnext
        simp only [joinLast_concat,hhigh,hlow,and_self,if_true,joinSurrogates_split (Nat.le_of_not_lt hc)] at hnext
        rw [joinLast_of_not_low (by simp only [isLowSurrogate,decide_eq_false_iff_not]; omega)]
        exact hnext

theorem joinPairs_of_not_high (hc : isHighSurrogate c = false) :
    joinPairs (c :: s) = c :: joinPairs s := by
  cases s with
  | nil => rfl
  | cons d s => rw [joinPairs,if_neg (by rw [hc]; simp)]

theorem foldl_joinLast (s : Str) (h : CodePoint) (t : Str) :
    t.foldl joinLast (s ++ [h]) = s ++ joinPairs (h :: t) := by
  induction t generalizing s h with
  | nil => rfl
  | cons c t ih =>
    rw [List.foldl_cons,joinLast_concat,joinPairs]
    split
    · rename_i hpair
      rw [ih,joinPairs_of_not_high]
      obtain ⟨hh,hl⟩ := hpair
      unfold isHighSurrogate at hh
      unfold isLowSurrogate at hl
      unfold isHighSurrogate joinSurrogates
      simp only [decide_eq_true_eq,decide_eq_false_iff_not,Fin.val_ofNat] at hh hl ⊢
      omega
    · rw [ih,List.append_assoc]
      rfl

/-- A string that is written in ASCII is read back with its surrogate pairs joined. -/
theorem reads_chars (t : Str) : ∃ next, Waiting isKey next (joinPairs t) ∧
    Reads limit ⟨stack,.string isKey [] .chars⟩ (t.flatMap escape) ⟨stack,next⟩ := by
  have hrun : ∀ (t s : Str) (mode : Mode), Waiting isKey mode s →
      ∃ next, Waiting isKey next (t.foldl joinLast s) ∧
        Reads limit ⟨stack,mode⟩ (t.flatMap escape) ⟨stack,next⟩ := by
    intro t
    induction t with
    | nil => exact fun s mode hs => ⟨mode,hs,.nil limit _⟩
    | cons c t ih =>
      intro s mode hs
      obtain ⟨middle,hmiddle,hfirst⟩ := hs.escape (c := c)
      obtain ⟨next,hnext,hrest⟩ := ih _ middle hmiddle
      exact ⟨next,hnext,hfirst.append hrest⟩
  have hall := hrun t [] _ (.chars [] (by simp))
  cases t with
  | nil => exact hall
  | cons c t =>
    rw [List.foldl_cons] at hall
    have heq := foldl_joinLast [] c t
    rw [List.nil_append,List.nil_append] at heq
    rwa [show joinLast [] c = [c] from rfl,heq] at hall

end Strings

section Pairs
variable {s : Str}

/-- A lone high surrogate stands directly before a lone low one. -/
def HasSplitPair (s : Str) : Prop :=
  ∃ before high low rest, s = before ++ high :: low :: rest ∧ isHighSurrogate high = true ∧
    isLowSurrogate low = true

theorem joinPairs_length (s : Str) : (joinPairs s).length ≤ s.length := by
  induction s using joinPairs.induct with
  | case1 high low rest hpair ih =>
    rw [joinPairs,if_pos hpair]
    simp only [List.length_cons]
    omega
  | case2 high low rest hpair ih =>
    rw [joinPairs,if_neg hpair]
    simp only [List.length_cons] at ih ⊢
    omega
  | case3 s hs =>
    rw [joinPairs]
    exact hs

/-- Joining surrogate pairs changes exactly the strings that hold one. -/
theorem joinPairs_eq_iff (s : Str) : joinPairs s = s ↔ ¬ HasSplitPair s := by
  induction s using joinPairs.induct with
  | case1 high low rest hpair ih =>
    refine iff_of_false ?_ (not_not_intro ⟨[],high,low,rest,rfl,hpair⟩)
    rw [joinPairs,if_pos hpair]
    intro h
    have hlength := congrArg List.length h
    have hle := joinPairs_length rest
    simp only [List.length_cons] at hlength
    omega
  | case2 high low rest hpair ih =>
    rw [joinPairs,if_neg hpair,List.cons.injEq]
    simp only [true_and]
    rw [ih,not_iff_not]
    constructor
    · rintro ⟨before,h,l,tail,heq,hh,hl⟩
      exact ⟨high :: before,h,l,tail,by rw [heq]; rfl,hh,hl⟩
    · rintro ⟨before,h,l,tail,heq,hh,hl⟩
      cases before with
      | nil =>
        simp only [List.nil_append,List.cons.injEq] at heq
        obtain ⟨rfl,rfl,_⟩ := heq
        exact absurd ⟨hh,hl⟩ hpair
      | cons b before =>
        obtain ⟨_,htail⟩ := List.cons.inj heq
        exact ⟨before,h,l,tail,htail,hh,hl⟩
  | case3 s hs =>
    rw [joinPairs]
    · refine iff_of_true rfl ?_
      rintro ⟨before,h,l,tail,rfl,_,_⟩
      cases before with
      | nil => exact hs h l tail rfl
      | cons b before =>
        cases before with
        | nil => exact hs b h (l :: tail) rfl
        | cons d before => exact hs b d (before ++ h :: l :: tail) rfl
    · exact hs

instance decidableSplitPair (s : Str) : Decidable (HasSplitPair s) :=
  decidable_of_iff (joinPairs s ≠ s) (by rw [ne_eq,joinPairs_eq_iff,not_not])

theorem joinPairs_eq_nil : joinPairs s = [] ↔ s = [] := by
  cases s using joinPairs.fun_cases with
  | case1 high low rest hpair =>
    rw [joinPairs,if_pos hpair]
    simp
  | case2 high low rest hpair =>
    rw [joinPairs,if_neg hpair]
    simp
  | case3 s hs =>
    rw [joinPairs]
    exact hs

theorem joinPairs_ascii (h : isAscii s = true) : joinPairs s = s := by
  rw [joinPairs_eq_iff]
  rintro ⟨before,high,low,rest,rfl,hh,_⟩
  have hlt := isAscii_iff.mp h high (by simp)
  unfold isHighSurrogate at hh
  simp only [decide_eq_true_eq] at hh
  omega

end Pairs

section Values
variable {limit depth : Nat} {stack : List Frame} {done : Dict Json} {text body keyText key s k : Str}
  {v : Json}

/-- What stands between the quotes of a string. -/
def Spells (limit : Nat) (body s : Str) : Prop := ∀ stack isKey, ∃ next, Spelling isKey next s ∧
  Reads limit ⟨stack,.string isKey [] .chars⟩ body ⟨stack,next⟩

theorem spells_escape (limit : Nat) (t : Str) : Spells limit (t.flatMap escape) (joinPairs t) := by
  intro stack isKey
  obtain ⟨next,hnext,hreads⟩ := reads_chars t
  exact ⟨next,hnext.spelling,hreads⟩

theorem spells_escapeUtf8 (limit : Nat) (t : Str) : Spells limit (t.flatMap escapeUtf8) t :=
  fun _ _ => ⟨_,.chars t,reads_charsUtf8 t⟩

/-- The text of a value, which opens at most `depth` containers in one another. -/
def ReadsValue (limit depth : Nat) (text : Str) (v : Json) : Prop :=
  ∃ c rest, text = c :: rest ∧ isJsonSpace c = false ∧ c ≠ chr ']' ∧
    ∀ stack : List Frame, stack.length + depth ≤ limit →
      ∃ q, startValue limit stack c = .ok q ∧ ReadsBefore limit q rest ⟨stack,.done v⟩

/-- The text of a key. -/
def ReadsKey (limit : Nat) (text key : Str) : Prop := ∀ stack done k mode, mode = .firstKey ∨ mode = .key →
  Reads limit ⟨.entries done k :: stack,mode⟩ text ⟨.entries done key :: stack,.colon⟩

theorem endsValue_comma : EndsValue (str "," ++ s) := by
  rintro c ⟨⟩
  exact .inl rfl

theorem endsValue_bracket : EndsValue (str "]") := by
  rintro c ⟨⟩
  exact .inr (.inl rfl)

theorem endsValue_brace : EndsValue (str "\x7d") := by
  rintro c ⟨⟩
  exact .inr (.inr rfl)

theorem ReadsValue.value (h : ReadsValue limit depth text v) (hdepth : stack.length + depth ≤ limit) :
    ReadsBefore limit ⟨stack,.value⟩ text ⟨stack,.done v⟩ := by
  obtain ⟨c,rest,rfl,hspace,_,hread⟩ := h
  obtain ⟨q,hq,hrest⟩ := hread stack hdepth
  refine .cons (Eq.trans ?_ hq) hrest
  exact if_neg (by rw [hspace]; simp)

theorem ReadsValue.firstItem (h : ReadsValue limit depth text v)
    (hdepth : stack.length + depth ≤ limit) :
    ReadsBefore limit ⟨stack,.firstItem⟩ text ⟨stack,.done v⟩ := by
  obtain ⟨c,rest,rfl,hspace,hclose,hread⟩ := h
  obtain ⟨q,hq,hrest⟩ := hread stack hdepth
  refine .cons (Eq.trans ?_ hq) hrest
  exact (if_neg (by rw [hspace]; simp)).trans (if_neg hclose)

theorem readsValue_null (limit depth : Nat) : ReadsValue limit depth (str "null") .null :=
  ⟨_,_,rfl,by decide,by decide,fun _ _ => ⟨_,rfl,(Reads.cons rfl (.cons rfl (.one rfl))).before⟩⟩

theorem Spells.readsValue (h : Spells limit body s) (depth : Nat) :
    ReadsValue limit depth (str "\"" ++ body ++ str "\"") (.str s) := by
  refine ⟨chr '"',body ++ str "\"",rfl,by decide,by decide,?_⟩
  intro stack _
  obtain ⟨next,hnext,hreads⟩ := h stack false
  exact ⟨_,rfl,(hreads.append (.one hnext.quote)).before⟩

theorem Spells.readsKey (h : Spells limit body s) :
    ReadsKey limit (str "\"" ++ body ++ str "\"") s := by
  intro stack done k mode hmode
  obtain ⟨next,hnext,hreads⟩ := h (.entries done k :: stack) true
  have hquote : (⟨.entries done k :: stack,mode⟩ : Decoder).step limit (chr '"') =
      .ok ⟨.entries done k :: stack,.string true [] .chars⟩ := by
    rcases hmode with rfl | rfl
    · rfl
    · rfl
  exact .cons hquote (hreads.append (.one hnext.quote))

theorem commaSeparated_cons (t : Str) (rest : List Str) :
    commaSeparated (t :: rest) = if rest = [] then t else t ++ (str "," ++ commaSeparated rest) := by
  cases rest with
  | nil => simp [commaSeparated]
  | cons u rest => simp [commaSeparated,List.intersperse_cons_cons]

theorem startValue_array (h : stack.length < limit) :
    startValue limit stack (chr '[') = .ok ⟨.items [] :: stack,.firstItem⟩ := by
  unfold startValue
  rw [if_neg (by decide),if_neg (by decide),if_pos rfl,if_neg (by omega)]

theorem startValue_object (h : stack.length < limit) :
    startValue limit stack (chr '{') = .ok ⟨.entries [] [] :: stack,.firstKey⟩ := by
  unfold startValue
  rw [if_neg (by decide),if_pos rfl,if_neg (by omega)]

/-- The rest of an array, from a value on. -/
theorem reads_items {items : List (Str × Json)} {done : List Json} (hne : items ≠ [])
    (h : ∀ e ∈ items, ReadsValue limit depth e.1 e.2) (hdepth : stack.length + 1 + depth ≤ limit) :
    Reads limit ⟨.items done :: stack,.value⟩ (commaSeparated (items.map Prod.fst) ++ str "]")
      ⟨stack,.done (.arr (done ++ items.map Prod.snd))⟩ := by
  induction items generalizing done with
  | nil => exact absurd rfl hne
  | cons e rest ih =>
    obtain ⟨he,hrest⟩ := List.forall_mem_cons.mp h
    have hvalue : ReadsBefore limit ⟨.items done :: stack,.value⟩ e.1 ⟨.items done :: stack,.done e.2⟩ :=
      he.value hdepth
    rw [List.map_cons,commaSeparated_cons,List.map_cons]
    cases rest with
    | nil => exact hvalue.append endsValue_bracket (by simp [str]) (.one rfl)
    | cons f rest =>
      have hcomma : Reads limit ⟨.items done :: stack,.done e.2⟩ (str ",")
          ⟨.items (done ++ [e.2]) :: stack,.value⟩ := .one rfl
      have hall := hvalue.append endsValue_comma (by simp [str]) (hcomma.append (ih (by simp) hrest))
      rw [if_neg (by simp)]
      simpa [List.append_assoc] using hall

theorem readsValue_array {items : List (Str × Json)} (hne : items ≠ [])
    (h : ∀ e ∈ items, ReadsValue limit depth e.1 e.2) : ReadsValue limit (depth + 1)
      (str "[" ++ commaSeparated (items.map Prod.fst) ++ str "]") (.arr (items.map Prod.snd)) := by
  refine ⟨chr '[',commaSeparated (items.map Prod.fst) ++ str "]",rfl,by decide,by decide,?_⟩
  intro stack hdepth
  refine ⟨⟨.items [] :: stack,.firstItem⟩,startValue_array (by omega),?_⟩
  cases items with
  | nil => exact absurd rfl hne
  | cons e rest =>
    obtain ⟨he,hrest⟩ := List.forall_mem_cons.mp h
    have hvalue : ReadsBefore limit ⟨.items [] :: stack,.firstItem⟩ e.1 ⟨.items [] :: stack,.done e.2⟩ :=
      he.firstItem (by rw [List.length_cons]; omega)
    rw [List.map_cons,commaSeparated_cons,List.map_cons]
    cases rest with
    | nil => exact (hvalue.append endsValue_bracket (by simp [str]) (.one rfl)).before
    | cons f rest =>
      have hcomma : Reads limit ⟨.items [] :: stack,.done e.2⟩ (str ",")
          ⟨.items [e.2] :: stack,.value⟩ := .one rfl
      have hall := hvalue.append endsValue_comma (by simp [str])
        (hcomma.append (reads_items (by simp) hrest (by omega)))
      rw [if_neg (by simp)]
      exact Reads.before (by simpa [List.append_assoc] using hall)

/-- A key and a value of an object, each with its text. -/
structure Member where
  keyText : Str
  key : Str
  text : Str
  value : Json

def Member.written (m : Member) : Str := m.keyText ++ str ":" ++ m.text

def addMember (d : Dict Json) (m : Member) : Dict Json := d.set m.key m.value

structure Member.Readable (limit depth : Nat) (m : Member) : Prop where
  key : ReadsKey limit m.keyText m.key
  value : ReadsValue limit depth m.text m.value

theorem Member.Readable.reads {m : Member} {mode : Mode} (h : m.Readable limit depth)
    (hmode : mode = .firstKey ∨ mode = .key) (hdepth : stack.length + 1 + depth ≤ limit) :
    ReadsBefore limit ⟨.entries done k :: stack,mode⟩ m.written
      ⟨.entries done m.key :: stack,.done m.value⟩ := by
  have hcolon : Reads limit ⟨.entries done m.key :: stack,.colon⟩ (str ":")
      ⟨.entries done m.key :: stack,.value⟩ := .one rfl
  exact ((h.key stack done k mode hmode).append hcolon).appendBefore (h.value.value hdepth)

/-- The rest of an object, from a key on. -/
theorem reads_members {members : List Member} {mode : Mode} (hne : members ≠ [])
    (h : ∀ m ∈ members, m.Readable limit depth) (hmode : mode = .firstKey ∨ mode = .key)
    (hdepth : stack.length + 1 + depth ≤ limit) :
    Reads limit ⟨.entries done k :: stack,mode⟩
      (commaSeparated (members.map Member.written) ++ str "\x7d")
      ⟨stack,.done (.obj (members.foldl addMember done))⟩ := by
  induction members generalizing done k mode with
  | nil => exact absurd rfl hne
  | cons m rest ih =>
    obtain ⟨hm,hrest⟩ := List.forall_mem_cons.mp h
    have hmember : ReadsBefore limit ⟨.entries done k :: stack,mode⟩ m.written
        ⟨.entries done m.key :: stack,.done m.value⟩ := hm.reads hmode hdepth
    rw [List.map_cons,commaSeparated_cons,List.foldl_cons]
    cases rest with
    | nil => exact hmember.append endsValue_brace (by simp [str]) (.one rfl)
    | cons n rest =>
      have hcomma : Reads limit ⟨.entries done m.key :: stack,.done m.value⟩ (str ",")
          ⟨.entries (addMember done m) [] :: stack,.key⟩ := .one rfl
      have hall := hmember.append endsValue_comma (by simp [str]) (hcomma.append
        (ih (by simp) hrest (.inr rfl)))
      rw [if_neg (by simp)]
      simpa [List.append_assoc] using hall

theorem readsValue_object {members : List Member} (hne : members ≠ [])
    (h : ∀ m ∈ members, m.Readable limit depth) : ReadsValue limit (depth + 1)
      (str "\x7b" ++ commaSeparated (members.map Member.written) ++ str "\x7d")
      (.obj (members.foldl addMember [])) := by
  refine ⟨chr '{',commaSeparated (members.map Member.written) ++ str "\x7d",rfl,by decide,by decide,?_⟩
  intro stack hdepth
  exact ⟨_,startValue_object (by omega),(reads_members hne h (.inl rfl) (by omega)).before⟩

/-- A text that does not nest beyond the limit is read back. -/
theorem ReadsValue.decode (h : ReadsValue limit depth text v) (hdepth : depth ≤ limit) :
    decodeFrom limit {} text = .ok v :=
  ReadsBefore.decode (h.value (by simpa using hdepth))

end Values

end Woodhouse.Python
