import Woodhouse.Python.Json
import Woodhouse.Python.Markers

namespace Woodhouse.Telemetry
open Python

section Patterns

def isAsciiUpper (c : CodePoint) : Bool := 65 ≤ c.val ∧ c.val ≤ 90

def isAsciiLower (c : CodePoint) : Bool := 97 ≤ c.val ∧ c.val ≤ 122

def isAsciiDigit (c : CodePoint) : Bool := 48 ≤ c.val ∧ c.val ≤ 57

/-- `\w`; which characters outside ASCII are alphanumeric is Unicode's to say. -/
def isWord (isAlnum : CodePoint → Bool) (c : CodePoint) : Bool :=
  if c.val < 128 then isAsciiUpper c || isAsciiLower c || isAsciiDigit c || decide (c = chr '_')
  else isAlnum c

/-- A capital letter of a VIN: not `I`, `O` or `Q`. -/
def isVinLetter (n : Nat) : Bool := 65 ≤ n ∧ n ≤ 90 ∧ n ≠ 73 ∧ n ≠ 79 ∧ n ≠ 81

def isAsciiVinChar (c : CodePoint) : Bool :=
  isVinLetter c.val || (isAsciiLower c && isVinLetter (c.val - 32)) || isAsciiDigit c

/-- `[A-HJ-NPR-Z0-9]` without regard to case: `ſ` is an `s` there, and the Kelvin sign a `k`. -/
def isVinChar (c : CodePoint) : Bool := isAsciiVinChar c || c.val = 0x17F || c.val = 0x212A

/-- `_VIN`. -/
def vinPattern : Regex := .seq .boundary (.seq (.times isVinChar 17) .boundary)

/-- `[A-Za-z0-9_-]`. -/
def isTokenChar (c : CodePoint) : Bool :=
  isAsciiUpper c || isAsciiLower c || isAsciiDigit c || decide (c = chr '_') || decide (c = chr '-')

def tokenPart : Regex := .seq (.char (fun c => c = chr '.')) (.atLeast 1 isTokenChar)

/-- `_TOKEN`. -/
def tokenPattern : Regex :=
  .seq .boundary (.seq (.seq (.literal (str "eyJ")) (.seq (.atLeast 8 isTokenChar)
    (.seq tokenPart (.optional tokenPart)))) .boundary)

end Patterns

def vinMarker : Str := bracketed (str "REDACTED_VIN")

def tokenMarker : Str := bracketed (str "REDACTED_TOKEN")

section Summary
variable (isAlnum : CodePoint → Bool)

/-- A text of Tesla's, as the summary shows it. -/
def safeText (vin text : Str) : Str :=
  -- `field.replace(vin, …)`: a VIN is not empty
  let text := (Regex.literal vin).sub (isWord isAlnum) vinMarker text
  let text := vinPattern.sub (isWord isAlnum) vinMarker text
  (tokenPattern.sub (isWord isAlnum) tokenMarker text).take 512

def safeField (vin : Str) : Json → Option Json
  | .str field => some (.str (safeText isAlnum vin field))
  | .int i => some (.int i)
  | .float x => some (.float x)
  | .bool b => some (.bool b)
  | _ => none

def summaryKeys : List Str := [str "created_at",str "error_name",str "error"]

def safeItem (vin : Str) (item : Dict Json) : Dict Json :=
  summaryKeys.filterMap (fun key =>
    (item.get key).bind (fun field => (safeField isAlnum vin field).map (fun v => (key,v))))

/-- The last twenty items of a list, of which those that are no dictionaries are left out. -/
def errorItems : Json → List (Dict Json)
  | .arr items => (items.drop (items.length - 20)).filterMap (fun
    | .obj item => some item
    | _ => none)
  | _ => []

/-- `_safe_error_summary(value, vin)`. -/
def safeErrorSummary (value : Json) (vin : Str) : List (Dict Json) :=
  (errorItems value).map (safeItem isAlnum vin)

def stringOf : Json → Option Str
  | .str s => some s
  | _ => none

/-- The strings of a summary. -/
def summaryStrings (summary : List (Dict Json)) : List Str :=
  summary.flatMap (fun item => item.filterMap (fun e => stringOf e.2))

/-- The texts that a summary shows. -/
def errorTexts (value : Json) : List Str :=
  (errorItems value).flatMap (fun item => summaryKeys.filterMap (fun key =>
    (item.get key).bind stringOf))

theorem summaryStrings_safe (vin : Str) (value : Json) :
    summaryStrings (safeErrorSummary isAlnum value vin) =
      (errorTexts value).map (safeText isAlnum vin) := by
  unfold summaryStrings safeErrorSummary errorTexts
  rw [List.flatMap_map,List.map_flatMap]
  refine List.flatMap_congr ?_
  intro item _
  unfold safeItem
  rw [List.filterMap_filterMap,List.map_filterMap]
  refine List.filterMap_congr ?_
  intro key _
  cases item.get key with
  | none => rfl
  | some field => cases field <;> rfl

end Summary

section Vins

def asciiLower (c : CodePoint) : CodePoint := if isAsciiUpper c then Fin.ofNat _ (c.val + 32) else c

/-- The same text but for the case of its letters. -/
def SameLetters (s t : Str) : Prop := s.map asciiLower = t.map asciiLower

instance (s t : Str) : Decidable (SameLetters s t) := inferInstanceAs (Decidable (_ = _))

/-- A vehicle's VIN. -/
def IsVin (vin : Str) : Prop := vin.length = 17 ∧ ∀ c ∈ vin, isAsciiVinChar c = true

instance (vin : Str) : Decidable (IsVin vin) :=
  @instDecidableAnd _ _ _ (List.decidableBAll (fun c => isAsciiVinChar c = true) vin)

variable (isAlnum : CodePoint → Bool)

/-- The pieces of a text between the VINs that are exact copies or stand alone. -/
def vinPieces (vin text : Str) : List Str :=
  ((Regex.literal vin).split (isWord isAlnum) text).flatMap
    (fun gap => vinPattern.split (isWord isAlnum) gap)

/-- The pieces of these between the tokens. -/
def tokenPieces (piece : Str) : List Str := tokenPattern.split (isWord isAlnum) piece

/-- How much of the summary the pieces before take, with the marker behind each. -/
def shownLength (marker : Str) (pieces : List Str) : Nat :=
  (pieces.map (fun p => p.length + marker.length)).sum

/-- Between the exact copies, the VINs that stand alone and the tokens, the VIN is part of a longer
word in another case, and the cut leaves it. -/
def Exposed (vin text : Str) : Prop :=
  ∃ earlier piece later before rest after a w b,
    vinPieces isAlnum vin text = earlier ++ piece :: later ∧
    tokenPieces isAlnum piece = before ++ rest :: after ∧ rest = a ++ w ++ b ∧ SameLetters w vin ∧
    (a.getLast?.any (isWord isAlnum) = true ∨ b.head?.any (isWord isAlnum) = true) ∧
    shownLength vinMarker (earlier.map (tokenPattern.sub (isWord isAlnum) tokenMarker)) +
      (shownLength tokenMarker before + a.length) + 17 ≤ 512

end Vins

section Patterns
variable {isAlnum : CodePoint → Bool} {vin w : Str}

theorem isWord_of_vinChar {c : CodePoint} (h : isAsciiVinChar c = true) : isWord isAlnum c = true := by
  unfold isAsciiVinChar isVinLetter isAsciiLower isAsciiDigit at h
  unfold isWord isAsciiUpper isAsciiLower isAsciiDigit
  simp only [Bool.or_eq_true,Bool.and_eq_true,decide_eq_true_eq] at h
  rw [if_pos (by omega)]
  simp only [Bool.or_eq_true,decide_eq_true_eq]
  omega

theorem asciiVinChar_of_lower {c d : CodePoint} (h : asciiLower c = asciiLower d)
    (hd : isAsciiVinChar d = true) : isAsciiVinChar c = true := by
  have hval := congrArg Fin.val h
  unfold asciiLower isAsciiUpper at hval
  unfold isAsciiVinChar isVinLetter isAsciiLower isAsciiDigit at hd ⊢
  simp only [Bool.or_eq_true,Bool.and_eq_true,decide_eq_true_eq] at hval hd ⊢
  have hc := c.isLt
  have hd' := d.isLt
  split at hval <;> split at hval
  all_goals try simp only [Fin.val_ofNat] at hval
  all_goals omega

theorem SameLetters.isVin (h : SameLetters w vin) (hvin : IsVin vin) : IsVin w := by
  have hlength := congrArg List.length h
  rw [List.length_map,List.length_map] at hlength
  refine ⟨hlength.trans hvin.1,?_⟩
  intro c hc
  have hmem : asciiLower c ∈ vin.map asciiLower := h ▸ List.mem_map_of_mem hc
  obtain ⟨d,hd,heq⟩ := List.mem_map.mp hmem
  exact asciiVinChar_of_lower heq.symm (hvin.2 d hd)

theorem vinPattern_consumes : vinPattern.Consumes (isWord isAlnum) :=
  (Regex.consumes_times _ isVinChar 16).before.after

theorem tokenPattern_consumes : tokenPattern.Consumes (isWord isAlnum) := by
  have hliteral : (Regex.literal (str "eyJ")).Consumes (isWord isAlnum) :=
    Regex.consumes_literal (List.cons_ne_nil _ _)
  exact hliteral.before.before.after

theorem vinPattern_rejects {c : CodePoint} (hp : isVinChar c = false)
    (hword : isWord isAlnum c = false) : vinPattern.Rejects (isWord isAlnum) c :=
  ⟨hword,Regex.rejects_times hp hword 17,hword⟩

theorem tokenPattern_rejects {c : CodePoint} (hp : isTokenChar c = false) (hdot : c ≠ chr '.')
    (hword : isWord isAlnum c = false) : tokenPattern.Rejects (isWord isAlnum) c := by
  have hpart : tokenPart.Rejects (isWord isAlnum) c :=
    ⟨decide_eq_false hdot,Regex.rejects_times hp hword 1,hp⟩
  have hliteral : (Regex.literal (str "eyJ")).Rejects (isWord isAlnum) c := by
    refine Regex.rejects_literal ?_ hword
    intro hc
    have hall : (str "eyJ").all isTokenChar = true := by decide
    rw [List.all_eq_true.mp hall c hc] at hp
    cases hp
  exact ⟨hword,⟨hliteral,⟨Regex.rejects_times hp hword 8,hp⟩,hpart,hpart,hword⟩,hword⟩

/-- A text between brackets is summarized piece by piece. -/
theorem vinPattern_sub_join (pieces : List Str) :
    vinPattern.sub (isWord isAlnum) vinMarker (join vinMarker pieces) =
      join vinMarker (pieces.map (fun p => vinPattern.sub (isWord isAlnum) vinMarker p)) :=
  Regex.sub_join vinPattern_consumes (vinPattern_rejects rfl rfl) (vinPattern_rejects rfl rfl) rfl rfl
    rfl pieces

theorem tokenPattern_sub_join (pieces : List Str) :
    tokenPattern.sub (isWord isAlnum) tokenMarker (join vinMarker pieces) =
      join vinMarker (pieces.map (fun p => tokenPattern.sub (isWord isAlnum) tokenMarker p)) :=
  Regex.sub_join tokenPattern_consumes (tokenPattern_rejects rfl (by decide) rfl)
    (tokenPattern_rejects rfl (by decide) rfl) rfl rfl rfl pieces

theorem split_ne_nil {r : Regex} {text : Str} : r.split (isWord isAlnum) text ≠ [] :=
  Regex.splitFrom_ne_nil r 0 none [] text

/-- What the three substitutions make of a text, before it is cut. -/
theorem substituted_pieces (vin text : Str) :
    tokenPattern.sub (isWord isAlnum) tokenMarker (vinPattern.sub (isWord isAlnum) vinMarker
      ((Regex.literal vin).sub (isWord isAlnum) vinMarker text)) =
    join vinMarker ((vinPieces isAlnum vin text).map
      (fun p => tokenPattern.sub (isWord isAlnum) tokenMarker p)) := by
  change tokenPattern.sub _ _ (vinPattern.sub _ _ (join vinMarker _)) = _
  rw [vinPattern_sub_join]
  change tokenPattern.sub _ _ (join vinMarker (List.map (fun p => join vinMarker _) _)) = _
  rw [← join_flatMap _ (fun _ => split_ne_nil),tokenPattern_sub_join]
  rfl

theorem IsVin.ne_nil (h : IsVin w) : w ≠ [] := by
  intro hnil
  rw [hnil] at h
  cases h.1

theorem IsVin.head_word (h : IsVin w) (t : Str) : (w ++ t).head?.any (isWord isAlnum) = true := by
  rw [List.head?_append,List.head?_eq_some_head h.ne_nil]
  simp [isWord_of_vinChar (h.2 _ (List.head_mem h.ne_nil))]

theorem IsVin.last_word (h : IsVin w) (s : Str) : (s ++ w).getLast?.any (isWord isAlnum) = true := by
  rw [List.getLast?_append,List.getLast?_eq_some_getLast h.ne_nil]
  simp [isWord_of_vinChar (h.2 _ (List.getLast_mem h.ne_nil))]

/-- A word of seventeen VIN characters is found where it stands alone. -/
theorem vinPattern_finds {previous : Option CodePoint} {rest : Str} (hw : IsVin w)
    (hprev : previous.any (isWord isAlnum) = false) (hrest : rest.head?.any (isWord isAlnum) = false) :
    vinPattern.ends (isWord isAlnum) ⟨previous,w ++ rest⟩ ≠ [] := by
  have hchars : ∀ c ∈ w, isVinChar c = true := by
    intro c hc
    unfold isVinChar
    rw [hw.2 c hc]
    rfl
  have hends : (Regex.times isVinChar w.length).ends (isWord isAlnum) ⟨previous,w ++ rest⟩ =
      [⟨w.getLast?.or previous,rest⟩] := Regex.ends_times hchars previous rest
  rw [hw.1] at hends
  have hopen : Regex.atBoundary (isWord isAlnum) ⟨previous,w ++ rest⟩ = true := by
    unfold Regex.atBoundary
    rw [hprev,hw.head_word]
    rfl
  have hclose : Regex.atBoundary (isWord isAlnum) ⟨w.getLast?.or previous,rest⟩ = true := by
    unfold Regex.atBoundary
    rw [hrest,List.getLast?_eq_some_getLast hw.ne_nil]
    simp [isWord_of_vinChar (hw.2 _ (List.getLast_mem hw.ne_nil))]
  simp only [vinPattern,Regex.ends,hopen,if_true,List.flatMap_singleton,hends,hclose]
  simp

theorem before_boundary {previous : Option CodePoint} {t : Str} (hw : IsVin w)
    (h : Regex.atBoundary (isWord isAlnum) ⟨previous,w ++ t⟩ = true) :
    previous.any (isWord isAlnum) = false := by
  unfold Regex.atBoundary at h
  rw [hw.head_word] at h
  simpa using h

theorem behind_boundary {s t : Str} (hw : IsVin w)
    (h : Regex.atBoundary (isWord isAlnum) ⟨(s ++ w).getLast?,t⟩ = true) :
    t.head?.any (isWord isAlnum) = false := by
  unfold Regex.atBoundary at h
  rw [hw.last_word] at h
  simpa using h

/-- What stands before a piece ends a match, so that no word goes on into it. -/
theorem piece_before {body : Regex} {u p v t : Str} (hw : IsVin w)
    (h : Regex.Piece (isWord isAlnum) (.seq .boundary (.seq body .boundary)) u p v)
    (hp : p ++ v = w ++ t) : u.getLast?.any (isWord isAlnum) = false := by
  rcases h.left with rfl | ⟨a,ha⟩
  · rfl
  · rw [hp] at ha
    exact before_boundary hw (Regex.ends_framed ha).2

theorem piece_behind {body : Regex} {u p v s : Str} (hw : IsVin w)
    (h : Regex.Piece (isWord isAlnum) (.seq .boundary (.seq body .boundary)) u p v)
    (hp : u ++ p = s ++ w) : v.head?.any (isWord isAlnum) = false := by
  rcases h.right with rfl | hne
  · rfl
  · rw [hp] at hne
    obtain ⟨b,hb⟩ := List.exists_mem_of_ne_nil _ hne
    exact behind_boundary hw (Regex.ends_framed hb).1

/-- In a piece that is left, a copy of the VIN is never a word of its own. -/
theorem not_alone {text piece rest a b : Str} (hw : IsVin w) (hpiece : piece ∈ vinPieces isAlnum vin text)
    (hrest : rest ∈ tokenPieces isAlnum piece) (heq : rest = a ++ w ++ b) :
    a.getLast?.any (isWord isAlnum) = true ∨ b.head?.any (isWord isAlnum) = true := by
  obtain ⟨gap,_,hgap⟩ := List.mem_flatMap.mp hpiece
  obtain ⟨u',v',_,houter⟩ := Regex.mem_split vinPattern_consumes hgap
  obtain ⟨u,v,hsplit,hinner⟩ := Regex.mem_split tokenPattern_consumes hrest
  by_contra hno
  rw [not_or,Bool.not_eq_true,Bool.not_eq_true] at hno
  obtain ⟨ha,hb⟩ := hno
  have hprev : (u' ++ (u ++ a)).getLast?.any (isWord isAlnum) = false := by
    by_cases hanil : a = []
    · subst hanil
      rw [List.append_nil]
      by_cases hunil : u = []
      · subst hunil
        rw [List.append_nil]
        exact piece_before hw houter (t := b ++ v ++ v') (by rw [hsplit,heq]; simp)
      · rw [List.getLast?_append_of_ne_nil _ hunil]
        exact piece_before hw hinner (t := b ++ v) (by rw [heq]; simp)
    · rw [List.getLast?_append_of_ne_nil _ (by simp [hanil]),List.getLast?_append_of_ne_nil _ hanil]
      exact ha
  have hnext : (b ++ v ++ v').head?.any (isWord isAlnum) = false := by
    by_cases hbnil : b = []
    · subst hbnil
      rw [List.nil_append]
      by_cases hvnil : v = []
      · subst hvnil
        rw [List.nil_append]
        exact piece_behind hw houter (s := u' ++ u ++ a) (by rw [hsplit,heq]; simp)
      · rw [List.head?_append_of_ne_nil _ hvnil]
        exact piece_behind hw hinner (s := u ++ a) (by rw [heq]; simp)
    · rw [List.append_assoc,List.head?_append_of_ne_nil _ hbnil]
      exact hb
  have hfound := vinPattern_finds hw hprev hnext
  obtain ⟨c,w',hcw⟩ := List.exists_cons_of_ne_nil hw.ne_nil
  have hquiet := houter.quiet (u ++ a) c (w' ++ b ++ v) (by rw [hsplit,heq,hcw]; simp)
  rw [hcw] at hfound
  refine hfound ?_
  simpa using hquiet

end Patterns

section Exposure
variable {isAlnum : CodePoint → Bool} {vin w text : Str}

theorem IsVin.no_bracket (h : IsVin w) : chr '[' ∉ w ∧ chr ']' ∉ w := by
  constructor
  · intro hc
    exact absurd (h.2 _ hc) (by decide)
  · intro hc
    exact absurd (h.2 _ hc) (by decide)

theorem IsVin.not_within (h : IsVin w) {inner : Str} (hlen : inner.length < 17) : ¬ w <:+: inner := by
  intro hin
  have hle := hin.length_le
  rw [h.1] at hle
  omega

/-- Where a VIN stands among pieces with markers between them. -/
theorem occursAt_pieces (hw : IsVin w) {inner : Str} (hlen : inner.length < 17) {i : Nat}
    {pieces : List Str} : OccursAt w i (join (bracketed inner) pieces) ↔
      ∃ earlier piece later j, pieces = earlier ++ piece :: later ∧ OccursAt w j piece ∧
        i = shownLength (bracketed inner) earlier + j :=
  occursAt_join hw.ne_nil hw.no_bracket.1 hw.no_bracket.2 (hw.not_within hlen)

/-- A text of the summary shows the VIN in some case exactly where the VIN is exposed. -/
theorem safeText_shows_iff (hvin : IsVin vin) :
    (∃ w, SameLetters w vin ∧ w <:+: safeText isAlnum vin text) ↔ Exposed isAlnum vin text := by
  constructor
  · rintro ⟨w,hsame,hin⟩
    have hw := hsame.isVin hvin
    have hcut : w <:+: (join vinMarker ((vinPieces isAlnum vin text).map
        (fun p => tokenPattern.sub (isWord isAlnum) tokenMarker p))).take 512 := by
      rw [← substituted_pieces]
      exact hin
    obtain ⟨i,hi,hle⟩ := (infix_take.mp hcut).resolve_left hw.ne_nil
    obtain ⟨earlier',shown,later',j,hpieces,hj,rfl⟩ := (occursAt_pieces hw (by decide)).mp hi
    obtain ⟨earlier,back,hsplit,rfl,hback⟩ := List.map_eq_append_iff.mp hpieces
    obtain ⟨piece,later,rfl,rfl,rfl⟩ := List.map_eq_cons_iff.mp hback
    obtain ⟨before,rest,after,k,hrest,⟨a,b,rfl,rfl⟩,rfl⟩ :=
      (occursAt_pieces hw (by decide)).mp hj
    refine ⟨earlier,piece,later,before,_,after,a,w,b,hsplit,hrest,rfl,hsame,?_,?_⟩
    · have hpiece : piece ∈ vinPieces isAlnum vin text := by
        rw [hsplit]
        simp
      exact not_alone hw hpiece (by rw [tokenPieces,hrest]; simp) rfl
    · rw [hw.1] at hle
      exact hle
  · rintro ⟨earlier,piece,later,before,rest,after,a,w,b,hsplit,hrest,rfl,hsame,_,hle⟩
    have hw := hsame.isVin hvin
    have hinner : OccursAt w (shownLength tokenMarker before + a.length)
        (tokenPattern.sub (isWord isAlnum) tokenMarker piece) :=
      (occursAt_pieces hw (by decide)).mpr ⟨before,_,after,a.length,hrest,⟨a,b,rfl,rfl⟩,rfl⟩
    have houter : OccursAt w (shownLength vinMarker
        (earlier.map (tokenPattern.sub (isWord isAlnum) tokenMarker)) +
          (shownLength tokenMarker before + a.length))
        (join vinMarker ((vinPieces isAlnum vin text).map
          (fun p => tokenPattern.sub (isWord isAlnum) tokenMarker p))) := by
      refine (occursAt_pieces hw (by decide)).mpr ⟨_,_,
        later.map (tokenPattern.sub (isWord isAlnum) tokenMarker),_,?_,hinner,rfl⟩
      rw [hsplit,List.map_append,List.map_cons]
    refine ⟨w,hsame,?_⟩
    rw [← substituted_pieces] at houter
    exact infix_take.mpr (Or.inr ⟨_,houter,by rw [hw.1]; exact hle⟩)

variable (isAlnum) in
/-- `_safe_error_summary` keeps the VIN to itself in every letter case exactly where no text under
its keys exposes it. -/
theorem safeErrorSummary_hides_iff (hvin : IsVin vin) (value : Json) :
    (∀ s ∈ summaryStrings (safeErrorSummary isAlnum value vin), ∀ w, SameLetters w vin → ¬ w <:+: s) ↔
      ∀ text ∈ errorTexts value, ¬ Exposed isAlnum vin text := by
  rw [summaryStrings_safe]
  constructor
  · intro h text htext hexposed
    obtain ⟨w,hsame,hin⟩ := (safeText_shows_iff hvin).mpr hexposed
    exact h _ (List.mem_map_of_mem htext) w hsame hin
  · intro h s hs w hsame hin
    obtain ⟨text,htext,rfl⟩ := List.mem_map.mp hs
    exact h text htext ((safeText_shows_iff hvin).mp ⟨w,hsame,hin⟩)

def sampleVin : Str := str "5YJ3E1EA7KF000001"

/-- A list of one error, whose text has the VIN in small letters behind a letter. -/
def sampleErrors : Json := .arr [.obj [(str "error",.str (str "v5yj3e1ea7kf000001"))]]

theorem safeErrorSummary_hides_iff_sample :
    IsVin sampleVin ∧ ((∀ s ∈ summaryStrings (safeErrorSummary (fun _ => false) sampleErrors sampleVin),
      ∀ w, SameLetters w sampleVin → ¬ w <:+: s) ↔
        ∀ text ∈ errorTexts sampleErrors, ¬ Exposed (fun _ => false) sampleVin text) :=
  ⟨by decide,safeErrorSummary_hides_iff (fun _ => false) (by decide) sampleErrors⟩

/-- The summary shows a VIN that Tesla writes in small letters behind a letter. -/
theorem small_letters_shown : ∃ s ∈ summaryStrings
    (safeErrorSummary (fun _ => false) sampleErrors sampleVin),
      SameLetters (str "5yj3e1ea7kf000001") sampleVin ∧ str "5yj3e1ea7kf000001" <:+: s := by
  refine ⟨str "v5yj3e1ea7kf000001",by decide,by decide,⟨str "v",[],by decide⟩⟩

end Exposure

end Woodhouse.Telemetry
