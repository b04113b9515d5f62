import Woodhouse.Python.LongIntegers
import Woodhouse.Python.ReadBack

namespace Woodhouse.Python

/-- Only ASCII digits. -/
def IsDigits (s : Str) : Prop := ∀ c ∈ s, isDigit c = true

/-- The values of digits. -/
def digitValues (s : Str) : List Nat := s.map (fun c => c.val - 48)

/-- The whole part of a number: no zero leads it. -/
inductive IsWhole : Str → Prop where
  | zero : IsWhole (str "0")
  | digits {c : CodePoint} {rest : Str} (hc : isDigit c = true) (hne : c ≠ chr '0')
      (hrest : IsDigits rest) : IsWhole (c :: rest)

/-- The parts of a number without its sign; the digits behind the point may be missing, and so
may the power of ten. -/
structure NumberParts where
  whole : Str
  frac : Str
  power : Option (Bool × Str)

structure NumberParts.Valid (p : NumberParts) : Prop where
  whole : IsWhole p.whole
  frac : IsDigits p.frac
  power : ∀ x ∈ p.power, IsDigits x.2 ∧ x.2 ≠ []

def fracText (frac : Str) : Str := if frac = [] then [] else str "." ++ frac

def powerText : Option (Bool × Str) → Str
  | none => []
  | some (negative,digits) => str (if negative then "e-" else "e+") ++ digits

def NumberParts.text (p : NumberParts) : Str := p.whole ++ fracText p.frac ++ powerText p.power

def NumberParts.exponent (p : NumberParts) : Int :=
  match p.power with
  | none => 0
  | some (negative,digits) =>
    let n : Int := ofDigits (digitValues digits)
    if negative then -n else n

section Digits
variable {c : CodePoint} {s t : Str}

theorem digit_eq (hc : isDigit c = true) : digit c = some (c.val - 48) := by
  unfold isDigit digit at hc
  unfold digit
  split at hc
  · rename_i h
    rw [if_pos h]
  · cases hc

theorem isDigit_iff : isDigit c = true ↔ 48 ≤ c.val ∧ c.val ≤ 57 := by
  unfold isDigit digit
  split
  · rename_i h
    exact iff_of_true rfl h
  · rename_i h
    exact iff_of_false (by simp) h

theorem IsDigits.append (hs : IsDigits s) (ht : IsDigits t) : IsDigits (s ++ t) := by
  intro c hc
  rcases List.mem_append.mp hc with hc | hc
  · exact hs c hc
  · exact ht c hc

theorem IsDigits.subset (hs : IsDigits s) (h : t ⊆ s) : IsDigits t := fun c hc => hs c (h hc)

@[simp] theorem digitValues_append : digitValues (s ++ t) = digitValues s ++ digitValues t :=
  List.map_append

@[simp] theorem digitValues_length : (digitValues s).length = s.length := List.length_map _

theorem IsWhole.isDigits (h : IsWhole s) : IsDigits s := by
  cases h with
  | zero =>
    intro c hc
    rw [List.mem_singleton.mp hc]
    decide
  | digits hc hne hrest =>
    intro d hd
    rcases List.mem_cons.mp hd with rfl | hd
    · exact hc
    · exact hrest d hd

end Digits

section Reading
variable {limit : Nat} {stack : List Frame} {literal : Literal} {state : NumberState} {v : Json}
  {c : CodePoint} {s : Str}

/-- The end of a number, before what ends a value. -/
theorem readsBefore_endNumber (hstate : state = .zero ∨ state = .digits ∨ state = .frac ∨ state = .exp)
    (hend : endNumber literal state = .ok (v,false)) :
    ReadsBefore limit ⟨stack,.number literal state⟩ [] ⟨stack,.done v⟩ := by
  intro rest hrest
  rw [List.nil_append]
  cases rest with
  | nil =>
    simp only [decodeFrom,Decoder.finish,hend]
  | cons c rest =>
    have hleave : numberChar stack literal c state = afterValue stack v c := by
      have hdigit : digit c = none ∧ c ≠ chr '.' ∧ c ≠ chr 'e' ∧ c ≠ chr 'E' := by
        rcases hrest c rfl with rfl | rfl | rfl
        · decide
        · decide
        · decide
      obtain ⟨hdigit,hdot,hexp,hexp'⟩ := hdigit
      have hno : leaveNumber stack literal state c = afterValue stack v c := by
        unfold leaveNumber
        rw [hend]
      rw [← hno]
      rcases hstate with rfl | rfl | rfl | rfl
      · simp [numberChar,hdigit,hdot,hexp,hexp']
      · simp [numberChar,hdigit,hdot,hexp,hexp']
      · simp [numberChar,hdigit,hexp,hexp']
      · simp [numberChar,hdigit]
    simp only [decodeFrom,Decoder.step,hleave]

theorem reads_digits (hs : IsDigits s) : Reads limit ⟨stack,.number literal .digits⟩ s
    ⟨stack,.number { literal with digits := literal.digits ++ digitValues s } .digits⟩ := by
  induction s generalizing literal with
  | nil =>
    simp only [digitValues,List.map_nil,List.append_nil]
    exact .nil limit _
  | cons c s ih =>
    obtain ⟨hc,hs⟩ := List.forall_mem_cons.mp hs
    have hstep : (⟨stack,.number literal .digits⟩ : Decoder).step limit c = .ok
        ⟨stack,.number { literal with digits := literal.digits ++ [c.val - 48] } .digits⟩ := by
      simp [Decoder.step,numberChar,digit_eq hc]
    have hrest := @ih { literal with digits := literal.digits ++ [c.val - 48] } hs
    rw [List.append_assoc] at hrest
    exact .cons hstep hrest

theorem reads_frac (hs : IsDigits s) : Reads limit ⟨stack,.number literal .frac⟩ s
    ⟨stack,.number { literal with frac := literal.frac ++ digitValues s } .frac⟩ := by
  induction s generalizing literal with
  | nil =>
    simp only [digitValues,List.map_nil,List.append_nil]
    exact .nil limit _
  | cons c s ih =>
    obtain ⟨hc,hs⟩ := List.forall_mem_cons.mp hs
    have hstep : (⟨stack,.number literal .frac⟩ : Decoder).step limit c = .ok
        ⟨stack,.number { literal with frac := literal.frac ++ [c.val - 48] } .frac⟩ := by
      simp [Decoder.step,numberChar,digit_eq hc]
    have hrest := @ih { literal with frac := literal.frac ++ [c.val - 48] } hs
    rw [List.append_assoc] at hrest
    exact .cons hstep hrest

theorem reads_exp (hs : IsDigits s) : Reads limit ⟨stack,.number literal .exp⟩ s
    ⟨stack,.number { literal with expDigits := literal.expDigits ++ digitValues s } .exp⟩ := by
  induction s generalizing literal with
  | nil =>
    simp only [digitValues,List.map_nil,List.append_nil]
    exact .nil limit _
  | cons c s ih =>
    obtain ⟨hc,hs⟩ := List.forall_mem_cons.mp hs
    have hstep : (⟨stack,.number literal .exp⟩ : Decoder).step limit c = .ok
        ⟨stack,.number { literal with expDigits := literal.expDigits ++ [c.val - 48] } .exp⟩ := by
      simp [Decoder.step,numberChar,digit_eq hc]
    have hrest := @ih { literal with expDigits := literal.expDigits ++ [c.val - 48] } hs
    rw [List.append_assoc] at hrest
    exact .cons hstep hrest

/-- A whole part, from the first digit on. -/
theorem reads_whole (limit : Nat) (h : IsWhole s) (negative : Bool) : ∃ c rest state, s = c :: rest ∧
    isDigit c = true ∧ (state = .zero ∨ state = .digits) ∧
    ∀ stack, ∃ q, numberChar stack { negative } c .minus = .ok q ∧
      Reads limit q rest ⟨stack,.number { negative, digits := digitValues s } state⟩ := by
  cases h with
  | zero => exact ⟨_,_,.zero,rfl,by decide,.inl rfl,fun stack => ⟨_,rfl,.nil limit _⟩⟩
  | @digits c rest hc hne hrest =>
    refine ⟨c,rest,.digits,rfl,hc,.inr rfl,fun stack => ?_⟩
    have hpos : c.val - 48 ≠ 0 := by
      intro hzero
      have hrange := isDigit_iff.mp hc
      exact hne (Fin.ext (show c.val = 48 by omega))
    obtain ⟨d,hd⟩ := Nat.exists_eq_succ_of_ne_zero hpos
    have hstep : numberChar stack { negative } c .minus =
        .ok ⟨stack,.number { negative, digits := [c.val - 48] } .digits⟩ := by
      simp [numberChar,digit_eq hc,hd]
    exact ⟨_,hstep,reads_digits hrest⟩

/-- The point and the digits behind it. -/
theorem reads_fracText (hs : IsDigits s) (hne : s ≠ []) (hstate : state = .zero ∨ state = .digits)
    (hfrac : literal.frac = []) : Reads limit ⟨stack,.number literal state⟩ (fracText s)
      ⟨stack,.number { literal with frac := digitValues s } .frac⟩ := by
  cases s with
  | nil => exact absurd rfl hne
  | cons c s =>
    obtain ⟨hc,hs⟩ := List.forall_mem_cons.mp hs
    have hdot : (⟨stack,.number literal state⟩ : Decoder).step limit (chr '.') =
        .ok ⟨stack,.number literal .dot⟩ := by
      have hnot : digit (chr '.') = none := by decide
      rcases hstate with rfl | rfl
      · simp [Decoder.step,numberChar,hnot]
      · simp [Decoder.step,numberChar,hnot]
    have hfirst : (⟨stack,.number literal .dot⟩ : Decoder).step limit c = .ok
        ⟨stack,.number { literal with frac := [c.val - 48] } .frac⟩ := by
      simp [Decoder.step,numberChar,digit_eq hc,hfrac]
    have hrest := @reads_frac limit stack { literal with frac := [c.val - 48] } s hs
    unfold fracText
    rw [if_neg hne]
    exact .cons hdot (.cons hfirst hrest)

/-- The power of ten. -/
theorem reads_powerText (negative : Bool) (hs : IsDigits s) (hne : s ≠ [])
    (hstate : state = .zero ∨ state = .digits ∨ state = .frac) (hexp : literal.expDigits = []) :
    Reads limit ⟨stack,.number literal state⟩ (powerText (some (negative,s)))
      ⟨stack,.number { literal with expNegative := negative, expDigits := digitValues s } .exp⟩ := by
  cases s with
  | nil => exact absurd rfl hne
  | cons c s =>
    obtain ⟨hc,hs⟩ := List.forall_mem_cons.mp hs
    have he : (⟨stack,.number literal state⟩ : Decoder).step limit (chr 'e') =
        .ok ⟨stack,.number literal .e⟩ := by
      have hnot : digit (chr 'e') = none := by decide
      have hdot : chr 'e' ≠ chr '.' := by decide
      rcases hstate with rfl | rfl | rfl
      · simp [Decoder.step,numberChar,hnot,hdot]
      · simp [Decoder.step,numberChar,hnot,hdot]
      · simp [Decoder.step,numberChar,hnot]
    have hsign : (⟨stack,.number literal .e⟩ : Decoder).step limit
        (if negative then chr '-' else chr '+') =
        .ok ⟨stack,.number { literal with expNegative := negative } .expSign⟩ := by
      have hminus : digit (chr '-') = none := by decide
      have hplus : digit (chr '+') = none := by decide
      have hdiffer : chr '+' ≠ chr '-' := by decide
      cases negative with
      | true => simp [Decoder.step,numberChar,hminus]
      | false => simp [Decoder.step,numberChar,hplus,hdiffer]
    have hfirst : (⟨stack,.number { literal with expNegative := negative } .expSign⟩ : Decoder).step
        limit c = .ok ⟨stack,.number
          { literal with expNegative := negative, expDigits := [c.val - 48] } .exp⟩ := by
      simp [Decoder.step,numberChar,digit_eq hc,hexp]
    have hrest := @reads_exp limit stack
      { literal with expNegative := negative, expDigits := [c.val - 48] } s hs
    have htext : powerText (some (negative,c :: s)) =
        chr 'e' :: (if negative then chr '-' else chr '+') :: c :: s := by
      cases negative with
      | true => rfl
      | false => rfl
    rw [htext]
    exact .cons he (.cons hsign (.cons hfirst hrest))

end Reading

section Values
variable {limit depth : Nat} {text : Str} {v : Json} {p : NumberParts} {negative : Bool}

/-- The text of a number with its sign. -/
def signed (negative : Bool) (text : Str) : Str := if negative then chr '-' :: text else text

/-- A number is read from its sign, or from its first digit, on. -/
theorem readsValue_signed (h : ∃ c rest, text = c :: rest ∧ isDigit c = true ∧
      ∀ stack, ∃ q, numberChar stack { negative } c .minus = .ok q ∧
        ReadsBefore limit q rest ⟨stack,.done v⟩) :
    ReadsValue limit depth (signed negative text) v := by
  obtain ⟨c,rest,rfl,hc,hread⟩ := h
  cases negative with
  | true =>
    refine ⟨chr '-',c :: rest,rfl,by decide,by decide,fun stack _ => ?_⟩
    obtain ⟨q,hq,hrest⟩ := hread stack
    exact ⟨_,startValue_minus,.cons hq hrest⟩
  | false =>
    have hrange := isDigit_iff.mp hc
    refine ⟨c,rest,rfl,?_,?_,fun stack _ => ?_⟩
    · have hne : ∀ x, digit x = none → c ≠ x := by
        rintro x hx rfl
        rw [digit_eq hc] at hx
        cases hx
      simp [isJsonSpace,hne (chr ' ') (by decide),hne (chr '\t') (by decide),
        hne (chr '\n') (by decide),hne (chr '\r') (by decide)]
    · rintro rfl
      exact absurd hc (by decide)
    · obtain ⟨q,hq,hrest⟩ := hread stack
      exact ⟨q,(startValue_digit (digit_eq hc)).trans hq,hrest⟩

/-- Digits alone are an integer. -/
theorem readsValue_whole {i : Int} (h : IsWhole text)
    (hi : intOfDigits negative (digitValues text) = .ok i) :
    ReadsValue limit depth (signed negative text) (.int i) := by
  obtain ⟨c,rest,state,htext,hc,hstate,hread⟩ := reads_whole limit h negative
  refine readsValue_signed ⟨c,rest,htext,hc,fun stack => ?_⟩
  obtain ⟨q,hq,hrest⟩ := hread stack
  have hend : endNumber { negative, digits := digitValues text } state = .ok (.int i,false) := by
    rcases hstate with rfl | rfl
    · simp only [endNumber,hi]
      rfl
    · simp only [endNumber,hi]
      rfl
  have hstates : state = .zero ∨ state = .digits ∨ state = .frac ∨ state = .exp := by
    rcases hstate with rfl | rfl
    · exact .inl rfl
    · exact .inr (.inl rfl)
  have hall := hrest.appendBefore (readsBefore_endNumber hstates hend)
  rw [List.append_nil] at hall
  exact ⟨q,hq,hall⟩

/-- A point or a power of ten makes a float. -/
theorem NumberParts.readsValue (hp : p.Valid) (hfloat : p.frac ≠ [] ∨ p.power.isSome) :
    ReadsValue limit depth (signed negative p.text)
      (.float (floatOfLiteral negative (digitValues p.whole) (digitValues p.frac) p.exponent)) := by
  obtain ⟨whole,frac,power⟩ := p
  obtain ⟨c,rest,state,hwhole,hc,hstate,hread⟩ := reads_whole limit hp.whole negative
  simp only at hwhole
  subst hwhole
  refine readsValue_signed ⟨c,rest ++ fracText frac ++ powerText power,rfl,hc,fun stack => ?_⟩
  obtain ⟨q,hq,hrest⟩ := hread stack
  refine ⟨q,hq,?_⟩
  -- the state behind the digits, with or without a point
  obtain ⟨state',hstate',hfrac⟩ : ∃ state', (state' = .zero ∨ state' = .digits ∨ state' = .frac) ∧
      (frac ≠ [] → state' = .frac) ∧
      Reads limit ⟨stack,.number { negative, digits := digitValues (c :: rest) } state⟩ (fracText frac)
        ⟨stack,.number { negative, digits := digitValues (c :: rest), frac := digitValues frac }
          state'⟩ := by
    by_cases hnil : frac = []
    · subst hnil
      refine ⟨state,?_,by simp,.nil limit _⟩
      rcases hstate with rfl | rfl
      · exact .inl rfl
      · exact .inr (.inl rfl)
    · exact ⟨.frac,.inr (.inr rfl),fun _ => rfl,reads_fracText hp.frac hnil hstate rfl⟩
  obtain ⟨hlast,hfrac⟩ := hfrac
  have hbefore := hrest.append hfrac
  cases power with
  | none =>
    have hne : frac ≠ [] := by simpa using hfloat
    obtain rfl := hlast hne
    have hall := hbefore.appendBefore (readsBefore_endNumber (.inr (.inr (.inl rfl))) rfl)
    exact hall
  | some x =>
    obtain ⟨negativePower,digits⟩ := x
    obtain ⟨hdigits,hne⟩ := hp.power _ rfl
    have hpower := hbefore.append (reads_powerText negativePower hdigits hne hstate' rfl)
    have hall := hpower.appendBefore (readsBefore_endNumber (.inr (.inr (.inr rfl))) rfl)
    rw [List.append_nil] at hall
    exact hall

end Values

end Woodhouse.Python
