import Woodhouse.Python.Nesting

namespace Woodhouse.Python

def isDigit (c : CodePoint) : Bool := (digit c).isSome

def leadsDigit : Str → Bool
  | c :: _ => isDigit c
  | [] => false

/-- `\.\d` -/
def leadsFraction : Str → Bool
  | c :: rest => decide (c = chr '.') && leadsDigit rest
  | [] => false

/-- `[-+]?\d` -/
def leadsPower : Str → Bool
  | c :: rest => isDigit c || (decide (c = chr '+' ∨ c = chr '-') && leadsDigit rest)
  | [] => false

/-- `[eE][-+]?\d` -/
def leadsExponent : Str → Bool
  | c :: rest => decide (c = chr 'e' ∨ c = chr 'E') && leadsPower rest
  | [] => false

/-- Neither a fraction nor an exponent makes the number before the text a float. -/
def EndsInteger (s : Str) : Prop := leadsFraction s = false ∧ leadsExponent s = false

/-- After `n` digits the text goes on to an integer that `int()` does not convert. -/
def LongRun (n : Nat) (s : Str) : Prop :=
  maxStrDigits < n + (s.takeWhile isDigit).length ∧ EndsInteger (s.dropWhile isDigit)

/-- The digits of such an integer; a zero would be the whole of its digits. -/
def LongDigits (s : Str) : Prop := s.head? ≠ some (chr '0') ∧ LongRun 0 s

/-- The text begins with an integer that `int()` does not convert. -/
def StartsLong (s : Str) : Prop := LongDigits (if s.head? = some (chr '-') then s.tail else s)

/-- A value of the text that `p` has yet to read is an integer of more than `maxStrDigits` digits,
and nothing before it is wrong. -/
def Decoder.MeetsLong (limit : Nat) (p : Decoder) (s : Str) : Prop :=
  ∃ before rest q, s = before ++ rest ∧ before.foldlM (Decoder.step limit) p = .ok q ∧
    q.mode.AwaitsValue ∧ StartsLong rest

/-- A JSON text has an integer of more than `maxStrDigits` digits before anything else is wrong
with it. -/
def LongInteger (limit : Nat) (s : Str) : Prop := Decoder.MeetsLong limit {} s

section Runs
variable {n : Nat} {s : Str} {c : CodePoint}

theorem LongRun.nil_iff : LongRun n [] ↔ maxStrDigits < n := by
  simp [LongRun,EndsInteger,leadsFraction,leadsExponent]

theorem LongRun.digit_iff (hc : isDigit c = true) : LongRun n (c :: s) ↔ LongRun (n + 1) s := by
  unfold LongRun
  rw [List.takeWhile_cons_of_pos hc,List.dropWhile_cons_of_pos hc,List.length_cons,
    Nat.add_right_comm,Nat.add_assoc]

theorem LongRun.other_iff (hc : isDigit c = false) :
    LongRun n (c :: s) ↔ maxStrDigits < n ∧ EndsInteger (c :: s) := by
  have hne : ¬ isDigit c = true := by simp [hc]
  unfold LongRun
  rw [List.takeWhile_cons_of_neg hne,List.dropWhile_cons_of_neg hne,List.length_nil,Nat.add_zero]

theorem digit_zero_iff : digit c = some 0 ↔ c = chr '0' := by
  unfold digit
  constructor
  · intro h
    split at h
    · have hval : c.val - 48 = 0 := Option.some.inj h
      exact Fin.ext (show c.val = 48 by omega)
    · cases h
  · rintro rfl
    decide

theorem longDigits_other (hc : isDigit c = false) : ¬ LongDigits (c :: s) := by
  rintro ⟨_,hrun⟩
  exact absurd ((LongRun.other_iff hc).mp hrun).1 (Nat.not_lt_zero _)

theorem longDigits_digit {d : Nat} (hc : digit c = some d) (hd : d ≠ 0) :
    LongDigits (c :: s) ↔ LongRun 1 s := by
  have hdigit : isDigit c = true := by simp [isDigit,hc]
  have hzero : c ≠ chr '0' := by
    intro h
    have h0 := digit_zero_iff.mpr h
    rw [hc] at h0
    exact hd (Option.some.inj h0)
  unfold LongDigits
  rw [LongRun.digit_iff hdigit]
  simp [hzero]

theorem longDigits_zero : ¬ LongDigits (chr '0' :: s) := fun h => h.1 rfl

theorem startsLong_minus : StartsLong (chr '-' :: s) ↔ LongDigits s := by
  simp [StartsLong]

theorem startsLong_other (hc : c ≠ chr '-') : StartsLong (c :: s) ↔ LongDigits (c :: s) := by
  simp [StartsLong,hc]

end Runs

/-- The open literal goes on in the text to an integer that `int()` does not convert. -/
def Literal.Overflows (literal : Literal) (s : Str) : NumberState → Prop
  | .minus => LongDigits s
  | .zero => maxStrDigits < literal.digits.length ∧ EndsInteger s
  | .digits => LongRun literal.digits.length s
  | .dot => maxStrDigits < literal.digits.length ∧ leadsDigit s = false
  | .e => literal.frac = [] ∧ maxStrDigits < literal.digits.length ∧ leadsPower s = false
  | .expSign => literal.frac = [] ∧ maxStrDigits < literal.digits.length ∧ leadsDigit s = false
  | .frac | .exp => False

/-- A literal has a fraction from the state on that reads it. -/
def Literal.Fits (literal : Literal) : NumberState → Prop
  | .minus | .zero | .digits | .dot => literal.frac = []
  | .frac => literal.frac ≠ []
  | .e | .expSign | .exp => True

def Decoder.Overflows (p : Decoder) (s : Str) : Prop :=
  match p.mode with
  | .number literal state => literal.Overflows s state
  | _ => False

def Decoder.Fits (p : Decoder) : Prop :=
  match p.mode with
  | .number literal state => literal.Fits state
  | _ => True

/-- A step leaves no number open, and converts none that is too long. -/
def Settled : Except PyExc Decoder → Prop
  | .ok q => ∀ literal state, q.mode ≠ .number literal state
  | .error e => e ≠ .valueError

/-- After a step the integer does not convert, at once or in the rest of the text. -/
def StepOverflows (s : Str) : Except PyExc Decoder → Prop
  | .ok q => q.Overflows s
  | .error e => e = .valueError

def StepFits : Except PyExc Decoder → Prop
  | .ok q => q.Fits
  | .error _ => True

section Steps
variable {limit : Nat} {p q : Decoder} {stack : List Frame} {literal : Literal}
  {state : NumberState} {s : Str} {c : CodePoint} {x : Except PyExc Decoder}

theorem Settled.not_overflows (h : Settled x) : ¬ StepOverflows s x := by
  cases x with
  | error e => exact h
  | ok q =>
    intro hover
    have hover : q.Overflows s := hover
    unfold Decoder.Overflows at hover
    cases hm : q.mode with
    | number literal state => exact h literal state hm
    | _ =>
      rw [hm] at hover
      exact hover

theorem Settled.fits (h : Settled x) : StepFits x := by
  cases x with
  | error e => trivial
  | ok q =>
    show q.Fits
    unfold Decoder.Fits
    cases hm : q.mode with
    | number literal state => exact absurd hm (h literal state)
    | _ => trivial

theorem settled_afterValue (v : Json) : Settled (afterValue stack v c) := by
  unfold afterValue
  repeat' split
  all_goals simp [Settled]

theorem settled_plainChar (isKey : Bool) (acc : Str) : Settled (plainChar stack isKey acc c) := by
  unfold plainChar endString
  repeat' split
  all_goals simp [Settled]

theorem settled_backslashed (isKey : Bool) (acc : Str) : Settled (backslashed stack isKey acc c) := by
  unfold backslashed
  repeat' split
  all_goals simp [Settled]

theorem endEscape_string (isKey : Bool) (acc : Str) (n : Nat) :
    ∃ acc' state, endEscape isKey acc n = .string isKey acc' state := by
  unfold endEscape
  dsimp only
  split
  · exact ⟨_,_,rfl⟩
  · exact ⟨_,_,rfl⟩

theorem settled_stringChar (isKey : Bool) (acc : Str) (state : StringState) :
    Settled (stringChar stack isKey acc c state) := by
  cases state with
  | chars => exact settled_plainChar isKey acc
  | backslash => exact settled_backslashed isKey acc
  | hex seen n =>
    simp only [stringChar]
    split
    · rename_i d _
      obtain ⟨acc',state,hmode⟩ := endEscape_string isKey acc (16 * n + d)
      rw [hmode]
      split <;> simp [Settled]
    · simp [Settled]
  | high h =>
    simp only [stringChar]
    split
    · simp [Settled]
    · exact settled_plainChar isKey (acc ++ [h])
  | highBackslash h =>
    simp only [stringChar]
    split
    · simp [Settled]
    · exact settled_backslashed isKey (acc ++ [h])
  | highHex h seen n =>
    simp only [stringChar]
    split
    · rename_i d _
      obtain ⟨acc',state,hmode⟩ := endEscape_string isKey (acc ++ [h]) (16 * n + d)
      rw [hmode]
      repeat' split
      all_goals simp [Settled]
    · simp [Settled]

end Steps

section Numbers
variable {stack : List Frame} {literal : Literal} {state : NumberState} {s : Str} {c : CodePoint}
  {d : Nat}

theorem intOfDigits_map {α : Type} {f : Int → α} {negative : Bool} {digits : List Nat} :
    (intOfDigits negative digits).map f = .error .valueError ↔ maxStrDigits < digits.length := by
  unfold intOfDigits
  split
  · rename_i hlong
    exact iff_of_true rfl hlong
  · rename_i hlong
    exact iff_of_false (by simp [Except.map]) hlong

theorem endNumber_error {e : PyExc} (hstate : state ≠ .minus)
    (h : endNumber literal state = .error e) : e = .valueError := by
  have hint : ∀ {α : Type} (f : Int → α), (intOfDigits literal.negative literal.digits).map f =
      .error e → e = .valueError := by
    intro α f hf
    exact ((intOfDigits_raises literal.negative literal.digits).map f) e hf
  cases state with
  | minus => exact absurd rfl hstate
  | zero => exact hint _ h
  | digits => exact hint _ h
  | dot => exact hint _ h
  | frac => cases h
  | exp => cases h
  | e =>
    simp only [endNumber] at h
    split at h
    · exact hint _ h
    · cases h
  | expSign =>
    simp only [endNumber] at h
    split at h
    · exact hint _ h
    · cases h

/-- What is left open ends here: it overflows if it is an integer with too many digits. -/
theorem overflows_leaveNumber (hstate : state ≠ .minus) :
    StepOverflows s (leaveNumber stack literal state c) ↔
      endNumber literal state = .error .valueError := by
  unfold leaveNumber
  split
  · rename_i v hend
    rw [hend]
    exact iff_of_false (settled_afterValue v).not_overflows (by simp)
  · rename_i v hend
    rw [hend]
    simp [StepOverflows]
  · rename_i e hend
    rw [hend,endNumber_error hstate hend]
    simp [StepOverflows]

theorem fits_leaveNumber : StepFits (leaveNumber stack literal state c) := by
  unfold leaveNumber
  split
  · exact (settled_afterValue _).fits
  · trivial
  · trivial

theorem endNumber_exponent (hstate : state = .e ∨ state = .expSign) :
    endNumber literal state = .error .valueError ↔
      literal.frac = [] ∧ maxStrDigits < literal.digits.length := by
  by_cases hfrac : literal.frac = []
  · rcases hstate with rfl | rfl
    · simp only [endNumber,hfrac,if_true,intOfDigits_map,true_and]
    · simp only [endNumber,hfrac,if_true,intOfDigits_map,true_and]
  · rcases hstate with rfl | rfl
    · simp [endNumber,hfrac]
    · simp [endNumber,hfrac]

theorem isDigit_of_some (hc : digit c = some d) : isDigit c = true := by
  simp [isDigit,hc]

theorem isDigit_of_none (hc : digit c = none) : isDigit c = false := by
  simp [isDigit,hc]

/-- A character behind the digits of an integer. -/
theorem overflows_whole (hstate : state = .zero ∨ state = .digits) (hc : digit c = none)
    (hfits : literal.Fits state) :
    StepOverflows s (numberChar stack literal c state) ↔
      maxStrDigits < literal.digits.length ∧ EndsInteger (c :: s) := by
  have hends : EndsInteger (c :: s) ↔ (c = chr '.' → leadsDigit s = false) ∧
      (c = chr 'e' ∨ c = chr 'E' → leadsPower s = false) := by
    simp [EndsInteger,leadsFraction,leadsExponent]
  have hfrac : literal.frac = [] := by
    rcases hstate with rfl | rfl
    · exact hfits
    · exact hfits
  have hstep : numberChar stack literal c state =
      if c = chr '.' then .ok { stack, mode := .number literal .dot }
      else if c = chr 'e' ∨ c = chr 'E' then .ok { stack, mode := .number literal .e }
      else leaveNumber stack literal state c := by
    rcases hstate with rfl | rfl
    · simp [numberChar,hc]
    · simp [numberChar,hc]
  rw [hends,hstep]
  by_cases hpoint : c = chr '.'
  · subst hpoint
    have hdot : chr '.' ≠ chr 'e' ∧ chr '.' ≠ chr 'E' := by
      decide
    simp [StepOverflows,Decoder.Overflows,Literal.Overflows,hdot]
  · by_cases hexp : c = chr 'e' ∨ c = chr 'E'
    · rw [if_neg hpoint,if_pos hexp]
      simp [StepOverflows,Decoder.Overflows,Literal.Overflows,hpoint,hexp,hfrac]
    · have hleft : state ≠ .minus := by
        rcases hstate with rfl | rfl
        · simp
        · simp
      rw [if_neg hpoint,if_neg hexp,overflows_leaveNumber hleft]
      have hend : endNumber literal state = .error .valueError ↔
          maxStrDigits < literal.digits.length := by
        rcases hstate with rfl | rfl
        · exact intOfDigits_map
        · exact intOfDigits_map
      rw [hend]
      simp [hpoint,hexp]

/-- A literal overflows before a character exactly where it does after it. -/
theorem overflows_numberChar (hfits : literal.Fits state) :
    StepOverflows s (numberChar stack literal c state) ↔ literal.Overflows (c :: s) state := by
  have hplain : ∀ {m : Mode}, (∀ l st, m ≠ .number l st) →
      ¬ StepOverflows s (.ok { stack, mode := m }) := by
    intro m hm
    exact Settled.not_overflows (x := .ok { stack, mode := m }) hm
  cases state with
  | minus =>
    cases hc : digit c with
    | none =>
      have hno : ¬ LongDigits (c :: s) := longDigits_other (isDigit_of_none hc)
      unfold numberChar
      simp only [hc,Literal.Overflows]
      split
      · exact iff_of_false (hplain (by simp)) hno
      · exact iff_of_false (by simp [StepOverflows]) hno
    | some d =>
      cases d with
      | zero =>
        rw [digit_zero_iff.mp hc]
        refine iff_of_false ?_ longDigits_zero
        have hzero : digit (chr '0') = some 0 := digit_zero_iff.mpr rfl
        simp [numberChar,hzero,StepOverflows,Decoder.Overflows,Literal.Overflows,maxStrDigits]
      | succ d =>
        simp only [numberChar,hc,StepOverflows,Decoder.Overflows,Literal.Overflows]
        exact (longDigits_digit hc (Nat.succ_ne_zero d)).symm
  | zero =>
    cases hc : digit c with
    | none => exact overflows_whole (.inl rfl) hc hfits
    | some d =>
      have hstep : numberChar stack literal c .zero = leaveNumber stack literal .zero c := by
        simp [numberChar,hc]
      have hends : EndsInteger (c :: s) := by
        have hmarks : digit (chr '.') = none ∧ digit (chr 'e') = none ∧
            digit (chr 'E') = none := by
          decide
        have hmark : c ≠ chr '.' ∧ c ≠ chr 'e' ∧ c ≠ chr 'E' := by
          refine ⟨?_,?_,?_⟩
          · rintro rfl
            simp [hmarks.1] at hc
          · rintro rfl
            simp [hmarks.2.1] at hc
          · rintro rfl
            simp [hmarks.2.2] at hc
        simp [EndsInteger,leadsFraction,leadsExponent,hmark]
      rw [hstep,overflows_leaveNumber (by simp)]
      simp only [Literal.Overflows,hends,and_true]
      exact intOfDigits_map
  | digits =>
    cases hc : digit c with
    | none =>
      rw [overflows_whole (.inr rfl) hc hfits]
      exact (LongRun.other_iff (isDigit_of_none hc)).symm
    | some d =>
      simp only [numberChar,hc,StepOverflows,Decoder.Overflows,Literal.Overflows,
        LongRun.digit_iff (isDigit_of_some hc),List.length_append,List.length_singleton]
  | dot =>
    cases hc : digit c with
    | none =>
      have hstep : numberChar stack literal c .dot = leaveNumber stack literal .dot c := by
        simp [numberChar,hc]
      rw [hstep,overflows_leaveNumber (by simp)]
      simp only [Literal.Overflows,leadsDigit,isDigit_of_none hc,and_true]
      exact intOfDigits_map
    | some d =>
      simp [numberChar,hc,StepOverflows,Decoder.Overflows,Literal.Overflows,leadsDigit,
        isDigit_of_some hc]
  | frac =>
    refine iff_of_false ?_ (by simp [Literal.Overflows])
    cases hc : digit c with
    | none =>
      unfold numberChar
      simp only [hc]
      split
      · rintro ⟨hempty,_⟩
        exact hfits hempty
      · rw [overflows_leaveNumber (by simp)]
        simp [endNumber]
    | some d => simp [numberChar,hc,StepOverflows,Decoder.Overflows,Literal.Overflows]
  | e =>
    cases hc : digit c with
    | none =>
      simp only [numberChar,hc,Literal.Overflows,leadsPower,isDigit_of_none hc,Bool.false_or]
      split
      · rename_i hsign
        simp [StepOverflows,Decoder.Overflows,Literal.Overflows,hsign]
      · rename_i hsign
        rw [overflows_leaveNumber (by simp),endNumber_exponent (.inl rfl)]
        simp [hsign]
    | some d =>
      simp [numberChar,hc,StepOverflows,Decoder.Overflows,Literal.Overflows,leadsPower,
        isDigit_of_some hc]
  | expSign =>
    cases hc : digit c with
    | none =>
      have hstep : numberChar stack literal c .expSign = leaveNumber stack literal .expSign c := by
        simp [numberChar,hc]
      rw [hstep,overflows_leaveNumber (by simp),endNumber_exponent (.inr rfl)]
      simp [Literal.Overflows,leadsDigit,isDigit_of_none hc]
    | some d =>
      simp [numberChar,hc,StepOverflows,Decoder.Overflows,Literal.Overflows,leadsDigit,
        isDigit_of_some hc]
  | exp =>
    refine iff_of_false ?_ (by simp [Literal.Overflows])
    cases hc : digit c with
    | none =>
      have hstep : numberChar stack literal c .exp = leaveNumber stack literal .exp c := by
        simp [numberChar,hc]
      rw [hstep,overflows_leaveNumber (by simp)]
      simp [endNumber]
    | some d => simp [numberChar,hc,StepOverflows,Decoder.Overflows,Literal.Overflows]

theorem fits_numberChar (hfits : literal.Fits state) :
    StepFits (numberChar stack literal c state) := by
  have hleave := @fits_leaveNumber stack literal state c
  cases hc : digit c with
  | none =>
    cases state with
    | minus =>
      simp only [numberChar,hc]
      split
      · trivial
      · trivial
    | zero | digits =>
      simp only [numberChar,hc]
      split
      · exact hfits
      · split
        · trivial
        · exact hleave
    | frac =>
      simp only [numberChar,hc]
      split
      · trivial
      · exact hleave
    | e =>
      simp only [numberChar,hc]
      split
      · trivial
      · exact hleave
    | dot | expSign | exp =>
      simp only [numberChar,hc]
      exact hleave
  | some d =>
    cases state with
    | minus =>
      cases d with
      | zero =>
        simp only [numberChar,hc]
        exact hfits
      | succ d =>
        simp only [numberChar,hc]
        exact hfits
    | zero =>
      simp only [numberChar,hc]
      exact hleave
    | digits =>
      simp only [numberChar,hc]
      exact hfits
    | dot | frac =>
      simp only [numberChar,hc]
      exact List.append_ne_nil_of_right_ne_nil literal.frac (List.cons_ne_nil d [])
    | e | expSign | exp =>
      simp only [numberChar,hc]
      trivial

end Numbers

section Values
variable {limit : Nat} {p q : Decoder} {stack : List Frame} {s : Str} {c : CodePoint} {d : Nat}

/-- A digit begins a number as it goes on after a sign. -/
theorem startValue_digit (hc : digit c = some d) :
    startValue limit stack c = numberChar stack { negative := false } c .minus := by
  have hne : ∀ x, digit x = none → c ≠ x := by
    rintro x hx rfl
    rw [hc] at hx
    cases hx
  have hopens : c ≠ chr '"' ∧ c ≠ chr '\x7b' ∧ c ≠ chr '[' :=
    ⟨hne _ (by decide),hne _ (by decide),hne _ (by decide)⟩
  have hwords : c ≠ chr 'n' ∧ c ≠ chr 't' ∧ c ≠ chr 'f' ∧ c ≠ chr 'N' ∧ c ≠ chr 'I' :=
    ⟨hne _ (by decide),hne _ (by decide),hne _ (by decide),hne _ (by decide),hne _ (by decide)⟩
  have hminus : c ≠ chr '-' := hne _ (by decide)
  cases d with
  | zero => simp [startValue,numberChar,hopens,hwords,hminus,hc]
  | succ d => simp [startValue,numberChar,hopens,hwords,hminus,hc]

theorem settled_startValue (hc : digit c = none) (hminus : c ≠ chr '-') :
    Settled (startValue limit stack c) := by
  unfold startValue
  rw [if_neg hminus]
  simp only [hc]
  repeat' split
  all_goals simp [Settled]

theorem startValue_minus : startValue limit stack (chr '-') =
    .ok { stack, mode := .number { negative := true } .minus } := rfl

theorem not_startsLong (hc : digit c = none) (hminus : c ≠ chr '-') : ¬ StartsLong (c :: s) := by
  rw [startsLong_other hminus]
  exact longDigits_other (isDigit_of_none hc)

theorem overflows_startValue :
    StepOverflows s (startValue limit stack c) ↔ StartsLong (c :: s) := by
  by_cases hminus : c = chr '-'
  · subst hminus
    rw [startValue_minus,startsLong_minus]
    rfl
  · cases hc : digit c with
    | none =>
      exact iff_of_false (settled_startValue hc hminus).not_overflows (not_startsLong hc hminus)
    | some d =>
      rw [startValue_digit hc,startsLong_other hminus]
      exact overflows_numberChar rfl

theorem fits_startValue : StepFits (startValue limit stack c) := by
  by_cases hminus : c = chr '-'
  · subst hminus
    rw [startValue_minus]
    rfl
  · cases hc : digit c with
    | none => exact (settled_startValue hc hminus).fits
    | some d =>
      rw [startValue_digit hc]
      exact fits_numberChar rfl

theorem not_startsLong_of_space (h : isJsonSpace c = true) : ¬ StartsLong (c :: s) := by
  have hspace : c = chr ' ' ∨ c = chr '\t' ∨ c = chr '\n' ∨ c = chr '\r' := by
    simpa [isJsonSpace] using h
  rcases hspace with rfl | rfl | rfl | rfl
  · exact not_startsLong (by decide) (by decide)
  · exact not_startsLong (by decide) (by decide)
  · exact not_startsLong (by decide) (by decide)
  · exact not_startsLong (by decide) (by decide)

/-- Where no value may begin and no number is open. -/
theorem settled_step (hwaits : ¬ p.mode.AwaitsValue)
    (hnumber : ∀ literal state, p.mode ≠ .number literal state) : Settled (p.step limit c) := by
  unfold Mode.AwaitsValue at hwaits
  cases hm : p.mode with
  | value => exact absurd (.inl hm) hwaits
  | firstItem => exact absurd (.inr hm) hwaits
  | number literal state => exact absurd hm (hnumber literal state)
  | done v =>
    simp only [Decoder.step,hm]
    exact settled_afterValue v
  | string isKey acc state =>
    simp only [Decoder.step,hm]
    exact settled_stringChar isKey acc state
  | _ =>
    simp only [Decoder.step,hm]
    repeat' split
    all_goals simp [Settled,hm]

/-- One character: a step has an integer too long to convert before it, or begins one with it. -/
theorem Decoder.step_overflows (hfits : p.Fits) : StepOverflows s (p.step limit c) ↔
    p.Overflows (c :: s) ∨ (p.mode.AwaitsValue ∧ StartsLong (c :: s)) := by
  have hclose : ¬ StartsLong (chr ']' :: s) := not_startsLong (by decide) (by decide)
  have hstart := @overflows_startValue limit p.stack s c
  unfold Decoder.Fits at hfits
  unfold Decoder.Overflows Mode.AwaitsValue
  cases hm : p.mode with
  | value =>
    simp only [Decoder.step,hm]
    split
    · rename_i hspace
      simp [StepOverflows,Decoder.Overflows,hm,not_startsLong_of_space hspace]
    · simpa using hstart
  | firstItem =>
    simp only [Decoder.step,hm]
    split
    · rename_i hspace
      simp [StepOverflows,Decoder.Overflows,hm,not_startsLong_of_space hspace]
    · split
      · rename_i hc
        simp [StepOverflows,Decoder.Overflows,hc,hclose]
      · simpa using hstart
  | number literal state =>
    rw [hm] at hfits
    simp only [Decoder.step,hm]
    simpa using overflows_numberChar hfits
  | _ =>
    have hsettled : Settled (p.step limit c) :=
      settled_step (by simp [Mode.AwaitsValue,hm]) (by simp [hm])
    simpa using hsettled.not_overflows

theorem Decoder.step_fits (hfits : p.Fits) : StepFits (p.step limit c) := by
  unfold Decoder.Fits at hfits
  cases hm : p.mode with
  | value =>
    simp only [Decoder.step,hm]
    split
    · simp [StepFits,Decoder.Fits,hm]
    · exact fits_startValue
  | firstItem =>
    simp only [Decoder.step,hm]
    split
    · simp [StepFits,Decoder.Fits,hm]
    · split
      · trivial
      · exact fits_startValue
  | number literal state =>
    rw [hm] at hfits
    simp only [Decoder.step,hm]
    exact fits_numberChar hfits
  | _ => exact (settled_step (by simp [Mode.AwaitsValue,hm]) (by simp [hm])).fits

/-- The end of the text. -/
theorem Decoder.finish_overflows : p.finish = .error .valueError ↔ p.Overflows [] := by
  unfold Decoder.finish Decoder.Overflows
  cases hm : p.mode with
  | number literal state =>
    have hends : EndsInteger [] := ⟨rfl,rfl⟩
    have hend : endNumber literal state = .error .valueError ↔ literal.Overflows [] state := by
      cases state with
      | minus => simp [endNumber,Literal.Overflows,LongDigits,LongRun]
      | zero => simp [endNumber,intOfDigits_map,Literal.Overflows,hends]
      | digits => simp [endNumber,intOfDigits_map,Literal.Overflows,LongRun.nil_iff]
      | dot => simp [endNumber,intOfDigits_map,Literal.Overflows,leadsDigit]
      | e => simp [endNumber_exponent (.inl rfl),Literal.Overflows,leadsPower]
      | expSign => simp [endNumber_exponent (.inr rfl),Literal.Overflows,leadsDigit]
      | frac | exp => simp [endNumber,Literal.Overflows]
    refine Iff.trans ?_ hend
    simp only
    split
    · rename_i v hv
      rw [hv]
      split <;> simp
    · rename_i v hv
      simp [hv]
    · rename_i e he
      simp [he]
  | done v =>
    simp only
    split <;> simp
  | _ => simp

theorem Decoder.meetsLong_nil : ¬ p.MeetsLong limit [] := by
  rintro ⟨before,rest,q,hs,_,_,hlong⟩
  obtain ⟨rfl,rfl⟩ := List.append_eq_nil_iff.mp hs.symm
  simp [StartsLong,LongDigits,LongRun] at hlong

theorem Decoder.meetsLong_cons : p.MeetsLong limit (c :: s) ↔
    (p.mode.AwaitsValue ∧ StartsLong (c :: s)) ∨
      ∃ q, p.step limit c = .ok q ∧ q.MeetsLong limit s := by
  constructor
  · rintro ⟨before,rest,r,hs,hrun,hwaits,hlong⟩
    cases before with
    | nil =>
      obtain rfl := Except.ok.inj hrun
      obtain rfl : c :: s = rest := hs
      exact .inl ⟨hwaits,hlong⟩
    | cons b before =>
      obtain ⟨rfl,rfl⟩ := List.cons.inj hs
      rw [List.foldlM_cons] at hrun
      obtain ⟨q,hq,hrest⟩ := bind_eq_ok.mp hrun
      exact .inr ⟨q,hq,before,rest,r,rfl,hrest,hwaits,hlong⟩
  · rintro (⟨hwaits,hlong⟩ | ⟨q,hq,before,rest,r,rfl,hrun,hwaits,hlong⟩)
    · exact ⟨[],c :: s,p,rfl,rfl,hwaits,hlong⟩
    · refine ⟨c :: before,rest,r,rfl,?_,hwaits,hlong⟩
      rw [List.foldlM_cons,hq]
      exact hrun

theorem decodeFrom_overflows (hfits : p.Fits) : decodeFrom limit p s = .error .valueError ↔
    p.Overflows s ∨ p.MeetsLong limit s := by
  induction s generalizing p with
  | nil =>
    simp only [decodeFrom,Decoder.meetsLong_nil,or_false]
    exact Decoder.finish_overflows
  | cons c s ih =>
    have hstep := @Decoder.step_overflows limit p s c hfits
    have hnext := @Decoder.step_fits limit p c hfits
    rw [Decoder.meetsLong_cons,← or_assoc,← hstep]
    unfold decodeFrom
    cases hq : p.step limit c with
    | ok q =>
      rw [hq] at hnext
      simpa [StepOverflows] using ih hnext
    | error e => simp [StepOverflows]

/-- `json.loads` raises a plain ValueError exactly on the texts with an integer too long for
`int()`. -/
theorem decodeFrom_long : decodeFrom limit {} s = .error .valueError ↔ LongInteger limit s := by
  have hfits : Decoder.Fits {} := trivial
  rw [decodeFrom_overflows hfits]
  exact or_iff_right id

end Values

end Woodhouse.Python
