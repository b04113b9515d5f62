import Woodhouse.Python.DumpsReadBack
import Woodhouse.Python.FloatTexts
import Woodhouse.Python.JsonParts

namespace Woodhouse.Python

/-- What holds of every value that a text can write; `P h` is about one inside `h` containers. -/
structure Inductive (limit : ℕ) (P : ℕ → Json → Prop) : Prop where
  null : ∀ h, P h .null
  bool : ∀ h b, P h (.bool b)
  nan : ∀ h, P h (.float .nan)
  inf : ∀ h negative, P h (.float (.inf negative))
  str : ∀ h s, P h (.str s)
  int : ∀ h negative digits i, (∀ d ∈ digits, d < 10) → intOfDigits negative digits = .ok i →
    P h (.int i)
  float : ∀ h negative digits frac exponent,
    P h (.float (floatOfLiteral negative digits frac exponent))
  arr : ∀ h items, h < limit → (∀ v ∈ items, P (h + 1) v) → P h (.arr items)
  obj : ∀ h (entries : Dict Json), h < limit → entries.keys.Nodup →
    (∀ e ∈ entries, P (h + 1) e.2) → P h (.obj entries)

/-- The values of an open container. -/
def Frame.Holds (P : Json → Prop) : Frame → Prop
  | .items done => ∀ v ∈ done, P v
  | .entries done _ => done.keys.Nodup ∧ ∀ e ∈ done, P e.2

def StackHolds (P : ℕ → Json → Prop) : List Frame → Prop
  | [] => True
  | frame :: rest => frame.Holds (P (rest.length + 1)) ∧ StackHolds P rest

/-- What the decoder has read of a value that is not finished. -/
def Mode.Holds (P : ℕ → Json → Prop) (stack : List Frame) : Mode → Prop
  | .done v => P stack.length v
  | .word _ v => P stack.length v
  | .number literal _ => ∀ d ∈ literal.digits, d < 10
  | .firstItem | .firstKey => stack ≠ []
  | _ => True

/-- All values that the decoder has read, and no more open containers than the limit. -/
structure Decoder.Holds (limit : ℕ) (P : ℕ → Json → Prop) (p : Decoder) : Prop where
  stack : StackHolds P p.stack
  mode : p.mode.Holds P p.stack
  open_le : p.stack.length ≤ limit

def StepHolds (limit : ℕ) (P : ℕ → Json → Prop) (x : Except PyExc Decoder) : Prop :=
  ∀ q, x = .ok q → q.Holds limit P

section Steps
variable {limit : ℕ} {P : ℕ → Json → Prop} {stack : List Frame} {mode : Mode} {c : CodePoint}
  {v : Json} {p q : Decoder} {s : Str}

theorem stepHolds_error (e : PyExc) : StepHolds limit P (.error e) := by
  intro q hq
  cases hq

theorem stepHolds_ok (hstack : StackHolds P stack) (hopen : stack.length ≤ limit)
    (hmode : mode.Holds P stack) : StepHolds limit P (.ok ⟨stack,mode⟩) := by
  intro q hq
  cases hq
  exact ⟨hstack,hmode,hopen⟩

theorem digit_lt_ten {d : ℕ} (h : digit c = some d) : d < 10 := by
  unfold digit at h
  split at h
  · cases h
    omega
  · cases h

theorem startValue_holds (hP : Inductive limit P) (hstack : StackHolds P stack)
    (hopen : stack.length ≤ limit) (c : CodePoint) : StepHolds limit P (startValue limit stack c) := by
  have hword : ∀ rest w, P stack.length w → StepHolds limit P (.ok ⟨stack,.word rest w⟩) :=
    fun rest w hw => stepHolds_ok hstack hopen hw
  unfold startValue
  split
  · exact stepHolds_ok hstack hopen trivial
  split
  · split
    · exact stepHolds_error _
    · refine stepHolds_ok ⟨⟨List.nodup_nil,?_⟩,hstack⟩ (by rw [List.length_cons]; omega)
        (List.cons_ne_nil _ _)
      intro e he
      cases he
  split
  · split
    · exact stepHolds_error _
    · refine stepHolds_ok ⟨?_,hstack⟩ (by rw [List.length_cons]; omega) (List.cons_ne_nil _ _)
      intro w hw
      cases hw
  split
  · exact hword _ _ (hP.null _)
  split
  · exact hword _ _ (hP.bool _ _)
  split
  · exact hword _ _ (hP.bool _ _)
  split
  · exact hword _ _ (hP.nan _)
  split
  · exact hword _ _ (hP.inf _ _)
  split
  · exact stepHolds_ok hstack hopen (fun d hd => by cases hd)
  split
  · refine stepHolds_ok hstack hopen ?_
    intro d hd
    rw [List.mem_singleton.mp hd]
    decide
  · rename_i d hd
    refine stepHolds_ok hstack hopen ?_
    intro d' hd'
    rw [List.mem_singleton.mp hd']
    exact digit_lt_ten hd
  · exact stepHolds_error _

theorem mem_set {d : Dict Json} {key : Str} {e : Str × Json} (h : e ∈ d.set key v) :
    e ∈ d ∨ e.2 = v := by
  induction d with
  | nil =>
    obtain rfl := List.mem_singleton.mp h
    exact .inr rfl
  | cons f rest ih =>
    obtain ⟨k,w⟩ := f
    unfold Dict.set at h
    split at h
    · rcases List.mem_cons.mp h with rfl | h
      · exact .inr rfl
      · exact .inl (List.mem_cons_of_mem _ h)
    · rcases List.mem_cons.mp h with rfl | h
      · exact .inl List.mem_cons_self
      · exact (ih h).imp_left (List.mem_cons_of_mem _)

theorem afterValue_holds (hP : Inductive limit P) (hstack : StackHolds P stack)
    (hopen : stack.length ≤ limit) (hv : P stack.length v) (c : CodePoint) :
    StepHolds limit P (afterValue stack v c) := by
  unfold afterValue
  split
  · exact stepHolds_ok hstack hopen hv
  split
  · rename_i done rest
    obtain ⟨hdone,hrest⟩ := hstack
    rw [List.length_cons] at hopen hv
    have hall : ∀ w ∈ done ++ [v], P (rest.length + 1) w := by
      intro w hw
      rcases List.mem_append.mp hw with hw | hw
      · exact hdone w hw
      · rw [List.mem_singleton.mp hw]
        exact hv
    split
    · exact stepHolds_ok ⟨hall,hrest⟩ (by rw [List.length_cons]; omega) trivial
    split
    · exact stepHolds_ok hrest (by omega) (hP.arr _ _ (by omega) hall)
    · exact stepHolds_error _
  · rename_i done key rest
    obtain ⟨⟨hnodup,hdone⟩,hrest⟩ := hstack
    rw [List.length_cons] at hopen hv
    have hall : ∀ e ∈ done.set key v, P (rest.length + 1) e.2 := by
      intro e he
      rcases mem_set he with he | he
      · exact hdone e he
      · rw [he]
        exact hv
    have hnodup' := Dict.nodup_set hnodup key v
    split
    · exact stepHolds_ok ⟨⟨hnodup',hall⟩,hrest⟩ (by rw [List.length_cons]; omega) trivial
    split
    · exact stepHolds_ok hrest (by omega) (hP.obj _ _ (by omega) hnodup' hall)
    · exact stepHolds_error _
  · exact stepHolds_error _

theorem endString_holds (hP : Inductive limit P) (hstack : StackHolds P stack)
    (hopen : stack.length ≤ limit) (isKey : Bool) (s : Str) :
    StepHolds limit P (endString stack isKey s) := by
  unfold endString
  split
  · split
    · exact stepHolds_ok hstack hopen trivial
    · exact stepHolds_error _
  · exact stepHolds_ok hstack hopen (hP.str _ _)

theorem plainChar_holds (hP : Inductive limit P) (hstack : StackHolds P stack)
    (hopen : stack.length ≤ limit) (isKey : Bool) (s : Str) (c : CodePoint) :
    StepHolds limit P (plainChar stack isKey s c) := by
  unfold plainChar
  split
  · exact endString_holds hP hstack hopen isKey s
  split
  · exact stepHolds_ok hstack hopen trivial
  split
  · exact stepHolds_error _
  · exact stepHolds_ok hstack hopen trivial

theorem backslashed_holds (hstack : StackHolds P stack) (hopen : stack.length ≤ limit)
    (isKey : Bool) (s : Str) (c : CodePoint) : StepHolds limit P (backslashed stack isKey s c) := by
  unfold backslashed
  split
  · exact stepHolds_ok hstack hopen trivial
  split
  · exact stepHolds_ok hstack hopen trivial
  · exact stepHolds_error _

theorem endEscape_holds (isKey : Bool) (s : Str) (n : ℕ) : (endEscape isKey s n).Holds P stack := by
  unfold endEscape
  dsimp only
  split
  · trivial
  · trivial

theorem stringChar_holds (hP : Inductive limit P) (hstack : StackHolds P stack)
    (hopen : stack.length ≤ limit) (isKey : Bool) (s : Str) (c : CodePoint) (state : StringState) :
    StepHolds limit P (stringChar stack isKey s c state) := by
  cases state with
  | chars => exact plainChar_holds hP hstack hopen isKey s c
  | backslash => exact backslashed_holds hstack hopen isKey s c
  | hex seen n =>
    simp only [stringChar]
    split
    · refine stepHolds_ok hstack hopen ?_
      split
      · exact endEscape_holds isKey s _
      · trivial
    · exact stepHolds_error _
  | high h =>
    simp only [stringChar]
    split
    · exact stepHolds_ok hstack hopen trivial
    · exact plainChar_holds hP hstack hopen isKey _ c
  | highBackslash h =>
    simp only [stringChar]
    split
    · exact stepHolds_ok hstack hopen trivial
    · exact backslashed_holds hstack hopen isKey _ c
  | highHex h seen n =>
    simp only [stringChar]
    split
    · refine stepHolds_ok hstack hopen ?_
      split
      · split
        · trivial
        · exact endEscape_holds isKey _ _
      · trivial
    · exact stepHolds_error _

theorem endNumber_holds (hP : Inductive limit P) {literal : Literal} {state : NumberState}
    (hdigits : ∀ d ∈ literal.digits, d < 10) {more : Bool}
    (h : endNumber literal state = .ok (v,more)) (n : ℕ) : P n v := by
  have hint : ∀ b : Bool, (intOfDigits literal.negative literal.digits).map
      (fun i => (Json.int i,b)) = .ok (v,more) → P n v := by
    intro b hb
    cases hi : intOfDigits literal.negative literal.digits with
    | ok i =>
      rw [hi] at hb
      cases hb
      exact hP.int n _ _ i hdigits hi
    | error e =>
      rw [hi] at hb
      cases hb
  cases state with
  | minus => cases h
  | zero => exact hint _ h
  | digits => exact hint _ h
  | dot => exact hint _ h
  | frac =>
    cases h
    exact hP.float ..
  | exp =>
    cases h
    exact hP.float ..
  | e =>
    simp only [endNumber] at h
    split at h
    · exact hint _ h
    · cases h
      exact hP.float ..
  | expSign =>
    simp only [endNumber] at h
    split at h
    · exact hint _ h
    · cases h
      exact hP.float ..

theorem leaveNumber_holds (hP : Inductive limit P) (hstack : StackHolds P stack)
    (hopen : stack.length ≤ limit) {literal : Literal} (hdigits : ∀ d ∈ literal.digits, d < 10)
    (state : NumberState) (c : CodePoint) : StepHolds limit P (leaveNumber stack literal state c) := by
  unfold leaveNumber
  split
  · rename_i v hv
    exact afterValue_holds hP hstack hopen (endNumber_holds hP hdigits hv _) c
  · exact stepHolds_error _
  · exact stepHolds_error _

theorem numberChar_holds (hP : Inductive limit P) (hstack : StackHolds P stack)
    (hopen : stack.length ≤ limit) {literal : Literal} (hdigits : ∀ d ∈ literal.digits, d < 10)
    (c : CodePoint) (state : NumberState) : StepHolds limit P (numberChar stack literal c state) := by
  have hleave := leaveNumber_holds hP hstack hopen hdigits state c
  cases hc : digit c with
  | none =>
    cases state with
    | minus =>
      simp only [numberChar,hc]
      split
      · exact stepHolds_ok hstack hopen (hP.inf _ _)
      · exact stepHolds_error _
    | zero | digits =>
      simp only [numberChar,hc]
      split
      · exact stepHolds_ok hstack hopen hdigits
      · split
        · exact stepHolds_ok hstack hopen hdigits
        · exact hleave
    | frac =>
      simp only [numberChar,hc]
      split
      · exact stepHolds_ok hstack hopen hdigits
      · exact hleave
    | e =>
      simp only [numberChar,hc]
      split
      · exact stepHolds_ok hstack hopen hdigits
      · exact hleave
    | dot | expSign | exp =>
      simp only [numberChar,hc]
      exact hleave
  | some d =>
    have hd := digit_lt_ten hc
    cases state with
    | minus =>
      cases d with
      | zero =>
        simp only [numberChar,hc]
        refine stepHolds_ok hstack hopen ?_
        intro d' hd'
        rw [List.mem_singleton.mp hd']
        decide
      | succ d =>
        simp only [numberChar,hc]
        refine stepHolds_ok hstack hopen ?_
        intro d' hd'
        rw [List.mem_singleton.mp hd']
        exact hd
    | digits =>
      simp only [numberChar,hc]
      refine stepHolds_ok hstack hopen ?_
      intro d' hd'
      rcases List.mem_append.mp hd' with hd' | hd'
      · exact hdigits d' hd'
      · rw [List.mem_singleton.mp hd']
        exact hd
    | zero =>
      simp only [numberChar,hc]
      exact hleave
    | dot | frac | e | expSign | exp =>
      simp only [numberChar,hc]
      exact stepHolds_ok hstack hopen hdigits

theorem Decoder.step_holds (hP : Inductive limit P) (hp : p.Holds limit P) (c : CodePoint) :
    StepHolds limit P (p.step limit c) := by
  obtain ⟨stack,mode⟩ := p
  obtain ⟨hstack,hmode,hopen⟩ := hp
  simp only at hstack hmode hopen
  have hstay : StepHolds limit P (.ok ⟨stack,mode⟩) := stepHolds_ok hstack hopen hmode
  have htail : stack ≠ [] → StackHolds P stack.tail ∧ stack.tail.length < limit := by
    intro hne
    cases stack with
    | nil => exact absurd rfl hne
    | cons frame rest =>
      rw [List.length_cons] at hopen
      exact ⟨hstack.2,by rw [List.tail_cons]; omega⟩
  cases mode with
  | value =>
    simp only [Decoder.step]
    split
    · exact hstay
    · exact startValue_holds hP hstack hopen c
  | firstItem =>
    simp only [Decoder.step]
    split
    · exact hstay
    · split
      · obtain ⟨hrest,hlt⟩ := htail hmode
        refine stepHolds_ok hrest hlt.le (hP.arr _ _ hlt ?_)
        intro w hw
        cases hw
      · exact startValue_holds hP hstack hopen c
  | firstKey =>
    simp only [Decoder.step]
    split
    · exact hstay
    · split
      · obtain ⟨hrest,hlt⟩ := htail hmode
        refine stepHolds_ok hrest hlt.le (hP.obj _ _ hlt List.nodup_nil ?_)
        intro e he
        cases he
      · split
        · exact stepHolds_ok hstack hopen trivial
        · exact stepHolds_error _
  | key =>
    simp only [Decoder.step]
    split
    · exact hstay
    · split
      · exact stepHolds_ok hstack hopen trivial
      · exact stepHolds_error _
  | colon =>
    simp only [Decoder.step]
    split
    · exact hstay
    · split
      · exact stepHolds_ok hstack hopen trivial
      · exact stepHolds_error _
  | done v => exact afterValue_holds hP hstack hopen hmode c
  | string isKey acc state => exact stringChar_holds hP hstack hopen isKey acc c state
  | number literal state => exact numberChar_holds hP hstack hopen hmode c state
  | word rest v =>
    simp only [Decoder.step]
    split
    · split
      · exact stepHolds_ok hstack hopen hmode
      · exact stepHolds_error _
    · split
      · exact stepHolds_ok hstack hopen hmode
      · exact stepHolds_error _
    · exact stepHolds_error _

theorem Decoder.finish_holds (hP : Inductive limit P) (hp : p.Holds limit P)
    (h : p.finish = .ok v) : P 0 v := by
  obtain ⟨stack,mode⟩ := p
  obtain ⟨_,hmode,_⟩ := hp
  simp only at hmode
  unfold Decoder.finish at h
  cases mode with
  | done w =>
    simp only at h
    split at h
    · rename_i hnil
      subst hnil
      cases h
      exact hmode
    · cases h
  | number literal state =>
    simp only at h
    split at h
    · rename_i w hw
      split at h
      · cases h
        exact endNumber_holds hP hmode hw 0
      · cases h
    · cases h
    · cases h
  | _ => cases h

/-- What holds of all values that a text can write holds of what it is decoded to. -/
theorem decodeFrom_holds (hP : Inductive limit P) (hp : p.Holds limit P)
    (h : decodeFrom limit p s = .ok v) : P 0 v := by
  induction s generalizing p with
  | nil => exact p.finish_holds hP hp h
  | cons c s ih =>
    unfold decodeFrom at h
    split at h
    · rename_i q hq
      exact ih (p.step_holds hP hp c q hq) h
    · cases h

theorem loads_holds (hP : Inductive limit P) {body : Bytes} (h : loads limit body = .ok v) :
    P 0 v := by
  unfold loads at h
  split at h
  · have hstart : Decoder.Holds limit P {} := ⟨trivial,trivial,Nat.zero_le limit⟩
    exact decodeFrom_holds hP hstart h
  · cases h

end Steps

/-- A value that `json.loads` gives: an integer it could convert, a float, or a dictionary. -/
def CanLoad : Json → Prop
  | .int i => (decimal i.natAbs).length ≤ maxStrDigits
  | .float (.finite _ q) => 0 ≤ q ∧ IsFloat q
  | .obj entries => (Dict.keys entries).Nodup
  | _ => True

section Loaded
variable {limit n : ℕ} {items : List Json} {entries : List (Str × Json)} {v : Json}

theorem depthItems_le (h : ∀ v ∈ items, depth v ≤ n) : depthItems items ≤ n := by
  induction items with
  | nil => exact Nat.zero_le n
  | cons v rest ih =>
    obtain ⟨hv,hrest⟩ := List.forall_mem_cons.mp h
    exact max_le hv (ih hrest)

theorem depthEntries_le (h : ∀ e ∈ entries, depth e.2 ≤ n) : depthEntries entries ≤ n := by
  induction entries with
  | nil => exact Nat.zero_le n
  | cons e rest ih =>
    obtain ⟨he,hrest⟩ := List.forall_mem_cons.mp h
    exact max_le he (ih hrest)

theorem canLoad_int {negative : Bool} {digits : List ℕ} {i : Int} (hdigits : ∀ d ∈ digits, d < 10)
    (h : intOfDigits negative digits = .ok i) : CanLoad (.int i) := by
  unfold intOfDigits at h
  split at h
  · cases h
  · rename_i hshort
    have hi : i.natAbs = ofDigits digits := by
      have heq := Except.ok.inj h
      rw [← heq]
      split
      · rw [Int.natAbs_neg,Int.natAbs_natCast]
      · exact Int.natAbs_natCast _
    have hpos : 0 < maxStrDigits := by decide
    have hlt : i.natAbs < 10 ^ maxStrDigits := by
      rw [hi]
      exact (ofDigits_lt hdigits).trans_le (Nat.pow_le_pow_right (by decide) (not_lt.mp hshort))
    have hlength : (decimal i.natAbs).length ≤ maxStrDigits := by
      unfold decimal
      rw [List.length_map]
      exact (Nat.length_toDigits_le_iff (by decide) hpos).mpr hlt
    exact hlength

theorem canLoad_float (negative : Bool) (digits frac : List ℕ) (exponent : Int) :
    CanLoad (.float (floatOfLiteral negative digits frac exponent)) := by
  have hround : ∀ x : ℚ, 0 ≤ x → CanLoad (.float (roundMagnitude negative x)) := by
    intro x hx
    cases hq : roundMagnitude negative x with
    | nan => trivial
    | inf negative => trivial
    | finite negative q => exact isFloat_roundMagnitude hx hq
  unfold floatOfLiteral
  dsimp only
  split
  · exact ⟨le_refl 0,isFloat_zero⟩
  split
  · trivial
  split
  · exact ⟨le_refl 0,isFloat_zero⟩
  split
  · exact hround _ (Nat.cast_nonneg _)
  · exact hround _ (div_nonneg (Nat.cast_nonneg _) (Nat.cast_nonneg _))

/-- `json.loads` gives values that can be loaded, no deeper than the limit. -/
theorem inductive_loaded (limit : ℕ) :
    Inductive limit (fun h v => v.Every CanLoad ∧ (h ≤ limit → depth v + h ≤ limit)) where
  null h := ⟨(every_leaf_iff (by simp) (by simp)).mpr trivial,by simp [depth]⟩
  bool h b := ⟨(every_leaf_iff (by simp) (by simp)).mpr trivial,by simp [depth]⟩
  nan h := ⟨(every_leaf_iff (by simp) (by simp)).mpr trivial,by simp [depth]⟩
  inf h negative := ⟨(every_leaf_iff (by simp) (by simp)).mpr trivial,by simp [depth]⟩
  str h s := ⟨(every_leaf_iff (by simp) (by simp)).mpr trivial,by simp [depth]⟩
  int h negative digits i hdigits hi :=
    ⟨(every_leaf_iff (by simp) (by simp)).mpr (canLoad_int hdigits hi),by simp [depth]⟩
  float h negative digits frac exponent :=
    ⟨(every_leaf_iff (by simp) (by simp)).mpr (canLoad_float ..),by simp [depth]⟩
  arr h items hlt hitems := by
    refine ⟨every_arr_iff.mpr ⟨trivial,fun v hv => (hitems v hv).1⟩,fun _ => ?_⟩
    have hdepth : depthItems items ≤ limit - (h + 1) := depthItems_le (fun v hv => by
      have := (hitems v hv).2 hlt
      omega)
    rw [depth]
    omega
  obj h entries hlt hnodup hentries := by
    refine ⟨every_obj_iff.mpr ⟨hnodup,fun e he => (hentries e he).1⟩,fun _ => ?_⟩
    have hdepth : depthEntries entries ≤ limit - (h + 1) := depthEntries_le (fun e he => by
      have := (hentries e he).2 hlt
      omega)
    rw [depth]
    omega

theorem loads_canLoad {body : Bytes} (h : loads limit body = .ok v) :
    v.Every CanLoad ∧ depth v ≤ limit := by
  obtain ⟨hevery,hdepth⟩ := loads_holds (inductive_loaded limit) h
  exact ⟨hevery,by simpa using hdepth (Nat.zero_le limit)⟩

end Loaded

end Woodhouse.Python
