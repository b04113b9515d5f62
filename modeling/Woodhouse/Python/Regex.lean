import Mathlib.Data.List.Basic
import Woodhouse.Python.Text

namespace Woodhouse.Python

/-- `marker.join(pieces)`. -/
def join (marker : Str) : List Str → Str
  | [] => []
  | [piece] => piece
  | piece :: next :: rest => piece ++ (marker ++ join marker (next :: rest))

theorem join_cons {marker piece : Str} {rest : List Str} (h : rest ≠ []) :
    join marker (piece :: rest) = piece ++ (marker ++ join marker rest) := by
  cases rest with
  | nil => exact absurd rfl h
  | cons next rest => rfl

theorem join_append {marker : Str} {front back : List Str} (hf : front ≠ []) (hb : back ≠ []) :
    join marker (front ++ back) = join marker front ++ (marker ++ join marker back) := by
  induction front with
  | nil => exact absurd rfl hf
  | cons piece front ih =>
    cases front with
    | nil => exact join_cons hb
    | cons next front =>
      have hrest := ih (List.cons_ne_nil next front)
      rw [List.cons_append,join_cons (by simp),hrest,join_cons (List.cons_ne_nil next front)]
      simp only [List.append_assoc]

/-- A place in a text, with the character before it. -/
structure Place where
  previous : Option CodePoint
  rest : Str

/-- A pattern of `re` without groups. -/
inductive Regex where
  | empty
  | char (p : CodePoint → Bool)
  | many (p : CodePoint → Bool)
  | boundary
  | notAfter (p : CodePoint → Bool)
  | notBefore (p : CodePoint → Bool)
  | seq (r s : Regex)
  | either (r s : Regex)

namespace Regex

def literal (s : Str) : Regex := s.foldr (fun c r => .seq (.char (fun d => d = c)) r) .empty

/-- `p{n}`. -/
def times (p : CodePoint → Bool) : Nat → Regex
  | 0 => .empty
  | n + 1 => .seq (.char p) (times p n)

/-- `p{n,}`. -/
def atLeast (n : Nat) (p : CodePoint → Bool) : Regex := .seq (times p n) (.many p)

/-- `r?`. -/
def optional (r : Regex) : Regex := .either r .empty

/-- `p*`, the longest first. -/
def manyFrom (p : CodePoint → Bool) (previous : Option CodePoint) : Str → List Place
  | [] => [⟨previous,[]⟩]
  | c :: rest =>
    if p c then manyFrom p (some c) rest ++ [⟨previous,c :: rest⟩] else [⟨previous,c :: rest⟩]

section Matching
variable (word : CodePoint → Bool)

def atBoundary (a : Place) : Bool := a.previous.any word != a.rest.head?.any word

/-- The places where a match that begins at a place can end, in the order they are tried. -/
def ends : Regex → Place → List Place
  | .empty, a => [a]
  | .char p, a =>
    match a.rest with
    | c :: rest => if p c then [⟨some c,rest⟩] else []
    | [] => []
  | .many p, a => manyFrom p a.previous a.rest
  | .boundary, a => if atBoundary word a then [a] else []
  | .notAfter p, a => if a.previous.any p then [] else [a]
  | .notBefore p, a => if a.rest.head?.any p then [] else [a]
  | .seq r s, a => (r.ends a).flatMap s.ends
  | .either r s, a => r.ends a ++ s.ends a

/-- The pieces of a text around the matches of a pattern that matches no empty text; the first
`skip` characters belong to a match. -/
def splitFrom (r : Regex) : (skip : Nat) → Option CodePoint → (piece : Str) → Str → List Str
  | _, _, piece, [] => [piece]
  | skip + 1, _, piece, c :: rest => splitFrom r skip (some c) piece rest
  | 0, previous, piece, c :: rest =>
    match r.ends word ⟨previous,c :: rest⟩ with
    | [] => splitFrom r 0 (some c) (piece ++ [c]) rest
    | a :: _ => piece :: splitFrom r (rest.length - a.rest.length) (some c) [] rest

/-- `pattern.split(s)`. -/
def split (r : Regex) (s : Str) : List Str := splitFrom word r 0 none [] s

/-- `pattern.sub(marker, s)`. -/
def sub (r : Regex) (marker s : Str) : Str := join marker (r.split word s)

end Matching

section Texts
variable {word : CodePoint → Bool} {r : Regex} {a b : Place}

theorem manyFrom_suffix {p : CodePoint → Bool} {previous : Option CodePoint} {s : Str}
    (h : b ∈ manyFrom p previous s) :
    ∃ taken, s = taken ++ b.rest ∧ b.previous = taken.getLast?.or previous := by
  induction s generalizing previous with
  | nil =>
    rw [List.mem_singleton.mp h]
    exact ⟨[],rfl,rfl⟩
  | cons c rest ih =>
    unfold manyFrom at h
    split at h
    · rcases List.mem_append.mp h with h | h
      · obtain ⟨taken,hrest,hprev⟩ := ih h
        refine ⟨c :: taken,by rw [hrest]; rfl,?_⟩
        rw [hprev]
        cases taken with
        | nil => rfl
        | cons d taken => simp [List.getLast?_cons]
      · rw [List.mem_singleton.mp h]
        exact ⟨[],rfl,rfl⟩
    · rw [List.mem_singleton.mp h]
      exact ⟨[],rfl,rfl⟩

/-- A match takes a part of what follows. -/
theorem ends_suffix (h : b ∈ r.ends word a) :
    ∃ taken, a.rest = taken ++ b.rest ∧ b.previous = taken.getLast?.or a.previous := by
  induction r generalizing a b with
  | empty =>
    rw [List.mem_singleton.mp h]
    exact ⟨[],rfl,rfl⟩
  | char p =>
    unfold ends at h
    split at h
    · rename_i c rest hrest
      split at h
      · rw [List.mem_singleton.mp h,hrest]
        exact ⟨[c],rfl,rfl⟩
      · cases h
    · cases h
  | many p => exact manyFrom_suffix h
  | boundary =>
    unfold ends at h
    split at h
    · rw [List.mem_singleton.mp h]
      exact ⟨[],rfl,rfl⟩
    · cases h
  | notAfter p =>
    unfold ends at h
    split at h
    · cases h
    · rw [List.mem_singleton.mp h]
      exact ⟨[],rfl,rfl⟩
  | notBefore p =>
    unfold ends at h
    split at h
    · cases h
    · rw [List.mem_singleton.mp h]
      exact ⟨[],rfl,rfl⟩
  | seq r s ihr ihs =>
    obtain ⟨m,hm,hb⟩ := List.mem_flatMap.mp h
    obtain ⟨first,hfirst,hprev⟩ := ihr hm
    obtain ⟨second,hsecond,hlast⟩ := ihs hb
    refine ⟨first ++ second,by rw [hfirst,hsecond,List.append_assoc],?_⟩
    rw [hlast,hprev,List.getLast?_append,Option.or_assoc]
  | either r s ihr ihs =>
    rcases List.mem_append.mp h with h | h
    · exact ihr h
    · exact ihs h

theorem ends_length (h : b ∈ r.ends word a) : b.rest.length ≤ a.rest.length := by
  obtain ⟨taken,hrest,_⟩ := ends_suffix h
  rw [hrest,List.length_append]
  omega

variable (word r) in
/-- The pattern matches no empty text. -/
def Consumes : Prop := ∀ a, ∀ b ∈ r.ends word a, b.rest.length < a.rest.length

theorem consumes_char (word p : CodePoint → Bool) : Consumes word (.char p) := by
  intro a b hb
  unfold ends at hb
  split at hb
  · rename_i c rest hrest
    split at hb
    · rw [List.mem_singleton.mp hb,hrest]
      simp
    · cases hb
  · cases hb

theorem Consumes.before {s : Regex} (h : Consumes word r) : Consumes word (.seq r s) := by
  intro a b hb
  obtain ⟨m,hm,hb⟩ := List.mem_flatMap.mp hb
  exact Nat.lt_of_le_of_lt (ends_length hb) (h a m hm)

theorem Consumes.after {s : Regex} (h : Consumes word r) : Consumes word (.seq s r) := by
  intro a b hb
  obtain ⟨m,hm,hb⟩ := List.mem_flatMap.mp hb
  exact Nat.lt_of_lt_of_le (h m b hb) (ends_length hm)

theorem consumes_times (word p : CodePoint → Bool) (n : Nat) : Consumes word (times p (n + 1)) :=
  (consumes_char word p).before

theorem consumes_literal {s : Str} (h : s ≠ []) : Consumes word (literal s) := by
  cases s with
  | nil => exact absurd rfl h
  | cons c s => exact (consumes_char word _).before

/-- The only end of `p{n}` over `n` characters of `p`. -/
theorem ends_times {p : CodePoint → Bool} {w : Str} (h : ∀ c ∈ w, p c = true)
    (previous : Option CodePoint) (t : Str) :
    (times p w.length).ends word ⟨previous,w ++ t⟩ = [⟨w.getLast?.or previous,t⟩] := by
  induction w generalizing previous with
  | nil => rfl
  | cons c w ih =>
    obtain ⟨hc,hw⟩ := List.forall_mem_cons.mp h
    have hlast : (c :: w).getLast?.or previous = w.getLast?.or (some c) := by
      cases w with
      | nil => rfl
      | cons d w => simp [List.getLast?_cons]
    simp only [List.length_cons,times,ends,List.cons_append,hc,if_true,List.flatMap_singleton]
    rw [ih hw,hlast]

/-- A match of a pattern that begins and ends with `\b`. -/
theorem ends_framed {a b : Place} {body : Regex}
    (h : b ∈ ends word (.seq .boundary (.seq body .boundary)) a) :
    atBoundary word a = true ∧ atBoundary word b = true := by
  obtain ⟨m,hm,hb⟩ := List.mem_flatMap.mp h
  obtain ⟨n,_,hb⟩ := List.mem_flatMap.mp hb
  unfold ends at hm hb
  split at hm
  · rename_i ha
    split at hb
    · rename_i hn
      rw [List.mem_singleton.mp hb]
      exact ⟨ha,hn⟩
    · cases hb
  · cases hm

/-- A piece `p` between two matches, of the text `u ++ p ++ v`. -/
structure Piece (word : CodePoint → Bool) (r : Regex) (u p v : Str) : Prop where
  quiet : ∀ x c y, p = x ++ c :: y → r.ends word ⟨(u ++ x).getLast?,c :: (y ++ v)⟩ = []
  left : u = [] ∨ ∃ a, ⟨u.getLast?,p ++ v⟩ ∈ r.ends word a
  right : v = [] ∨ r.ends word ⟨(u ++ p).getLast?,v⟩ ≠ []

theorem mem_splitFrom (hr : Consumes word r) {skip : Nat} {front piece s p : Str}
    (hquiet : ∀ x c y, piece = x ++ c :: y →
      r.ends word ⟨(front ++ x).getLast?,c :: (y ++ s)⟩ = [])
    (hskip : skip ≤ s.length ∧ (0 < skip → piece = []))
    (hleft : front ++ s.take skip = [] ∨
      ∃ a, ⟨(front ++ s.take skip).getLast?,piece ++ s.drop skip⟩ ∈ r.ends word a)
    (h : p ∈ splitFrom word r skip (front ++ piece).getLast? piece s) :
    ∃ u v, front ++ piece ++ s = u ++ p ++ v ∧ Piece word r u p v := by
  induction s generalizing skip front piece with
  | nil =>
    have hzero : skip = 0 := Nat.le_zero.mp hskip.1
    subst hzero
    rw [splitFrom] at h
    rw [List.mem_singleton.mp h]
    refine ⟨front,[],rfl,hquiet,?_,Or.inl rfl⟩
    simpa using hleft
  | cons c rest ih =>
    cases skip with
    | succ skip =>
      obtain ⟨hlen,hpiece⟩ := hskip
      obtain rfl := hpiece (Nat.succ_pos skip)
      rw [splitFrom] at h
      have hstep : (front ++ [c] ++ ([] : Str)).getLast? = some c := by simp
      rw [← hstep] at h
      obtain ⟨u,v,htext,hp⟩ := @ih skip (front ++ [c]) [] (by simp)
        ⟨Nat.le_of_succ_le_succ hlen,fun _ => rfl⟩ (by simpa using hleft) h
      exact ⟨u,v,by rw [← htext]; simp,hp⟩
    | zero =>
      rw [splitFrom] at h
      split at h
      · rename_i hnone
        have hlast : (front ++ (piece ++ [c])).getLast? = some c := by
          rw [← List.append_assoc,List.getLast?_concat]
        rw [← hlast] at h
        refine (@ih 0 front (piece ++ [c]) ?_ ⟨Nat.zero_le _,by simp⟩ ?_ h).imp ?_
        · intro x d y heq
          rcases List.eq_nil_or_concat y with rfl | ⟨y',e,rfl⟩
          · obtain ⟨rfl,hd⟩ := List.append_inj' heq rfl
            cases hd
            exact hnone
          · rw [List.concat_eq_append,← List.cons_append,← List.append_assoc] at heq
            obtain ⟨hpiece,he⟩ := List.append_inj' heq rfl
            cases he
            simpa using hquiet x d y' hpiece
        · simpa using hleft
        · rintro u ⟨v,htext,hp⟩
          exact ⟨v,by rw [← htext]; simp,hp⟩
      · rename_i a more hends
        obtain ⟨last,after⟩ := a
        have hmem : ⟨last,after⟩ ∈ r.ends word ⟨(front ++ piece).getLast?,c :: rest⟩ := by
          rw [hends]
          exact List.mem_cons_self
        rcases List.mem_cons.mp h with rfl | h
        · refine ⟨front,c :: rest,rfl,?_,?_,Or.inr (by rw [hends]; simp)⟩
          · exact hquiet
          · simpa using hleft
        · obtain ⟨taken,htaken,hprev⟩ := ends_suffix hmem
          have hlt := hr _ _ hmem
          simp only at htaken hprev hlt
          cases taken with
          | nil =>
            rw [htaken] at hlt
            simp at hlt
          | cons d taken =>
            rw [List.cons_append] at htaken
            obtain ⟨rfl,hrest⟩ := List.cons.inj htaken
            have hskip' : rest.length - after.length = taken.length := by
              rw [hrest,List.length_append]
              omega
            have hlast : (front ++ piece ++ [c] ++ ([] : Str)).getLast? = some c := by simp
            have hend : (front ++ piece ++ [c] ++ rest.take taken.length).getLast? = last := by
              rw [hprev,hrest,List.take_left,List.append_assoc (front ++ piece),List.singleton_append,
                List.getLast?_append]
            have hdrop : ([] : Str) ++ rest.drop taken.length = after := by
              rw [hrest,List.drop_left,List.nil_append]
            simp only [hskip'] at h
            rw [← hlast] at h
            obtain ⟨u,v,htext,hp⟩ := @ih taken.length (front ++ piece ++ [c]) [] (by simp)
              ⟨by rw [hrest,List.length_append]; omega,fun _ => rfl⟩
              (Or.inr ⟨_,by rw [hend,hdrop]; exact hmem⟩) h
            exact ⟨u,v,by rw [← htext]; simp,hp⟩

/-- Each piece of a text stands between two matches and none begins in it. -/
theorem mem_split (hr : Consumes word r) {s p : Str} (h : p ∈ r.split word s) :
    ∃ u v, s = u ++ p ++ v ∧ Piece word r u p v := by
  have hpiece := @mem_splitFrom word r hr 0 [] [] s p (by simp) ⟨Nat.zero_le _,fun _ => rfl⟩
    (Or.inl rfl) h
  simpa using hpiece

end Texts

section Breaks
variable {word : CodePoint → Bool} {r : Regex} {c : CodePoint} {marker s t : Str}

variable (word c) in
/-- No part of the pattern takes the character, and it is no part of a word. -/
def Rejects : Regex → Prop
  | .empty | .boundary => word c = false
  | .char p | .many p | .notAfter p | .notBefore p => p c = false
  | .seq r s | .either r s => Rejects r ∧ Rejects s

theorem rejects_times {p : CodePoint → Bool} (hp : p c = false) (hword : word c = false) (n : Nat) :
    Rejects word c (times p n) := by
  induction n with
  | zero => exact hword
  | succ n ih => exact ⟨hp,ih⟩

theorem rejects_literal {s : Str} (hc : c ∉ s) (hword : word c = false) :
    Rejects word c (literal s) := by
  induction s with
  | nil => exact hword
  | cons d s ih =>
    rw [List.mem_cons,not_or] at hc
    exact ⟨decide_eq_false hc.1,ih hc.2⟩

/-- The place with more text behind it. -/
def extend (t : Str) (a : Place) : Place := ⟨a.previous,a.rest ++ t⟩

/-- The place with a character before the text. -/
def fill (c : CodePoint) (a : Place) : Place := ⟨some (a.previous.getD c),a.rest⟩

theorem manyFrom_extend {p : CodePoint → Bool} (hp : p c = false) (previous : Option CodePoint)
    (s t : Str) : manyFrom p previous (s ++ c :: t) = (manyFrom p previous s).map (extend (c :: t)) := by
  induction s generalizing previous with
  | nil => simp [manyFrom,hp,extend]
  | cons d s ih =>
    rw [List.cons_append,manyFrom,manyFrom,ih]
    split
    · rw [List.map_append]
      rfl
    · rfl

/-- A match does not see what comes behind a character that the pattern rejects. -/
theorem ends_extend (h : Rejects word c r) (a : Place) (t : Str) :
    r.ends word (extend (c :: t) a) = (r.ends word a).map (extend (c :: t)) := by
  induction r generalizing a with
  | empty => rfl
  | char p =>
    obtain ⟨previous,rest⟩ := a
    cases rest with
    | nil =>
      change p c = false at h
      simp [ends,extend,h]
    | cons d rest =>
      simp only [ends,extend,List.cons_append]
      split <;> rfl
  | many p => exact manyFrom_extend h a.previous a.rest t
  | boundary =>
    have hword : word c = false := h
    have hat : atBoundary word (extend (c :: t) a) = atBoundary word a := by
      obtain ⟨previous,rest⟩ := a
      cases rest with
      | nil => simp [atBoundary,extend,hword]
      | cons d rest => rfl
    simp only [ends,hat]
    split <;> rfl
  | notAfter p =>
    change (if a.previous.any p then [] else [extend (c :: t) a]) = _
    unfold ends
    split <;> rfl
  | notBefore p =>
    have hp : p c = false := h
    have hhead : (extend (c :: t) a).rest.head?.any p = a.rest.head?.any p := by
      obtain ⟨previous,rest⟩ := a
      cases rest with
      | nil => simp [extend,hp]
      | cons d rest => rfl
    simp only [ends,hhead]
    split <;> rfl
  | seq r s ihr ihs =>
    simp only [ends,ihr h.1,List.flatMap_map,List.map_flatMap,ihs h.2]
  | either r s ihr ihs =>
    simp only [ends,ihr h.1,ihs h.2,List.map_append]

theorem manyFrom_fill (p : CodePoint → Bool) (c : CodePoint) (previous : Option CodePoint) (s : Str) :
    manyFrom p (some (previous.getD c)) s = (manyFrom p previous s).map (fill c) := by
  cases s with
  | nil => rfl
  | cons d s =>
    have hrest : ∀ (s : Str) (d : CodePoint), (manyFrom p (some d) s).map (fill c) =
        manyFrom p (some d) s := by
      intro s
      induction s with
      | nil => exact fun _ => rfl
      | cons e s ih =>
        intro d
        unfold manyFrom
        split
        · rw [List.map_append,ih]
          rfl
        · rfl
    unfold manyFrom
    split
    · rw [List.map_append,hrest]
      rfl
    · rfl

/-- Before a text, a character that the pattern rejects is as good as none. -/
theorem ends_fill (hword : word c = false) (h : Rejects word c r) (a : Place) :
    r.ends word (fill c a) = (r.ends word a).map (fill c) := by
  have hany : ∀ (p : CodePoint → Bool) (previous : Option CodePoint), p c = false →
      (some (previous.getD c)).any p = previous.any p := by
    intro p previous hp
    cases previous with
    | none => simp [hp]
    | some d => rfl
  induction r generalizing a with
  | empty => rfl
  | char p =>
    obtain ⟨previous,rest⟩ := a
    cases rest with
    | nil => rfl
    | cons d rest =>
      simp only [ends,fill]
      split <;> rfl
  | many p => exact manyFrom_fill p c a.previous a.rest
  | boundary =>
    have hat : atBoundary word (fill c a) = atBoundary word a := by
      simp only [atBoundary,fill,hany word a.previous hword]
    simp only [ends,hat]
    split <;> rfl
  | notAfter p =>
    simp only [ends,fill,hany p a.previous h]
    split <;> rfl
  | notBefore p =>
    change (if a.rest.head?.any p then [] else [fill c a]) = _
    unfold ends
    split <;> rfl
  | seq r s ihr ihs =>
    simp only [ends,ihr h.1,List.flatMap_map,List.map_flatMap,ihs h.2]
  | either r s ihr ihs =>
    simp only [ends,ihr h.1,ihs h.2,List.map_append]

theorem splitFrom_ne_nil (r : Regex) (skip : Nat) (previous : Option CodePoint) (piece s : Str) :
    splitFrom word r skip previous piece s ≠ [] := by
  induction s generalizing skip previous piece with
  | nil => simp [splitFrom]
  | cons c rest ih =>
    cases skip with
    | succ skip => exact ih skip (some c) piece
    | zero =>
      unfold splitFrom
      split
      · exact ih 0 (some c) (piece ++ [c])
      · simp

variable (word r marker) in
/-- What `pattern.sub` makes of the rest of a text, whose first `skip` characters belong to a match. -/
def subFrom (skip : Nat) (previous : Option CodePoint) (s : Str) : Str :=
  join marker (splitFrom word r skip previous [] s)

theorem join_splitFrom (previous : Option CodePoint) (piece s : Str) :
    join marker (splitFrom word r 0 previous piece s) = piece ++ subFrom word r marker 0 previous s := by
  have hfirst : ∀ (s : Str) (previous : Option CodePoint) (front piece : Str),
      join marker (splitFrom word r 0 previous (front ++ piece) s) =
        front ++ join marker (splitFrom word r 0 previous piece s) := by
    intro s
    induction s with
    | nil => exact fun _ _ _ => rfl
    | cons c rest ih =>
      intro previous front piece
      unfold splitFrom
      split
      · rw [List.append_assoc,ih]
      · rw [join_cons (splitFrom_ne_nil r _ _ _ _),join_cons (splitFrom_ne_nil r _ _ _ _),
          List.append_assoc]
  have hall := hfirst s previous piece []
  rwa [List.append_nil] at hall

theorem subFrom_skip (skip : Nat) (previous : Option CodePoint) (d : CodePoint) (s : Str) :
    subFrom word r marker (skip + 1) previous (d :: s) = subFrom word r marker skip (some d) s := rfl

theorem subFrom_quiet {previous : Option CodePoint} {d : CodePoint}
    (h : r.ends word ⟨previous,d :: s⟩ = []) :
    subFrom word r marker 0 previous (d :: s) = d :: subFrom word r marker 0 (some d) s := by
  unfold subFrom
  rw [splitFrom,h]
  exact join_splitFrom (some d) [d] s

theorem subFrom_match {previous : Option CodePoint} {d : CodePoint} {a : Place} {more : List Place}
    (h : r.ends word ⟨previous,d :: s⟩ = a :: more) :
    subFrom word r marker 0 previous (d :: s) =
      marker ++ subFrom word r marker (s.length - a.rest.length) (some d) s := by
  unfold subFrom
  rw [splitFrom,h]
  exact join_cons (splitFrom_ne_nil r _ _ _ _)

/-- Nothing matches where the pattern rejects the next character. -/
theorem ends_rejected (hr : Consumes word r) (h : Rejects word c r) (previous : Option CodePoint)
    (t : Str) : r.ends word ⟨previous,c :: t⟩ = [] := by
  have hextend := ends_extend h ⟨previous,[]⟩ t
  have hnone : r.ends word ⟨previous,[]⟩ = [] := by
    refine List.eq_nil_iff_forall_not_mem.mpr ?_
    intro b hb
    exact absurd (hr _ b hb) (Nat.not_lt_zero _)
  rw [hnone] at hextend
  exact hextend

theorem subFrom_append (hr : Consumes word r) (h : Rejects word c r) {skip : Nat}
    (hskip : skip ≤ s.length) (previous : Option CodePoint) (t : Str) :
    subFrom word r marker skip previous (s ++ c :: t) = subFrom word r marker skip previous s ++
      subFrom word r marker 0 (s.getLast?.or previous) (c :: t) := by
  induction s generalizing skip previous with
  | nil =>
    obtain rfl : skip = 0 := Nat.le_zero.mp hskip
    simp [subFrom,splitFrom,join]
  | cons d s ih =>
    have hlast : (d :: s).getLast?.or previous = s.getLast?.or (some d) := by
      cases s with
      | nil => rfl
      | cons e s => simp [List.getLast?_cons]
    rw [List.cons_append,hlast]
    cases skip with
    | succ skip =>
      rw [subFrom_skip,subFrom_skip]
      exact ih (Nat.le_of_succ_le_succ hskip) (some d)
    | zero =>
      have hextend : r.ends word ⟨previous,d :: (s ++ c :: t)⟩ =
          (r.ends word ⟨previous,d :: s⟩).map (extend (c :: t)) :=
        ends_extend h ⟨previous,d :: s⟩ t
      cases hends : r.ends word ⟨previous,d :: s⟩ with
      | nil =>
        rw [hends] at hextend
        rw [subFrom_quiet hextend,subFrom_quiet hends,ih (Nat.zero_le _) (some d)]
        rfl
      | cons a more =>
        rw [hends] at hextend
        have hlt := hr _ a (by rw [hends]; exact List.mem_cons_self)
        rw [List.length_cons] at hlt
        have hskip' : (s ++ c :: t).length - (extend (c :: t) a).rest.length =
            s.length - a.rest.length := by
          simp only [extend,List.length_append]
          omega
        rw [subFrom_match hextend,subFrom_match hends,hskip',ih (by omega) (some d),List.append_assoc]

theorem subFrom_some (hword : word c = false) (h : Rejects word c r) (s : Str) :
    subFrom word r marker 0 (some c) s = r.sub word marker s := by
  change _ = subFrom word r marker 0 none s
  cases s with
  | nil => rfl
  | cons d s =>
    have hfill : r.ends word ⟨some c,d :: s⟩ = (r.ends word ⟨none,d :: s⟩).map (fill c) :=
      ends_fill hword h ⟨none,d :: s⟩
    cases hends : r.ends word ⟨none,d :: s⟩ with
    | nil =>
      rw [hends] at hfill
      rw [subFrom_quiet hends,subFrom_quiet hfill]
    | cons a more =>
      rw [hends] at hfill
      rw [subFrom_match hends,subFrom_match hfill]
      rfl

/-- A character that the pattern rejects divides the text. -/
theorem sub_break (hr : Consumes word r) (hword : word c = false) (h : Rejects word c r) (s t : Str) :
    r.sub word marker (s ++ c :: t) = r.sub word marker s ++ c :: r.sub word marker t := by
  change subFrom word r marker 0 none (s ++ c :: t) = _
  rw [subFrom_append hr h (Nat.zero_le _),subFrom_quiet (ends_rejected hr h _ t),
    subFrom_some hword h]
  rfl

end Breaks

end Regex

end Woodhouse.Python
