import Woodhouse.Python.Regex

namespace Woodhouse.Python

/-- A word stands at a position of a text. -/
def OccursAt (w : Str) (i : Nat) (s : Str) : Prop := ∃ a b, s = a ++ w ++ b ∧ a.length = i

section Occurrences
variable {w s t : Str} {i : Nat} {c : CodePoint}

theorem infix_of_occursAt (h : OccursAt w i s) : w <:+: s := by
  obtain ⟨a,b,hs,_⟩ := h
  exact ⟨a,b,hs.symm⟩

/-- What a cut leaves is what ends before it. -/
theorem infix_take {n : Nat} : w <:+: s.take n ↔ w = [] ∨ ∃ i, OccursAt w i s ∧ i + w.length ≤ n := by
  constructor
  · rintro ⟨a,b,hab⟩
    by_cases hw : w = []
    · exact Or.inl hw
    · refine Or.inr ⟨a.length,⟨a,b ++ s.drop n,?_,rfl⟩,?_⟩
      · rw [← List.append_assoc,hab,List.take_append_drop]
      · have hlen := congrArg List.length hab
        simp only [List.length_append,List.length_take] at hlen
        omega
  · rintro (rfl | ⟨i,⟨a,b,rfl,rfl⟩,hle⟩)
    · exact List.nil_infix
    · refine ⟨a,b.take (n - (a ++ w).length),?_⟩
      have hfront : (a ++ w).take n = a ++ w := List.take_of_length_le (by simpa using hle)
      rw [List.take_append,hfront]

/-- Around a character that is not of the word, it stands on one of the sides. -/
theorem occursAt_break (hc : c ∉ w) :
    OccursAt w i (s ++ c :: t) ↔ OccursAt w i s ∨ ∃ j, OccursAt w j t ∧ i = s.length + 1 + j := by
  constructor
  · rintro ⟨a,b,heq,rfl⟩
    rcases List.append_eq_append_iff.mp heq with ⟨k,hk,hb⟩ | ⟨k,hk,hb⟩
    · cases k with
      | nil =>
        rw [List.append_nil] at hk
        exact Or.inl ⟨a,[],by rw [List.append_nil,hk],rfl⟩
      | cons d k =>
        rw [List.cons_append] at hb
        obtain ⟨rfl,ht⟩ := List.cons.inj hb
        rcases List.append_eq_append_iff.mp hk with ⟨l,hl,hd⟩ | ⟨l,hl,hd⟩
        · exact absurd (hd ▸ List.mem_append_right l List.mem_cons_self) hc
        · cases l with
          | nil =>
            rw [List.nil_append] at hd
            exact absurd (hd ▸ List.mem_cons_self) hc
          | cons e l =>
            rw [List.cons_append] at hd
            obtain ⟨rfl,hk'⟩ := List.cons.inj hd
            refine Or.inr ⟨l.length,⟨l,b,by rw [ht,hk'],rfl⟩,?_⟩
            rw [hl,List.length_append,List.length_cons]
            omega
    · exact Or.inl ⟨a,k,hk,rfl⟩
  · rintro (⟨a,b,rfl,rfl⟩ | ⟨j,⟨a,b,rfl,rfl⟩,rfl⟩)
    · exact ⟨a,b ++ c :: t,by simp,rfl⟩
    · refine ⟨s ++ c :: a,b,by simp,?_⟩
      rw [List.length_append,List.length_cons]
      omega

end Occurrences

section Markers
variable {marker inner w : Str} {i : Nat}

/-- A text in brackets. -/
def bracketed (inner : Str) : Str := chr '[' :: (inner ++ [chr ']'])

/-- A word that has no bracket in it and is no part of the marker stands in one of the pieces. -/
theorem occursAt_join (hw : w ≠ []) (hopen : chr '[' ∉ w) (hclose : chr ']' ∉ w)
    (hinner : ¬ w <:+: inner) {pieces : List Str} :
    OccursAt w i (join (bracketed inner) pieces) ↔ ∃ earlier piece later j,
      pieces = earlier ++ piece :: later ∧ OccursAt w j piece ∧
        i = (earlier.map (fun p => p.length + (bracketed inner).length)).sum + j := by
  induction pieces generalizing i with
  | nil =>
    constructor
    · rintro ⟨a,b,heq,_⟩
      have hnil : w = [] := by
        cases w with
        | nil => rfl
        | cons d w => simp [join] at heq
      exact absurd hnil hw
    · rintro ⟨earlier,piece,later,_,heq,_⟩
      simp at heq
  | cons piece rest ih =>
    by_cases hrest : rest = []
    · subst hrest
      constructor
      · intro h
        exact ⟨[],piece,[],i,rfl,h,by simp⟩
      · rintro ⟨earlier,other,later,j,heq,hj,rfl⟩
        cases earlier with
        | nil =>
          obtain ⟨rfl,_⟩ := List.cons.inj heq
          simpa [join] using hj
        | cons _ earlier => simp at heq
    · have htext : join (bracketed inner) (piece :: rest) =
          piece ++ chr '[' :: (inner ++ chr ']' :: join (bracketed inner) rest) := by
        rw [join_cons hrest]
        simp [bracketed]
      have hlength : (bracketed inner).length = inner.length + 2 := by simp [bracketed]
      rw [htext,occursAt_break hopen]
      constructor
      · rintro (h | ⟨j,hj,rfl⟩)
        · exact ⟨[],piece,rest,i,rfl,h,by simp⟩
        · rcases (occursAt_break hclose).mp hj with hj | ⟨k,hk,rfl⟩
          · exact absurd (infix_of_occursAt hj) hinner
          · obtain ⟨earlier,other,later,l,rfl,hl,rfl⟩ := ih.mp hk
            refine ⟨piece :: earlier,other,later,l,rfl,hl,?_⟩
            rw [List.map_cons,List.sum_cons,hlength]
            omega
      · rintro ⟨earlier,other,later,j,heq,hj,rfl⟩
        cases earlier with
        | nil =>
          obtain ⟨rfl,_⟩ := List.cons.inj heq
          exact Or.inl (by simpa using hj)
        | cons first earlier =>
          rw [List.cons_append] at heq
          obtain ⟨rfl,htail⟩ := List.cons.inj heq
          have hk := ih.mpr ⟨earlier,other,later,j,htail,hj,rfl⟩
          refine Or.inr ⟨_,(occursAt_break hclose).mpr (Or.inr ⟨_,hk,rfl⟩),?_⟩
          rw [List.map_cons,List.sum_cons,hlength]
          omega

theorem join_flatMap {α : Type} (f : α → List Str) (hf : ∀ a, f a ≠ []) (l : List α) :
    join marker (l.flatMap f) = join marker (l.map (fun a => join marker (f a))) := by
  induction l with
  | nil => rfl
  | cons a l ih =>
    cases l with
    | nil => simp [join]
    | cons b l =>
      have hne : (b :: l).flatMap f ≠ [] := by
        rw [List.flatMap_cons]
        exact List.append_ne_nil_of_left_ne_nil (hf b) _
      rw [List.flatMap_cons,join_append (hf a) hne,ih]
      exact (join_cons (List.cons_ne_nil _ _)).symm

variable {word : CodePoint → Bool} {r : Regex}

/-- A pattern that rejects brackets works on each piece between two markers on its own. -/
theorem Regex.sub_join (hr : r.Consumes word) (hopen : r.Rejects word (chr '['))
    (hclose : r.Rejects word (chr ']')) (hwopen : word (chr '[') = false)
    (hwclose : word (chr ']') = false) (hinner : r.sub word marker inner = inner)
    (pieces : List Str) : r.sub word marker (join (bracketed inner) pieces) =
      join (bracketed inner) (pieces.map (fun p => r.sub word marker p)) := by
  induction pieces with
  | nil => rfl
  | cons piece rest ih =>
    by_cases hrest : rest = []
    · subst hrest
      rfl
    · have htext : join (bracketed inner) (piece :: rest) =
          piece ++ chr '[' :: (inner ++ chr ']' :: join (bracketed inner) rest) := by
        rw [join_cons hrest]
        simp [bracketed]
      rw [htext,Regex.sub_break hr hwopen hopen,Regex.sub_break hr hwclose hclose,hinner,ih,
        List.map_cons,join_cons (by simpa using hrest)]
      simp [bracketed]

end Markers

end Woodhouse.Python
