import Mathlib.Data.List.Infix
import Woodhouse.Python.Regex

namespace Woodhouse.Python

section Overlap
variable {marker w : Str}

/-- The marker, written into a text, can complete the word there. -/
def Overlaps (marker w : Str) : Prop :=
  marker <:+: w ∨ (∃ u ∈ w.inits, u ≠ [] ∧ u <:+ marker) ∨ ∃ u ∈ w.tails, u ≠ [] ∧ u <+: marker

instance (marker w : Str) : Decidable (Overlaps marker w) := inferInstanceAs (Decidable (_ ∨ _))

/-- A word without the first and the last character of the marker cannot be completed by it. -/
theorem not_overlaps {first last : CodePoint} (hfirst : marker.head? = some first)
    (hlast : marker.getLast? = some last) (hnofirst : first ∉ w) (hnolast : last ∉ w) :
    ¬ Overlaps marker w := by
  rintro (hin | ⟨u,hu,hne,hafter⟩ | ⟨u,hu,hne,hbefore⟩)
  · exact hnofirst (hin.subset (List.mem_of_mem_head? hfirst))
  · obtain ⟨front,rfl⟩ := hafter
    rw [List.getLast?_append_of_ne_nil _ hne] at hlast
    exact hnolast ((List.mem_inits u w).mp hu |>.subset (List.mem_of_getLast? hlast))
  · obtain ⟨back,rfl⟩ := hbefore
    rw [List.head?_append_of_ne_nil _ hne] at hfirst
    exact hnofirst ((List.mem_tails u w).mp hu |>.subset (List.mem_of_mem_head? hfirst))

/-- Between pieces, a marker that is not the word's own text makes no copy of the word. -/
theorem infix_join (hw : w ≠ []) (hpart : ¬ w <:+: marker) (hover : ¬ Overlaps marker w)
    {pieces : List Str} (h : w <:+: join marker pieces) : ∃ p ∈ pieces, w <:+: p := by
  induction pieces with
  | nil => exact absurd (List.infix_nil.mp h) hw
  | cons piece rest ih =>
    by_cases hrest : rest = []
    · subst hrest
      exact ⟨piece,List.mem_singleton_self piece,h⟩
    rw [join_cons hrest] at h
    rcases List.infix_append_iff_ne_nil.mp h with h | h | ⟨u,v,_,hv,rfl,_,hbefore⟩
    · exact ⟨piece,List.mem_cons_self,h⟩
    · rcases List.infix_append_iff_ne_nil.mp h with h | h | ⟨u,v,hu,_,rfl,hafter,_⟩
      · exact absurd h hpart
      · obtain ⟨p,hp,hin⟩ := ih h
        exact ⟨p,List.mem_cons_of_mem piece hp,hin⟩
      · exact absurd (.inr (.inl ⟨u,(List.mem_inits u _).mpr ⟨v,rfl⟩,hu,hafter⟩)) hover
    · exfalso
      rcases List.prefix_or_prefix_of_prefix hbefore (List.prefix_append marker _) with h | ⟨t,rfl⟩
      · exact hover (.inr (.inr ⟨v,(List.mem_tails v _).mpr ⟨u,rfl⟩,hv,h⟩))
      · exact hover (.inl ⟨u,t,by simp⟩)

end Overlap

namespace Regex
variable {word : CodePoint → Bool} {r : Regex} {s t w marker : Str} {previous : Option CodePoint}

theorem infix_of_mem_split (hr : r.Consumes word) {p : Str} (h : p ∈ r.split word s) : p <:+: s := by
  obtain ⟨u,v,hs,_⟩ := mem_split hr h
  exact ⟨u,v,hs.symm⟩

/-- A substitution makes no copy of a word that its marker does not overlap. -/
theorem infix_sub (hr : r.Consumes word) (hw : w ≠ []) (hpart : ¬ w <:+: marker)
    (hover : ¬ Overlaps marker w) (h : w <:+: r.sub word marker s) : w <:+: s := by
  obtain ⟨p,hp,hin⟩ := infix_join hw hpart hover h
  exact hin.trans (infix_of_mem_split hr hp)

variable (word r) in
def foundFrom : Option CodePoint → Str → Bool
  | _, [] => false
  | previous, c :: rest =>
    !(r.ends word ⟨previous,c :: rest⟩).isEmpty || foundFrom (some c) rest

variable (word r) in
/-- `pattern.search(s) is not None`, for a pattern that matches no empty text. -/
def found (s : Str) : Bool := foundFrom word r none s

theorem splitFrom_quiet {piece : Str} (h : foundFrom word r previous s = false) :
    splitFrom word r 0 previous piece s = [piece ++ s] := by
  induction s generalizing previous piece with
  | nil => rw [splitFrom,List.append_nil]
  | cons c rest ih =>
    rw [foundFrom,Bool.or_eq_false_iff,Bool.not_eq_false',List.isEmpty_iff] at h
    rw [splitFrom,h.1]
    dsimp only
    rw [ih h.2,List.append_assoc,List.singleton_append]

theorem sub_quiet (h : r.found word s = false) : r.sub word marker s = s := by
  rw [sub,split,splitFrom_quiet h]
  rfl

theorem ends_literal (word : CodePoint → Bool) (w t : Str) (previous : Option CodePoint) :
    (literal w).ends word ⟨previous,w ++ t⟩ ≠ [] := by
  induction w generalizing previous with
  | nil => exact List.cons_ne_nil _ _
  | cons c w ih =>
    have hfirst : (Regex.char (fun d => d = c)).ends word ⟨previous,c :: (w ++ t)⟩ = [⟨some c,w ++ t⟩] := by
      simp [ends]
    show ((Regex.char (fun d => d = c)).ends word ⟨previous,c :: (w ++ t)⟩).flatMap _ ≠ []
    rw [hfirst,List.flatMap_singleton]
    exact ih (some c)

theorem prefix_of_ends_literal {a : Place} (h : (literal w).ends word a ≠ []) : w <+: a.rest := by
  induction w generalizing a with
  | nil => exact List.nil_prefix
  | cons c w ih =>
    obtain ⟨b,hb⟩ := List.exists_mem_of_ne_nil _ h
    obtain ⟨m,hm,hb⟩ := List.mem_flatMap.mp hb
    simp only [ends] at hm
    split at hm
    · rename_i d rest hrest
      split at hm
      · rename_i hd
        rw [List.mem_singleton.mp hm] at hb
        have htail := ih (List.ne_nil_of_mem hb)
        rw [hrest,of_decide_eq_true hd]
        exact (List.prefix_cons_inj c).mpr htail
      · cases hm
    · cases hm

theorem infix_of_foundFrom (h : foundFrom word (literal w) previous s = true) : w <:+: s := by
  induction s generalizing previous with
  | nil => cases h
  | cons c rest ih =>
    rw [foundFrom,Bool.or_eq_true,Bool.not_eq_true',List.isEmpty_eq_false_iff] at h
    rcases h with h | h
    · exact (prefix_of_ends_literal h).isInfix
    · exact (ih h).trans (List.suffix_cons c rest).isInfix

end Regex

section Replace
variable {s w old marker : Str}

/-- The pieces of a text around the copies of another; around each character, if that is empty. -/
def piecesAround (old s : Str) : List Str :=
  if old = [] then [] :: (s.map (fun c => [c]) ++ [[]])
  else (Regex.literal old).split (fun _ => false) s

/-- `s.replace(old, marker)`. -/
def replaceAll (s old marker : Str) : Str := join marker (piecesAround old s)

theorem infix_of_mem_piecesAround {p : Str} (h : p ∈ piecesAround old s) : p <:+: s := by
  unfold piecesAround at h
  split at h
  · simp only [List.mem_cons,List.mem_append,List.mem_map,List.not_mem_nil,or_false] at h
    obtain rfl | ⟨c,hc,rfl⟩ | rfl := h
    · exact List.nil_infix
    · exact List.singleton_infix_iff c s |>.mpr hc
    · exact List.nil_infix
  · rename_i hne
    exact Regex.infix_of_mem_split (Regex.consumes_literal hne) h

theorem infix_replaceAll (hw : w ≠ []) (hpart : ¬ w <:+: marker) (hover : ¬ Overlaps marker w)
    (h : w <:+: replaceAll s old marker) : w <:+: s := by
  obtain ⟨p,hp,hin⟩ := infix_join hw hpart hover h
  exact hin.trans (infix_of_mem_piecesAround hp)

/-- No copy is left of what is replaced. -/
theorem not_infix_replaceAll (hw : w ≠ []) (hpart : ¬ w <:+: marker) (hover : ¬ Overlaps marker w) :
    ¬ w <:+: replaceAll s w marker := by
  intro h
  obtain ⟨p,hp,x,y,rfl⟩ := infix_join hw hpart hover h
  rw [piecesAround,if_neg hw] at hp
  obtain ⟨u,v,_,hpiece⟩ := Regex.mem_split (Regex.consumes_literal hw) hp
  obtain ⟨c,w',rfl⟩ := List.exists_cons_of_ne_nil hw
  have hquiet := hpiece.quiet x c (w' ++ y) (by simp)
  have hends := Regex.ends_literal (fun _ => false) (c :: w') (y ++ v) (u ++ x).getLast?
  rw [List.cons_append,← List.append_assoc] at hends
  exact hends hquiet

theorem replaceAll_absent (h : ¬ old <:+: s) : replaceAll s old marker = s := by
  have hne : old ≠ [] := by
    rintro rfl
    exact h List.nil_infix
  rw [replaceAll,piecesAround,if_neg hne]
  refine Regex.sub_quiet ?_
  rw [← Bool.not_eq_true]
  exact fun hfound => h (Regex.infix_of_foundFrom hfound)

end Replace

end Woodhouse.Python
