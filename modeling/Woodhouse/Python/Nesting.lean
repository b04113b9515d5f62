import Woodhouse.Python.Json

namespace Woodhouse.Python

variable {limit : Nat} {p q : Decoder} {stack : List Frame} {c : CodePoint} {s : Str}

/-- A value may come next. -/
def Mode.AwaitsValue (mode : Mode) : Prop := mode = .value ∨ mode = .firstItem

/-- The next character opens a container inside `limit` others. -/
def Decoder.OpensBeyond (limit : Nat) (p : Decoder) (c : CodePoint) : Prop :=
  p.mode.AwaitsValue ∧ (c = chr '{' ∨ c = chr '[') ∧ limit ≤ p.stack.length

/-- A JSON text opens a container inside `limit` others before anything else is wrong with it. -/
def NestsBeyond (limit : Nat) (s : Str) : Prop :=
  ∃ before c rest p, s = before ++ c :: rest ∧ before.foldlM (Decoder.step limit) {} = .ok p ∧
    p.OpensBeyond limit c

theorem startValue_recursion : startValue limit stack c = .error .recursionError ↔
    (c = chr '{' ∨ c = chr '[') ∧ limit ≤ stack.length := by
  have hquote : chr '"' ≠ chr '{' ∧ chr '"' ≠ chr '[' := by decide
  have hne : chr '{' ≠ chr '[' := by decide
  by_cases hobject : c = chr '{'
  · subst hobject
    unfold startValue
    rw [if_neg hquote.1.symm,if_pos rfl]
    by_cases hlimit : limit ≤ stack.length
    · simp [hlimit]
    · simp [hlimit]
  · by_cases harray : c = chr '['
    · subst harray
      unfold startValue
      rw [if_neg hquote.2.symm,if_neg hobject,if_pos rfl]
      by_cases hlimit : limit ≤ stack.length
      · simp [hlimit]
      · simp [hlimit]
    · refine iff_of_false ?_ (by simp [hobject,harray])
      unfold startValue
      rw [if_neg hobject,if_neg harray]
      repeat' split
      all_goals simp

theorem IsTextError.ne_recursion {e : PyExc} (h : IsTextError e) : e ≠ .recursionError := by
  rcases h with rfl | rfl
  · decide
  · decide

theorem RaisesOnly.not_recursion {α : Type} {x : Except PyExc α} (h : RaisesOnly IsTextError x) :
    x ≠ .error .recursionError := fun hx => (h _ hx).ne_recursion rfl

theorem not_space_of_opens (h : c = chr '{' ∨ c = chr '[') : isJsonSpace c = false := by
  rcases h with rfl | rfl
  · decide
  · decide

theorem Decoder.step_recursion : p.step limit c = .error .recursionError ↔ p.OpensBeyond limit c := by
  have hstart := @startValue_recursion limit p.stack c
  have hcloses : c = chr '{' ∨ c = chr '[' → c ≠ chr ']' := by
    rintro (rfl | rfl)
    · decide
    · decide
  have hother : ∀ x : Except PyExc Decoder, RaisesOnly IsTextError x → ¬ p.mode.AwaitsValue →
      (x = .error .recursionError ↔ p.OpensBeyond limit c) := by
    intro x hx hmode
    exact iff_of_false hx.not_recursion (fun h => hmode h.1)
  have hwaits : ∀ m, p.mode = m → m ≠ .value → m ≠ .firstItem → ¬ p.mode.AwaitsValue := by
    rintro m rfl hv hi (h | h)
    · exact hv h
    · exact hi h
  cases hm : p.mode with
  | value =>
    simp only [Decoder.step,hm]
    unfold Decoder.OpensBeyond Mode.AwaitsValue
    rw [hm,← hstart]
    split
    · rename_i hspace
      refine iff_of_false (by simp) ?_
      rintro ⟨_,h⟩
      rw [not_space_of_opens (hstart.mp h).1] at hspace
      cases hspace
    · simp
  | firstItem =>
    simp only [Decoder.step,hm]
    unfold Decoder.OpensBeyond Mode.AwaitsValue
    rw [hm,← hstart]
    split
    · rename_i hspace
      refine iff_of_false (by simp) ?_
      rintro ⟨_,h⟩
      rw [not_space_of_opens (hstart.mp h).1] at hspace
      cases hspace
    · split
      · rename_i hclose
        exact iff_of_false (by simp) (fun h => hcloses (hstart.mp h.2).1 hclose)
      · simp
  | done v =>
    simp only [Decoder.step,hm]
    exact hother _ (afterValue_raises p.stack v c) (hwaits _ hm (by simp) (by simp))
  | string isKey acc state =>
    simp only [Decoder.step,hm]
    exact hother _ (stringChar_raises p.stack isKey acc c state) (hwaits _ hm (by simp) (by simp))
  | number literal state =>
    simp only [Decoder.step,hm]
    exact hother _ (numberChar_raises p.stack literal c state) (hwaits _ hm (by simp) (by simp))
  | _ =>
    refine hother _ ?_ (hwaits _ hm (by simp) (by simp))
    simp only [Decoder.step,hm]
    repeat' split
    all_goals simp

theorem decodeFrom_recursion (p : Decoder) : decodeFrom limit p s = .error .recursionError ↔
    ∃ before c rest q, s = before ++ c :: rest ∧ before.foldlM (Decoder.step limit) p = .ok q ∧
      q.OpensBeyond limit c := by
  induction s generalizing p with
  | nil =>
    refine iff_of_false p.finish_raises.not_recursion ?_
    rintro ⟨before,c,rest,q,h,_⟩
    simp at h
  | cons c s ih =>
    unfold decodeFrom
    constructor
    · intro h
      split at h
      · rename_i q hq
        obtain ⟨before,d,rest,r,rfl,hrun,hopens⟩ := (ih q).mp h
        refine ⟨c :: before,d,rest,r,rfl,?_,hopens⟩
        rw [List.foldlM_cons,hq]
        exact hrun
      · rename_i e he
        obtain rfl := Except.error.inj h
        exact ⟨[],c,s,p,rfl,rfl,Decoder.step_recursion.mp he⟩
    · rintro ⟨before,d,rest,r,heq,hrun,hopens⟩
      cases before with
      | nil =>
        obtain ⟨rfl,rfl⟩ := List.cons.inj heq
        obtain rfl := Except.ok.inj hrun
        rw [Decoder.step_recursion.mpr hopens]
      | cons b before =>
        obtain ⟨rfl,rfl⟩ := List.cons.inj heq
        rw [List.foldlM_cons] at hrun
        obtain ⟨q,hq,hrest⟩ := bind_eq_ok.mp hrun
        rw [hq]
        exact (ih q).mpr ⟨before,d,rest,r,rfl,hrest,hopens⟩

/-- `json.loads` raises RecursionError exactly on the texts that nest beyond the limit. -/
theorem decodeFrom_nests : decodeFrom limit {} s = .error .recursionError ↔ NestsBeyond limit s :=
  decodeFrom_recursion {}

/-- Every other exception of `json.loads` is a ValueError. -/
theorem decodeFrom_textError (h : ¬ NestsBeyond limit s) :
    RaisesOnly IsTextError (decodeFrom limit {} s) := by
  intro e he
  rcases decodeFrom_raises limit {} s e he with rfl | rfl | rfl
  · simp
  · simp
  · exact absurd (decodeFrom_nests.mp he) h

end Woodhouse.Python
