import Mathlib.Data.List.Basic

namespace Woodhouse.Paths

/-- The output without its last segment and the slash before it. -/
def dropLastSegment (output : List Char) : List Char :=
  ((output.reverse.dropWhile (· ≠ '/')).drop 1).reverse

theorem length_dropLastSegment (output : List Char) :
    (dropLastSegment output).length ≤ output.length := by
  have hdrop := (List.dropWhile_sublist (fun c => c ≠ '/') (l := output.reverse)).length_le
  unfold dropLastSegment
  rw [List.length_reverse,List.length_drop]
  rw [List.length_reverse] at hdrop
  omega

/-- How long the first segment of a path is, with a slash that starts it. -/
def firstSegment (input : List Char) : Nat := 1 + (input.tail.takeWhile (· ≠ '/')).length

/-- The loop of `remove_dot_segments` in RFC 3986, section 5.2.4. -/
def removeFrom (output input : List Char) : List Char :=
  if input = [] then output
  else if "../".toList <+: input then removeFrom output (input.drop 3)
  else if "./".toList <+: input then removeFrom output (input.drop 2)
  else if "/./".toList <+: input then removeFrom output (input.drop 2)
  else if input = "/.".toList then removeFrom output ['/']
  else if "/../".toList <+: input then removeFrom (dropLastSegment output) (input.drop 3)
  else if input = "/..".toList then removeFrom (dropLastSegment output) ['/']
  else if input = ".".toList ∨ input = "..".toList then output
  else removeFrom (output ++ input.take (firstSegment input)) (input.drop (firstSegment input))
termination_by input.length
decreasing_by
  all_goals
    have hpos : 0 < input.length := List.length_pos_iff.mpr (by assumption)
    simp only [List.length_drop,List.length_cons,List.length_nil,firstSegment]
    first
    | omega
    | simp_all

def removeDotSegments (path : List Char) : List Char := removeFrom [] path

def IsDotSegment (segment : List Char) : Prop := segment = ".".toList ∨ segment = "..".toList

instance (segment : List Char) : Decidable (IsDotSegment segment) := inferInstanceAs (Decidable (_ ∨ _))

/-- An absolute path of these segments. -/
def absolute (segments : List (List Char)) : List Char := segments.flatMap (fun s => '/' :: s)

@[simp] theorem absolute_cons (s : List Char) (segments : List (List Char)) :
    absolute (s :: segments) = '/' :: (s ++ absolute segments) := rfl

/-- What follows a segment is the end of the path or the next slash. -/
def Follows (tail : List Char) : Prop := tail = [] ∨ ∃ rest, tail = '/' :: rest

theorem absolute_follows (segments : List (List Char)) : Follows (absolute segments) := by
  cases segments with
  | nil => exact .inl rfl
  | cons s segments => exact .inr ⟨_,absolute_cons s segments⟩

section Steps
variable {output segment tail : List Char}

theorem takeWhile_segment (hs : '/' ∉ segment) (ht : Follows tail) :
    (segment ++ tail).takeWhile (· ≠ '/') = segment := by
  induction segment with
  | nil =>
    rcases ht with rfl | ⟨rest,rfl⟩
    · rfl
    · simp
  | cons c segment ih =>
    obtain ⟨hc,hs⟩ : '/' ≠ c ∧ '/' ∉ segment := by simpa using hs
    rw [List.cons_append,List.takeWhile_cons_of_pos (by simpa using hc.symm),ih hs]

/-- The segment in front of a slash is a given one without slashes. -/
theorem prefix_segment {other : List Char} (hs : '/' ∉ segment) (ho : '/' ∉ other)
    (ht : Follows tail) (h : other ++ ['/'] <+: segment ++ tail) : segment = other := by
  obtain ⟨rest,hrest⟩ := h
  have hslash : Follows ('/' :: rest) := .inr ⟨rest,rfl⟩
  have hother := takeWhile_segment ho hslash
  rw [← takeWhile_segment hs ht,← hrest,List.append_assoc,List.singleton_append,hother]

theorem whole_segment {other : List Char} (hs : '/' ∉ segment) (ho : '/' ∉ other)
    (ht : Follows tail) (h : segment ++ tail = other) : segment = other := by
  have hother := takeWhile_segment ho (.inl rfl)
  rw [List.append_nil] at hother
  rw [← takeWhile_segment hs ht,h,hother]

/-- A segment that is not a dot segment moves to the output. -/
theorem removeFrom_segment (hs : '/' ∉ segment) (ht : Follows tail) (hdot : ¬ IsDotSegment segment) :
    removeFrom output ('/' :: (segment ++ tail)) = removeFrom (output ++ '/' :: segment) tail := by
  have hone : segment ≠ ['.'] := fun h => hdot (.inl h)
  have htwo : segment ≠ ['.','.'] := fun h => hdot (.inr h)
  have hfirst : firstSegment ('/' :: (segment ++ tail)) = 1 + segment.length := by
    unfold firstSegment
    rw [List.tail_cons,takeWhile_segment hs ht]
  have htake : ('/' :: (segment ++ tail)).take (1 + segment.length) = '/' :: segment := by
    rw [Nat.add_comm,List.take_succ_cons,List.take_left]
  have hrest : ('/' :: (segment ++ tail)).drop (1 + segment.length) = tail := by
    rw [Nat.add_comm,List.drop_succ_cons,List.drop_left]
  conv_lhs => unfold removeFrom
  rw [if_neg (by simp),if_neg (by simp),if_neg (by simp),if_neg ?dot,if_neg ?dotEnd,if_neg ?dots,
    if_neg ?dotsEnd,if_neg (by simp),hfirst,htake,hrest]
  case dot =>
    intro h
    exact hone (prefix_segment hs (by decide) ht ((List.cons_prefix_cons.mp h).2))
  case dotEnd =>
    intro h
    exact hone (whole_segment hs (by decide) ht (List.cons.inj h).2)
  case dots =>
    intro h
    exact htwo (prefix_segment hs (by decide) ht ((List.cons_prefix_cons.mp h).2))
  case dotsEnd =>
    intro h
    exact htwo (whole_segment hs (by decide) ht (List.cons.inj h).2)

/-- The loop adds nothing to what it is given. -/
theorem length_removeFrom (output input : List Char) :
    (removeFrom output input).length ≤ output.length + input.length := by
  fun_induction removeFrom output input with
  | case1 => simp
  | case2 output input _ _ ih | case3 output input _ _ _ ih | case4 output input _ _ _ _ ih =>
    rw [List.length_drop] at ih
    omega
  | case5 output _ _ _ _ ih =>
    rw [List.length_singleton] at ih
    exact Nat.le_trans ih (Nat.add_le_add_left (by decide) _)
  | case6 output input _ _ _ _ _ _ ih =>
    have := length_dropLastSegment output
    rw [List.length_drop] at ih
    omega
  | case7 output _ _ _ _ _ _ ih =>
    have := length_dropLastSegment output
    have hlength : "/..".toList.length = 3 := rfl
    rw [List.length_singleton] at ih
    omega
  | case8 => omega
  | case9 output input _ _ _ _ _ _ _ _ ih =>
    rw [List.length_append,List.length_take,List.length_drop] at ih
    omega

/-- A dot segment does not survive. -/
theorem length_dotSegment (output : List Char) (ht : Follows tail) (hdot : IsDotSegment segment) :
    (removeFrom output ('/' :: (segment ++ tail))).length <
      output.length + ('/' :: (segment ++ tail)).length := by
  have hdropped := length_dropLastSegment output
  have hone : ".".toList.length = 1 := rfl
  have htwo : "..".toList.length = 2 := rfl
  rcases hdot with rfl | rfl
  · rcases ht with rfl | ⟨rest,rfl⟩
    · have hrest := length_removeFrom output ['/']
      unfold removeFrom
      rw [if_neg (by simp),if_neg (by simp),if_neg (by simp),if_neg (by simp),if_pos (by simp)]
      simp only [List.length_cons,List.length_append,List.length_nil] at hrest ⊢
      omega
    · have hrest := length_removeFrom output ('/' :: rest)
      unfold removeFrom
      rw [if_neg (by simp),if_neg (by simp),if_neg (by simp),if_pos (by simp)]
      change (removeFrom output ('/' :: rest)).length < _
      simp only [List.length_cons,List.length_append] at hrest ⊢
      omega
  · rcases ht with rfl | ⟨rest,rfl⟩
    · have hrest := length_removeFrom (dropLastSegment output) ['/']
      unfold removeFrom
      rw [if_neg (by simp),if_neg (by simp),if_neg (by simp),if_neg (by simp),if_neg (by simp),
        if_neg (by simp),if_pos (by simp)]
      simp only [List.length_cons,List.length_append,List.length_nil] at hrest ⊢
      omega
    · have hrest := length_removeFrom (dropLastSegment output) ('/' :: rest)
      unfold removeFrom
      rw [if_neg (by simp),if_neg (by simp),if_neg (by simp),if_neg (by simp),if_neg (by simp),
        if_pos (by simp)]
      change (removeFrom (dropLastSegment output) ('/' :: rest)).length < _
      simp only [List.length_cons,List.length_append] at hrest ⊢
      omega

end Steps

theorem removeFrom_absolute {segments : List (List Char)} (hs : ∀ s ∈ segments, '/' ∉ s)
    (output : List Char) :
    removeFrom output (absolute segments) = output ++ absolute segments ↔
      ∀ s ∈ segments, ¬ IsDotSegment s := by
  induction segments generalizing output with
  | nil =>
    unfold removeFrom
    simp [absolute]
  | cons s segments ih =>
    obtain ⟨hslash,hrest⟩ := List.forall_mem_cons.mp hs
    have ht := absolute_follows segments
    rw [absolute_cons,List.forall_mem_cons]
    by_cases hdot : IsDotSegment s
    · refine iff_of_false ?_ (fun h => h.1 hdot)
      intro heq
      have hlt := length_dotSegment output ht hdot
      rw [heq,List.length_append] at hlt
      exact absurd hlt (Nat.lt_irrefl _)
    · rw [removeFrom_segment hslash ht hdot]
      have hmoved : output ++ '/' :: (s ++ absolute segments) =
          output ++ '/' :: s ++ absolute segments := by simp
      rw [hmoved,ih hrest]
      exact ⟨fun h => ⟨hdot,h⟩,fun h => h.2⟩

/-- An absolute path is left as it is exactly where none of its segments is a dot segment. -/
theorem removeDotSegments_eq_iff {segments : List (List Char)} (hs : ∀ s ∈ segments, '/' ∉ s) :
    removeDotSegments (absolute segments) = absolute segments ↔ ∀ s ∈ segments, ¬ IsDotSegment s :=
  removeFrom_absolute hs []

end Woodhouse.Paths
