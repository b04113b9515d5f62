import Woodhouse.Python.Json
import Woodhouse.Worklist.Search

namespace Woodhouse.Identity
open Python Worklist

def forbiddenCallerKeys : List Str :=
  ["dataset_id","owner_email","owner_user_id","owned_by","ownership","ownership_claim",
   "user_id"].map str

def maxCallerPayloadDepth : Nat := 64

structure CallerIdentityClaimError where
  message : Str

variable (casefold : Str → Str)

def isForbiddenKey (key : Str) : Bool := decide (casefold key ∈ forbiddenCallerKeys)

/-- One pass of the loop: the error that a pending value raises, or the values that it
puts on the list. -/
def examineValue (current : Json) (depth : Nat) :
    Except CallerIdentityClaimError (List (Json × Nat)) :=
  if maxCallerPayloadDepth < depth then
    .error { message := str "Caller payload exceeds maximum nesting depth" }
  else match current with
    | .obj entries =>
      match entries.find? (fun entry => isForbiddenKey casefold entry.1) with
      | some (key,_) =>
        .error { message := str "Caller-controlled identity field is forbidden: " ++ key }
      | none => .ok (entries.map (fun entry => (entry.2,depth + 1)))
    | .arr items => .ok (items.map (fun item => (item,depth + 1)))
    | _ => .ok []

mutual

/-- How many values a value holds, itself included. -/
def nodes : Json → Nat
  | .arr items => 1 + itemNodes items
  | .obj entries => 1 + entryNodes entries
  | _ => 1

def itemNodes : List Json → Nat
  | [] => 0
  | v :: items => nodes v + itemNodes items

def entryNodes : List (Str × Json) → Nat
  | [] => 0
  | (_,v) :: entries => nodes v + entryNodes entries

end

theorem itemNodes_eq (items : List Json) : itemNodes items = (items.map (fun v => nodes v)).sum := by
  induction items with
  | nil => rfl
  | cons v items ih => simp only [itemNodes,List.map_cons,List.sum_cons,ih]

theorem entryNodes_eq (entries : List (Str × Json)) :
    entryNodes entries = (entries.map (fun e => nodes e.2)).sum := by
  induction entries with
  | nil => rfl
  | cons e entries ih => simp only [entryNodes,List.map_cons,List.sum_cons,ih]

/-- The values pending, each with how deep it lies; the last one put there is taken first. -/
def callerClaims : Search (Json × Nat) CallerIdentityClaimError :=
  { examine := fun p => examineValue casefold p.1 p.2
    size := fun p => nodes p.1
    smaller := by
      intro ⟨v,depth⟩ opened h
      unfold examineValue at h
      split at h
      · cases h
      · cases v with
        | obj entries =>
          simp only at h
          split at h
          · cases h
          · obtain rfl := Except.ok.inj h
            simp only [List.map_map,Function.comp_def,nodes,entryNodes_eq]
            omega
        | arr items =>
          obtain rfl := Except.ok.inj h
          simp only [List.map_map,Function.comp_def,nodes,itemNodes_eq]
          omega
        | _ =>
          obtain rfl := Except.ok.inj h
          simp [nodes] }

def assertNoCallerIdentityClaims (payload : Json) : Except CallerIdentityClaimError Unit :=
  (callerClaims casefold).run .stack [(payload,0)]

/-- `v` lies `depth` levels below the root. -/
inductive NodeAt (root : Json) : Nat → Json → Prop
  | root : NodeAt root 0 root
  | item {depth items v} (h : NodeAt root depth (.arr items)) (hv : v ∈ items) :
      NodeAt root (depth + 1) v
  | value {depth entries e} (h : NodeAt root depth (.obj entries)) (he : e ∈ entries) :
      NodeAt root (depth + 1) e.2

/-- An object somewhere in the payload has a key of a forbidden identity field. -/
def HasForbiddenKey (payload : Json) : Prop :=
  ∃ depth entries key v, NodeAt payload depth (.obj entries) ∧ (key,v) ∈ entries ∧
    casefold key ∈ forbiddenCallerKeys

def TooDeep (payload : Json) : Prop := ∃ depth v, NodeAt payload depth v ∧ maxCallerPayloadDepth < depth

section Examine
variable {casefold} {payload v w : Json} {depth n : Nat} {opened : List (Json × Nat)}
  {e : CallerIdentityClaimError}

theorem examineValue_ok (h : examineValue casefold v depth = .ok opened) (hw : (w,n) ∈ opened) :
    n = depth + 1 ∧ ((∃ items, v = .arr items ∧ w ∈ items) ∨
      ∃ entries key, v = .obj entries ∧ (key,w) ∈ entries) := by
  unfold examineValue at h
  split at h
  · cases h
  · cases v with
    | obj entries =>
      simp only at h
      split at h
      · cases h
      · obtain rfl := Except.ok.inj h
        obtain ⟨entry,hentry,he⟩ := List.mem_map.mp hw
        cases he
        exact ⟨rfl,.inr ⟨entries,entry.1,rfl,hentry⟩⟩
    | arr items =>
      obtain rfl := Except.ok.inj h
      obtain ⟨item,hitem,he⟩ := List.mem_map.mp hw
      cases he
      exact ⟨rfl,.inl ⟨items,rfl,hitem⟩⟩
    | _ =>
      obtain rfl := Except.ok.inj h
      cases hw

/-- A value raises for its depth or for a key of its own. -/
theorem examineValue_fails_iff : (∃ e, examineValue casefold v depth = .error e) ↔
    maxCallerPayloadDepth < depth ∨
      ∃ entries key w, v = .obj entries ∧ (key,w) ∈ entries ∧ casefold key ∈ forbiddenCallerKeys := by
  unfold examineValue
  by_cases hdeep : maxCallerPayloadDepth < depth
  · rw [if_pos hdeep]
    exact iff_of_true ⟨_,rfl⟩ (.inl hdeep)
  rw [if_neg hdeep]
  cases v with
  | obj entries =>
    simp only
    cases hfind : entries.find? (fun entry => isForbiddenKey casefold entry.1) with
    | some entry =>
      have hkey := List.find?_some hfind
      refine iff_of_true ⟨_,rfl⟩ (.inr ⟨entries,entry.1,entry.2,rfl,?_,of_decide_eq_true hkey⟩)
      exact List.mem_of_find?_eq_some hfind
    | none =>
      refine iff_of_false (by simp) ?_
      rintro (h | ⟨entries',key,w,he,hmem,hkey⟩)
      · exact hdeep h
      · cases he
        exact absurd (decide_eq_true hkey) (List.find?_eq_none.mp hfind _ hmem)
  | _ => simp [hdeep]

/-- Every value that the search reaches lies in the payload at its depth. -/
theorem nodeAt_of_reaches (h : (callerClaims casefold).Reaches [(payload,0)] (v,depth)) :
    NodeAt payload depth v := by
  generalize hp : (v,depth) = p at h
  induction h generalizing v depth with
  | pending h =>
    subst hp
    obtain ⟨rfl,rfl⟩ := Prod.mk.inj (List.mem_singleton.mp h)
    exact .root
  | @opened a b opened ha ho hb ih =>
    subst hp
    obtain ⟨u,m⟩ := a
    have hu := ih rfl
    obtain ⟨rfl,⟨items,rfl,hv⟩ | ⟨entries,key,rfl,hv⟩⟩ := examineValue_ok ho hb
    · exact .item hu hv
    · exact .value hu hv

/-- A value in the payload is reached, unless the search reaches one that raises. -/
theorem reaches_of_nodeAt (h : NodeAt payload depth v) :
    (callerClaims casefold).Reaches [(payload,0)] (v,depth) ∨
      ∃ a e, (callerClaims casefold).Reaches [(payload,0)] a ∧
        (callerClaims casefold).examine a = .error e := by
  induction h with
  | root => exact .inl (.pending (List.mem_singleton.mpr rfl))
  | @item n items w hn hw ih =>
    rcases ih with ih | ih
    · cases hex : examineValue casefold (.arr items) n with
      | error e => exact .inr ⟨_,e,ih,hex⟩
      | ok opened =>
        refine .inl (.opened ih hex ?_)
        unfold examineValue at hex
        split at hex
        · cases hex
        · obtain rfl := Except.ok.inj hex
          exact List.mem_map.mpr ⟨w,hw,rfl⟩
    · exact .inr ih
  | @value n entries entry hn hentry ih =>
    rcases ih with ih | ih
    · cases hex : examineValue casefold (.obj entries) n with
      | error e => exact .inr ⟨_,e,ih,hex⟩
      | ok opened =>
        refine .inl (.opened ih hex ?_)
        unfold examineValue at hex
        split at hex
        · cases hex
        · simp only at hex
          split at hex
          · cases hex
          · obtain rfl := Except.ok.inj hex
            exact List.mem_map.mpr ⟨entry,hentry,rfl⟩
    · exact .inr ih

theorem reaches_failing_iff : (∃ a e, (callerClaims casefold).Reaches [(payload,0)] a ∧
      (callerClaims casefold).examine a = .error e) ↔
    HasForbiddenKey casefold payload ∨ TooDeep payload := by
  constructor
  · rintro ⟨⟨v,depth⟩,e,hreach,hfails⟩
    have hnode := nodeAt_of_reaches hreach
    rcases examineValue_fails_iff.mp ⟨e,hfails⟩ with hdeep | ⟨entries,key,w,rfl,hmem,hkey⟩
    · exact .inr ⟨depth,v,hnode,hdeep⟩
    · exact .inl ⟨depth,entries,key,w,hnode,hmem,hkey⟩
  · intro h
    obtain ⟨depth,v,hnode,hbad⟩ : ∃ depth v, NodeAt payload depth v ∧
        (maxCallerPayloadDepth < depth ∨ ∃ entries key w, v = .obj entries ∧ (key,w) ∈ entries ∧
          casefold key ∈ forbiddenCallerKeys) := by
      rcases h with ⟨depth,entries,key,w,hnode,hmem,hkey⟩ | ⟨depth,v,hnode,hdeep⟩
      · exact ⟨depth,.obj entries,hnode,.inr ⟨entries,key,w,rfl,hmem,hkey⟩⟩
      · exact ⟨depth,v,hnode,.inl hdeep⟩
    rcases reaches_of_nodeAt hnode with hreach | hfails
    · obtain ⟨e,he⟩ := examineValue_fails_iff.mpr hbad
      exact ⟨_,e,hreach,he⟩
    · exact hfails

end Examine

/-- The check raises exactly for a forbidden key at any depth or a value too deep, and so
does the same search in any other order. -/
theorem callerClaims_found (payload : Json) :
    ((∃ e, assertNoCallerIdentityClaims casefold payload = .error e) ↔
      HasForbiddenKey casefold payload ∨ TooDeep payload) ∧
    ∀ order : Strategy (Json × Nat), (∃ e, (callerClaims casefold).run order [(payload,0)] = .error e) ↔
      ∃ e, assertNoCallerIdentityClaims casefold payload = .error e := by
  have hall : ∀ order : Strategy (Json × Nat),
      (∃ e, (callerClaims casefold).run order [(payload,0)] = .error e) ↔
        HasForbiddenKey casefold payload ∨ TooDeep payload :=
    fun order => Search.run_fails_iff.trans reaches_failing_iff
  refine ⟨hall .stack,?_⟩
  intro order
  exact (hall order).trans (hall .stack).symm

end Woodhouse.Identity
