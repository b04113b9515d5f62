import Woodhouse.Python.Dicts

namespace Woodhouse.Python

/-- What leads from one dictionary to another. A changed entry keeps both its values. -/
structure DictPatch (α : Type) where
  added : Dict α
  removed : Dict α
  changed : Dict (α × α)

namespace Dict
variable {α : Type}

def sorted (d : Dict α) : Dict α := d.mergeSort (fun a b => decide (a.1 ≤ b.1))

/-- The keys that one dictionary has and the other one lacks. -/
def lacking (d other : Dict α) : Dict α := d.filter (fun e => (other.get e.1).isNone)

/-- The shared keys whose values are not the same. -/
def differing (same : α → α → Bool) (current desired : Dict α) : Dict (α × α) :=
  current.filterMap (fun e =>
    match desired.get e.1 with
    | none => none
    | some value => if same e.2 value then none else some (e.1,(e.2,value)))

def difference (same : α → α → Bool) (current desired : Dict α) : DictPatch α where
  added := (desired.lacking current).sorted
  removed := (current.lacking desired).sorted
  changed := (differing same current desired).sorted

end Dict

namespace DictPatch
variable {α : Type}

def apply (patch : DictPatch α) (d : Dict α) : Dict α :=
  ((d.drop patch.removed.keys).update (patch.changed.map (fun e => (e.1,e.2.2)))).update patch.added

/-- No key is reported twice. -/
structure Disjoint (patch : DictPatch α) : Prop where
  added_removed : ∀ name ∈ patch.added.keys, name ∉ patch.removed.keys
  added_changed : ∀ name ∈ patch.added.keys, name ∉ patch.changed.keys
  removed_changed : ∀ name ∈ patch.removed.keys, name ∉ patch.changed.keys

def isEmpty (patch : DictPatch α) : Bool :=
  patch.added.isEmpty && patch.removed.isEmpty && patch.changed.isEmpty

end DictPatch

namespace Dict
variable {α : Type}

/-- Two dictionaries have the same keys, with the same values. -/
def Agree (same : α → α → Prop) (d other : Dict α) : Prop :=
  ∀ name, Option.Rel same (d.get name) (other.get name)

section Lookups
variable {d other : Dict α} {name : Str}

theorem get_eq_none_iff : d.get name = none ↔ name ∉ d.keys := by
  unfold get keys
  rw [Option.map_eq_none_iff,List.find?_eq_none]
  simp only [decide_eq_true_eq,List.mem_map,not_exists,not_and]

theorem get_eq_some_iff {value : α} (hnodup : d.keys.Nodup) :
    d.get name = some value ↔ (name,value) ∈ d :=
  ⟨get_mem,get_of_mem hnodup⟩

theorem get_set (key : Str) (value : α) :
    (d.set key value).get name = if name = key then some value else d.get name := by
  induction d with
  | nil =>
    simp only [set,get,List.find?_cons,List.find?_nil]
    by_cases h : key = name
    · simp [h]
    · simp [h,Ne.symm h]
  | cons e rest ih =>
    obtain ⟨k,v⟩ := e
    by_cases hk : k = key
    · subst hk
      rw [set,if_pos rfl]
      simp only [get,List.find?_cons]
      by_cases h : k = name
      · simp [h]
      · simp [h,Ne.symm h]
    · rw [set,if_neg hk]
      simp only [get,List.find?_cons] at ih ⊢
      by_cases h : k = name
      · subst h
        simp [hk]
      · simpa [h] using ih

/-- An update looks a key up in what it writes, and else where it was looked up before. -/
theorem get_update (hnodup : other.keys.Nodup) :
    (d.update other).get name = (other.get name).or (d.get name) := by
  induction other generalizing d with
  | nil => rfl
  | cons e rest ih =>
    simp only [keys,List.map_cons,List.nodup_cons] at hnodup
    have hrest : (d.update (e :: rest)).get name = ((d.set e.1 e.2).update rest).get name := rfl
    rw [hrest,ih hnodup.2,get_set]
    by_cases h : name = e.1
    · subst h
      have hnone : Dict.get rest e.1 = none := get_eq_none_iff.mpr hnodup.1
      have hcons : Dict.get (e :: rest) e.1 = some e.2 := by
        simp only [get,List.find?_cons,decide_true,Option.map_some]
      rw [if_pos rfl,hnone,hcons]
      rfl
    · have hcons : Dict.get (e :: rest) name = Dict.get rest name := by
        simp only [get,List.find?_cons,decide_eq_false (Ne.symm h)]
      rw [if_neg h,hcons]

theorem nodup_set (h : d.keys.Nodup) (key : Str) (value : α) : (d.set key value).keys.Nodup := by
  induction d with
  | nil => simp [set,keys]
  | cons e rest ih =>
    obtain ⟨k,v⟩ := e
    obtain ⟨hk,hrest⟩ : k ∉ Dict.keys rest ∧ (Dict.keys rest).Nodup := by simpa [keys] using h
    unfold set
    split
    · exact List.nodup_cons.mpr ⟨hk,hrest⟩
    · rename_i hne
      refine List.nodup_cons.mpr ⟨?_,ih hrest⟩
      intro hmem
      rcases (mem_keys_set key value).mp hmem with rfl | hmem
      · exact hne rfl
      · exact hk hmem

theorem nodup_update (h : d.keys.Nodup) (other : Dict α) : (d.update other).keys.Nodup := by
  induction other generalizing d with
  | nil => exact h
  | cons e rest ih => exact ih (nodup_set h e.1 e.2)

theorem isEmpty_iff_get : d.isEmpty = true ↔ ∀ name, d.get name = none := by
  cases d with
  | nil => simp [get]
  | cons e rest =>
    refine iff_of_false (by simp) ?_
    intro h
    have hnotin := get_eq_none_iff.mp (h e.1)
    exact hnotin (mem_keys_of_mem List.mem_cons_self)

theorem sorted_perm (d : Dict α) : d.sorted.Perm d := List.mergeSort_perm d _

theorem keys_perm (h : d.Perm other) : d.keys.Perm other.keys := h.map Prod.fst

theorem get_perm (hnodup : d.keys.Nodup) (h : d.Perm other) : d.get name = other.get name := by
  have hother := (keys_perm h).nodup_iff.mp hnodup
  ext value
  rw [get_eq_some_iff hnodup,get_eq_some_iff hother,h.mem_iff]

end Lookups

section Differences
variable {same : α → α → Bool} {current desired : Dict α} {name : Str}

theorem mem_lacking {value : α} :
    (name,value) ∈ current.lacking desired ↔ (name,value) ∈ current ∧ desired.get name = none := by
  unfold lacking
  rw [List.mem_filter,Option.isNone_iff_eq_none]

theorem mem_differing {u v : α} :
    (name,(u,v)) ∈ differing same current desired ↔
      (name,u) ∈ current ∧ desired.get name = some v ∧ same u v = false := by
  unfold differing
  rw [List.mem_filterMap]
  constructor
  · rintro ⟨⟨key,value⟩,hmem,h⟩
    dsimp only at h
    split at h
    · cases h
    · split at h
      · cases h
      · rename_i hvalue hsame
        obtain ⟨rfl,rfl,rfl⟩ : key = name ∧ value = u ∧ _ = v := by simpa using h
        exact ⟨hmem,hvalue,by simpa using hsame⟩
  · rintro ⟨hmem,hvalue,hsame⟩
    exact ⟨(name,u),hmem,by simp [hvalue,hsame]⟩

theorem mem_keys_lacking :
    name ∈ (current.lacking desired).sorted.keys ↔ name ∈ current.keys ∧ name ∉ desired.keys := by
  rw [(keys_perm (sorted_perm _)).mem_iff,← get_eq_none_iff (d := desired)]
  constructor
  · intro h
    obtain ⟨⟨key,value⟩,hmem,rfl⟩ := List.mem_map.mp h
    obtain ⟨hmem,hnone⟩ := mem_lacking.mp hmem
    exact ⟨mem_keys_of_mem hmem,hnone⟩
  · rintro ⟨h,hnone⟩
    obtain ⟨⟨key,value⟩,hmem,rfl⟩ := List.mem_map.mp h
    exact mem_keys_of_mem (mem_lacking.mpr ⟨hmem,hnone⟩)

theorem mem_keys_differing (h : name ∈ (differing same current desired).sorted.keys) :
    name ∈ current.keys ∧ name ∈ desired.keys := by
  rw [(keys_perm (sorted_perm _)).mem_iff] at h
  obtain ⟨⟨key,u,v⟩,hmem,rfl⟩ := List.mem_map.mp h
  obtain ⟨hmem,hvalue,_⟩ := mem_differing.mp hmem
  exact ⟨mem_keys_of_mem hmem,mem_keys_of_mem (get_mem hvalue)⟩

theorem nodup_lacking (h : current.keys.Nodup) : (current.lacking desired).keys.Nodup :=
  h.sublist (List.filter_sublist.map Prod.fst)

theorem nodup_differing (h : current.keys.Nodup) : (differing same current desired).keys.Nodup := by
  refine List.Nodup.sublist ?_ h
  unfold differing keys
  induction current with
  | nil => exact List.Sublist.refl []
  | cons e rest ih =>
    simp only [keys,List.map_cons,List.nodup_cons] at h
    rw [List.filterMap_cons]
    split
    · exact (ih h.2).cons e.1
    · rename_i out hout
      split at hout
      · cases hout
      · split at hout
        · cases hout
        · obtain rfl := Option.some.inj hout
          exact (ih h.2).cons_cons e.1

theorem get_lacking (h : current.keys.Nodup) :
    (current.lacking desired).sorted.get name =
      if desired.get name = none then current.get name else none := by
  have hlacking : (current.lacking desired).keys.Nodup := nodup_lacking h
  rw [← get_perm hlacking (sorted_perm _).symm]
  ext value
  rw [get_eq_some_iff hlacking,mem_lacking,← get_eq_some_iff h]
  by_cases hd : desired.get name = none
  · simp [hd]
  · simp [hd]

theorem get_differing (h : current.keys.Nodup) :
    (differing same current desired).sorted.get name =
      match current.get name,desired.get name with
      | some u,some v => if same u v then none else some (u,v)
      | _,_ => none := by
  have hdiffering : (differing same current desired).keys.Nodup := nodup_differing h
  rw [← get_perm hdiffering (sorted_perm _).symm]
  ext ⟨u,v⟩
  rw [get_eq_some_iff hdiffering,mem_differing,← get_eq_some_iff h]
  cases hu : current.get name with
  | none => simp
  | some u' =>
    cases hv : desired.get name with
    | none => simp
    | some v' =>
      dsimp only
      by_cases hsame : same u' v' = true
      · rw [if_pos hsame]
        simp only [Option.some.injEq,reduceCtorEq,iff_false]
        rintro ⟨rfl,rfl,hdiffers⟩
        rw [hsame] at hdiffers
        cases hdiffers
      · rw [if_neg hsame]
        simp only [Option.some.injEq,Prod.mk.injEq]
        constructor
        · rintro ⟨hu,hv,_⟩
          exact ⟨hu,hv⟩
        · rintro ⟨rfl,rfl⟩
          exact ⟨rfl,rfl,by simpa using hsame⟩

end Differences

end Dict

section Patches
open Dict
variable {α : Type} {same : α → α → Bool} {current desired : Dict α}

/-- The reported keys are told apart by which dictionary has them. -/
theorem difference_disjoint (same : α → α → Bool) (current desired : Dict α) :
    (difference same current desired).Disjoint where
  added_removed := by
    intro name hadded hremoved
    exact (mem_keys_lacking.mp hadded).2 (mem_keys_lacking.mp hremoved).1
  added_changed := by
    intro name hadded hchanged
    exact (mem_keys_lacking.mp hadded).2 (mem_keys_differing hchanged).1
  removed_changed := by
    intro name hremoved hchanged
    exact (mem_keys_lacking.mp hremoved).2 (mem_keys_differing hchanged).2

theorem get_apply {patch : DictPatch α} (hadded : patch.added.keys.Nodup)
    (hchanged : patch.changed.keys.Nodup) (d : Dict α) (name : Str) :
    (patch.apply d).get name = (patch.added.get name).or
      (((patch.changed.get name).map Prod.snd).or
        (if name ∈ patch.removed.keys then none else d.get name)) := by
  have hwritten : (keys (patch.changed.map (fun e => (e.1,e.2.2)))).Nodup := by
    rw [keys_mapValues (fun pair : α × α => pair.2)]
    exact hchanged
  unfold DictPatch.apply
  rw [get_update hadded,get_update hwritten,get_drop,get_mapValues _ (fun pair : α × α => pair.2)]

theorem difference_nodup (same : α → α → Bool) (hc : current.keys.Nodup) (hd : desired.keys.Nodup) :
    (difference same current desired).added.keys.Nodup ∧
      (difference same current desired).changed.keys.Nodup :=
  ⟨(keys_perm (sorted_perm _)).nodup_iff.mpr (nodup_lacking hd),
    (keys_perm (sorted_perm _)).nodup_iff.mpr (nodup_differing hc)⟩

/-- Applying the difference leaves the values that are the same, and else gives the desired ones. -/
theorem get_apply_difference (hc : current.keys.Nodup) (hd : desired.keys.Nodup) {d : Dict α}
    {name : Str} (hget : d.get name = current.get name) :
    ((difference same current desired).apply d).get name =
      match current.get name,desired.get name with
      | some u,some v => if same u v then some u else some v
      | _,value => value := by
  have hnodup := difference_nodup same hc hd
  rw [get_apply hnodup.1 hnodup.2,hget]
  unfold difference
  rw [get_lacking hd,get_differing hc]
  simp only [mem_keys_lacking]
  cases hu : current.get name with
  | none =>
    cases hv : desired.get name with
    | none => simp
    | some v => simp
  | some u =>
    have hu' : name ∈ current.keys := mem_keys_of_mem (get_mem hu)
    cases hv : desired.get name with
    | none => simp [hu',get_eq_none_iff.mp hv]
    | some v =>
      have hv' : name ∈ desired.keys := mem_keys_of_mem (get_mem hv)
      by_cases hsame : same u v = true
      · simp [hsame,hv']
      · simp [hsame]

theorem apply_difference_agree {rel : α → α → Prop} (hc : current.keys.Nodup)
    (hd : desired.keys.Nodup) (hsame : ∀ u v, same u v = true → rel u v) (hrefl : ∀ v, rel v v)
    {d : Dict α} (hget : ∀ name, d.get name = current.get name) :
    Agree rel ((difference same current desired).apply d) desired := by
  intro name
  rw [get_apply_difference hc hd (hget name)]
  cases hu : current.get name with
  | none =>
    cases hv : desired.get name with
    | none => exact .none
    | some v => exact .some (hrefl v)
  | some u =>
    cases hv : desired.get name with
    | none => exact .none
    | some v =>
      dsimp only
      split
      · rename_i h
        exact .some (hsame u v h)
      · exact .some (hrefl v)

theorem difference_isEmpty (same : α → α → Bool) (current desired : Dict α) :
    (difference same current desired).isEmpty = true ↔ desired.lacking current = [] ∧
      current.lacking desired = [] ∧ differing same current desired = [] := by
  have hsorted : ∀ {β : Type} (d : Dict β), d.sorted.isEmpty = true ↔ d = [] := by
    intro β d
    rw [List.isEmpty_iff,← List.length_eq_zero_iff,(sorted_perm d).length_eq,
      List.length_eq_zero_iff]
  unfold DictPatch.isEmpty difference
  rw [Bool.and_eq_true,Bool.and_eq_true,hsorted,hsorted,hsorted,and_assoc]

/-- Nothing is reported exactly where the dictionaries agree. -/
theorem difference_isEmpty_iff (hc : current.keys.Nodup) (hd : desired.keys.Nodup) :
    (difference same current desired).isEmpty = true ↔
      Agree (fun u v => same u v = true) current desired := by
  unfold DictPatch.isEmpty difference Agree
  rw [Bool.and_eq_true,Bool.and_eq_true,isEmpty_iff_get,isEmpty_iff_get,isEmpty_iff_get,
    ← forall_and,← forall_and]
  refine forall_congr' (fun name => ?_)
  rw [get_lacking hd,get_lacking hc,get_differing hc]
  cases current.get name with
  | none =>
    cases desired.get name with
    | none => simp
    | some v => simp
  | some u =>
    cases desired.get name with
    | none => simp
    | some v => simp

end Patches

end Woodhouse.Python
