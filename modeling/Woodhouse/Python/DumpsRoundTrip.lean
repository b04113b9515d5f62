import Woodhouse.Python.DumpsGrammar
import Woodhouse.Python.Equality

namespace Woodhouse.Python
open Sql

mutual

/-- The same value with the entries of every dictionary in the order of their keys. -/
def inOrder : Json → Json
  | .arr items => .arr (inOrderItems items)
  | .obj entries => .obj (orderBy Prod.fst (inOrderEntries entries))
  | .null => .null
  | .bool b => .bool b
  | .int i => .int i
  | .float x => .float x
  | .str s => .str s

def inOrderItems : List Json → List Json
  | [] => []
  | v :: rest => inOrder v :: inOrderItems rest

def inOrderEntries : List (Str × Json) → List (Str × Json)
  | [] => []
  | (key,v) :: rest => (key,inOrder v) :: inOrderEntries rest

end

/-- No string has a lone high surrogate directly before a lone low one, and no key has. -/
def Unsplit : Json → Prop
  | .str s => ¬ HasSplitPair s
  | .obj entries => ∀ e ∈ entries, ¬ HasSplitPair e.1
  | _ => True

instance decidableUnsplit : DecidablePred Unsplit
  | .str s => inferInstanceAs (Decidable (¬ HasSplitPair s))
  | .obj entries => inferInstanceAs (Decidable (∀ e ∈ entries, ¬ HasSplitPair e.1))
  | .null | .bool _ | .int _ | .float _ | .arr _ => .isTrue trivial

section Numbers
variable {v : Json}

/-- What `json.loads` gave is read back from its text. -/
theorem readsValue_canLoad (limit : ℕ) (hv : v.Every CanLoad) :
    ReadsValue limit (depth v) (dumps v) (readBack v) := by
  refine readsValue_dumps limit ?_
  intro w hw hnumber
  have hload := hv w hw
  cases w with
  | int i => exact readsValue_int hload
  | float x =>
    cases x with
    | nan =>
      exact ⟨_,_,rfl,by decide,by decide,fun _ _ => ⟨_,rfl,(Reads.cons rfl (.one rfl)).before⟩⟩
    | inf negative =>
      cases negative with
      | false =>
        exact ⟨_,_,rfl,by decide,by decide,fun _ _ => ⟨_,rfl,(Reads.cons rfl (.cons rfl (.cons rfl
          (.cons rfl (.cons rfl (.cons rfl (.one rfl))))))).before⟩⟩
      | true =>
        exact ⟨_,_,rfl,by decide,by decide,fun _ _ => ⟨_,rfl,(Reads.cons rfl (.cons rfl (.cons rfl
          (.cons rfl (.cons rfl (.cons rfl (.cons rfl (.one rfl)))))))).before⟩⟩
    | finite negative q => exact readsValue_float hload.2 hload.1
  | _ => exact absurd hnumber id

end Numbers

section Joined
variable {s : Str} {c : CodePoint}

theorem joinSurrogates_wide {high low : CodePoint} (hh : isHighSurrogate high = true)
    (hl : isLowSurrogate low = true) : isHighSurrogate (joinSurrogates high low) = false ∧
      isLowSurrogate (joinSurrogates high low) = false := by
  unfold isHighSurrogate at hh
  unfold isLowSurrogate at hl
  unfold isHighSurrogate isLowSurrogate joinSurrogates
  simp only [decide_eq_true_eq,decide_eq_false_iff_not,Fin.val_ofNat] at hh hl ⊢
  omega

/-- A joined string begins with its first character, or with a pair of them joined. -/
theorem joinPairs_head (c : CodePoint) (s : Str) : ∃ d rest, joinPairs (c :: s) = d :: rest ∧
    (d = c ∨ isLowSurrogate d = false) := by
  cases s with
  | nil => exact ⟨c,[],rfl,.inl rfl⟩
  | cons low rest =>
    rw [joinPairs]
    split
    · rename_i hpair
      exact ⟨_,_,rfl,.inr (joinSurrogates_wide hpair.1 hpair.2).2⟩
    · exact ⟨_,_,rfl,.inl rfl⟩

theorem joinPairs_joinPairs (s : Str) : joinPairs (joinPairs s) = joinPairs s := by
  induction s using joinPairs.induct with
  | case1 high low rest hpair ih =>
    rw [joinPairs,if_pos hpair,joinPairs_of_not_high (joinSurrogates_wide hpair.1 hpair.2).1,ih]
  | case2 high low rest hpair ih =>
    rw [joinPairs,if_neg hpair]
    obtain ⟨d,tail,htail,hd⟩ := joinPairs_head low rest
    have hnot : ¬ (isHighSurrogate high = true ∧ isLowSurrogate d = true) := by
      rintro ⟨hh,hl⟩
      rcases hd with rfl | hd
      · exact hpair ⟨hh,hl⟩
      · rw [hl] at hd
        cases hd
    rw [htail] at ih ⊢
    rw [joinPairs,if_neg hnot,ih]
  | case3 s hs =>
    have hsame : joinPairs s = s := by
      rw [joinPairs]
      exact hs
    rw [hsame,hsame]

theorem not_hasSplitPair_joinPairs (s : Str) : ¬ HasSplitPair (joinPairs s) :=
  (joinPairs_eq_iff _).mp (joinPairs_joinPairs s)

end Joined

section Dictionaries
variable {d : Dict Json} {entries : List (Str × Json)} {items : List Json}

theorem set_fresh {key : Str} {v : Json} (h : key ∉ d.keys) : d.set key v = d ++ [(key,v)] := by
  induction d with
  | nil => rfl
  | cons e rest ih =>
    obtain ⟨k,w⟩ := e
    simp only [Dict.keys,List.map_cons,List.mem_cons,not_or] at h
    rw [Dict.set,if_neg (Ne.symm h.1),ih h.2,List.cons_append]

/-- Members with new keys are appended. -/
theorem foldl_addMember (hkeys : ∀ e ∈ entries, joinPairs e.1 = e.1)
    (hnodup : (entries.map Prod.fst).Nodup) (hfresh : ∀ e ∈ entries, e.1 ∉ d.keys) :
    (entries.map memberOf).foldl addMember d = d ++ entries.map (fun e => (e.1,readBack e.2)) := by
  induction entries generalizing d with
  | nil => simp
  | cons e rest ih =>
    obtain ⟨hkey,hkeys⟩ := List.forall_mem_cons.mp hkeys
    obtain ⟨hnew,hfresh⟩ := List.forall_mem_cons.mp hfresh
    rw [List.map_cons,List.nodup_cons] at hnodup
    have hadd : addMember d (memberOf e) = d ++ [(e.1,readBack e.2)] := by
      unfold addMember memberOf
      simp only [hkey]
      exact set_fresh hnew
    rw [List.map_cons,List.foldl_cons,hadd,ih hkeys hnodup.2]
    · simp
    · intro f hf
      unfold Dict.keys
      rw [List.map_append,List.mem_append,List.map_singleton,List.mem_singleton,not_or]
      refine ⟨hfresh f hf,fun heq => hnodup.1 ?_⟩
      rw [← heq]
      exact List.mem_map_of_mem hf

/-- The keys that come back are joined. -/
theorem keys_foldl_addMember {key : Str}
    (h : key ∈ Dict.keys ((entries.map memberOf).foldl addMember d)) :
    key ∈ d.keys ∨ ∃ e ∈ entries, key = joinPairs e.1 := by
  induction entries generalizing d with
  | nil => exact .inl h
  | cons e rest ih =>
    rw [List.map_cons,List.foldl_cons] at h
    rcases ih h with h | ⟨f,hf,rfl⟩
    · rcases (Dict.mem_keys_set (memberOf e).key (memberOf e).value).mp h with rfl | h
      · exact .inr ⟨e,List.mem_cons_self,rfl⟩
      · exact .inl h
    · exact .inr ⟨f,List.mem_cons_of_mem _ hf,rfl⟩

theorem inOrderItems_eq : inOrderItems items = items.map inOrder := by
  induction items with
  | nil => rfl
  | cons v rest ih => rw [inOrderItems,ih,List.map_cons]

theorem inOrderEntries_eq : inOrderEntries entries = entries.map (fun e => (e.1,inOrder e.2)) := by
  induction entries with
  | nil => rfl
  | cons e rest ih => rw [inOrderEntries,ih,List.map_cons]

theorem inOrder_obj : inOrder (.obj entries) =
    .obj ((orderBy Prod.fst entries).map (fun e => (e.1,inOrder e.2))) := by
  rw [inOrder,inOrderEntries_eq,orderBy_entries]

/-- A dictionary comes back with its entries in order exactly when its keys and its values do. -/
theorem readBack_obj_iff (hnodup : (Dict.keys entries).Nodup) :
    readBack (.obj entries) = inOrder (.obj entries) ↔
      ∀ e ∈ entries, ¬ HasSplitPair e.1 ∧ readBack e.2 = inOrder e.2 := by
  have hsorted : ((orderBy Prod.fst entries).map Prod.fst).Nodup :=
    ((orderBy_perm Prod.fst entries).map Prod.fst).nodup_iff.mpr hnodup
  rw [readBack_obj,inOrder_obj,Json.obj.injEq]
  have hback : (∀ e ∈ entries, joinPairs e.1 = e.1) →
      ((orderBy Prod.fst entries).map memberOf).foldl addMember [] =
        (orderBy Prod.fst entries).map (fun e => (e.1,readBack e.2)) := by
    intro hkeys
    refine foldl_addMember (d := []) (fun e he => hkeys e (mem_orderBy.mp he)) hsorted ?_
    intro e _ h
    cases h
  constructor
  · intro heq
    have hkeys : ∀ e ∈ entries, joinPairs e.1 = e.1 := by
      intro e he
      have hmem : e.1 ∈ Dict.keys (((orderBy Prod.fst entries).map memberOf).foldl addMember []) := by
        rw [heq]
        unfold Dict.keys
        rw [List.map_map]
        exact List.mem_map.mpr ⟨e,mem_orderBy.mpr he,rfl⟩
      rcases keys_foldl_addMember hmem with h | ⟨f,_,hf⟩
      · cases h
      · rw [hf,joinPairs_joinPairs]
    rw [hback hkeys] at heq
    intro e he
    refine ⟨(joinPairs_eq_iff e.1).mp (hkeys e he),?_⟩
    have hboth := List.map_inj_left.mp heq e (mem_orderBy.mpr he)
    exact congrArg Prod.snd hboth
  · intro h
    rw [hback (fun e he => (joinPairs_eq_iff e.1).mpr (h e he).1)]
    refine List.map_inj_left.mpr ?_
    intro e he
    rw [(h e (mem_orderBy.mp he)).2]

/-- What is read back is the value exactly when no string and no key of it is joined. -/
theorem readBack_eq_iff {v : Json} (hv : v.Every CanLoad) :
    readBack v = inOrder v ↔ v.Every Unsplit := by
  induction v using Json.induct with
  | null => exact iff_of_true rfl ((every_leaf_iff (by simp) (by simp)).mpr trivial)
  | bool b => exact iff_of_true rfl ((every_leaf_iff (by simp) (by simp)).mpr trivial)
  | int i => exact iff_of_true rfl ((every_leaf_iff (by simp) (by simp)).mpr trivial)
  | float x => exact iff_of_true rfl ((every_leaf_iff (by simp) (by simp)).mpr trivial)
  | str s =>
    rw [every_leaf_iff (by simp) (by simp),readBack,inOrder,Json.str.injEq,joinPairs_eq_iff]
    rfl
  | arr items ih =>
    have hitems := (every_arr_iff.mp hv).2
    rw [readBack,inOrder,readBackItems_eq,inOrderItems_eq,Json.arr.injEq,List.map_inj_left,
      every_arr_iff]
    constructor
    · intro h
      exact ⟨trivial,fun v hmem => (ih v hmem (hitems v hmem)).mp (h v hmem)⟩
    · rintro ⟨_,h⟩ v hmem
      exact (ih v hmem (hitems v hmem)).mpr (h v hmem)
  | obj entries ih =>
    obtain ⟨hnodup,hentries⟩ := every_obj_iff.mp hv
    rw [readBack_obj_iff hnodup,every_obj_iff]
    constructor
    · intro h
      exact ⟨fun e he => (h e he).1,fun e he => (ih e he (hentries e he)).mp (h e he).2⟩
    · rintro ⟨hkeys,h⟩ e he
      exact ⟨hkeys e he,(ih e he (hentries e he)).mpr (h e he)⟩

/-- Python's `==` does not see the order. -/
theorem pyEq_inOrder {v : Json} (hv : v.Every CanLoad) (hfinite : v.Every IsFinite) :
    pyEq v (inOrder v) = true := by
  induction v using Json.induct with
  | null => rfl
  | bool b => simp [inOrder]
  | int i => simp [inOrder]
  | float x =>
    cases x with
    | nan => exact absurd hfinite.here id
    | inf negative => exact absurd hfinite.here id
    | finite negative q => simp [inOrder,pyEq,Json.numeric]
  | str s => simp [inOrder]
  | arr items ih =>
    replace hv := (every_arr_iff.mp hv).2
    replace hfinite := (every_arr_iff.mp hfinite).2
    rw [inOrder,pyEq_arr,inOrderItems_eq]
    induction items with
    | nil => rfl
    | cons v rest ihrest =>
      obtain ⟨hvalue,hmore⟩ := List.forall_mem_cons.mp ih
      obtain ⟨hv,hvs⟩ := List.forall_mem_cons.mp hv
      obtain ⟨hf,hfs⟩ := List.forall_mem_cons.mp hfinite
      rw [List.map_cons,pyEqItems,hvalue hv hf,Bool.true_and]
      exact ihrest hmore hvs hfs
  | obj entries ih =>
    obtain ⟨hnodup,hv⟩ := every_obj_iff.mp hv
    have hfinite := (every_obj_iff.mp hfinite).2
    have hperm := orderBy_perm Prod.fst entries
    have hkeys : (Dict.keys ((orderBy Prod.fst entries).map (fun e => (e.1,inOrder e.2)))).Nodup := by
      unfold Dict.keys
      rw [List.map_map]
      exact (hperm.map Prod.fst).nodup_iff.mpr hnodup
    have hentries : ∀ rest : Dict Json, (∀ e ∈ rest, e ∈ entries) → pyEqEntries rest
        ((orderBy Prod.fst entries).map (fun e => (e.1,inOrder e.2))) = true := by
      intro rest hrest
      induction rest with
      | nil => rfl
      | cons e rest ihrest =>
        obtain ⟨he,hrest⟩ := List.forall_mem_cons.mp hrest
        have hget : Dict.get ((orderBy Prod.fst entries).map (fun e => (e.1,inOrder e.2))) e.1 =
            some (inOrder e.2) :=
          Dict.get_of_mem hkeys (List.mem_map.mpr ⟨e,mem_orderBy.mpr he,rfl⟩)
        rw [pyEqEntries_cons,hget]
        dsimp only
        rw [ih e he (hv e he) (hfinite e he),Bool.true_and]
        exact ihrest hrest
    rw [inOrder_obj,pyEq_obj,hentries entries (fun _ he => he),Bool.and_true,decide_eq_true_iff,
      List.length_map]
    exact hperm.length_eq.symm

end Dictionaries

end Woodhouse.Python
