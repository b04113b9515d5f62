import Woodhouse.Python.Text

namespace Woodhouse.Python.Dict

variable {α β ε : Type}

def keys (d : Dict α) : List Str := d.map Prod.fst

/-- `d.update(other)`. -/
def update (d other : Dict α) : Dict α := other.foldl (fun d e => d.set e.1 e.2) d

/-- `del d[name]` for each of the names. -/
def drop (d : Dict α) (names : List Str) : Dict α := d.filter (fun e => e.1 ∉ names)

/-- A loop over the entries that keeps each key and stops at the first error. -/
def traverse (f : Str → α → Except ε β) : Dict α → Except ε (Dict β)
  | [] => .ok []
  | (key,value) :: rest =>
    match f key value with
    | .error e => .error e
    | .ok result =>
      match traverse f rest with
      | .error e => .error e
      | .ok results => .ok ((key,result) :: results)

section Keys
variable {d other : Dict α} {name : Str}

theorem mem_keys_of_mem {e : Str × α} (h : e ∈ d) : e.1 ∈ d.keys :=
  List.mem_map_of_mem h

theorem get_mem {value : α} (h : d.get name = some value) : (name,value) ∈ d := by
  unfold get at h
  obtain ⟨e, he, rfl⟩ := Option.map_eq_some_iff.mp h
  obtain rfl : e.1 = name := by simpa using List.find?_some he
  exact List.mem_of_find?_eq_some he

/-- An entry of a dictionary without repeated keys is what its key is looked up to. -/
theorem get_of_mem {value : α} (hnodup : d.keys.Nodup) (h : (name,value) ∈ d) :
    d.get name = some value := by
  induction d with
  | nil => cases h
  | cons e rest ih =>
    simp only [keys, List.map_cons, List.nodup_cons] at hnodup
    rcases List.mem_cons.mp h with rfl | h
    · simp [get]
    · have hne : e.1 ≠ name := by
        intro he
        exact hnodup.1 (he ▸ List.mem_map_of_mem h)
      have hrest := ih hnodup.2 h
      unfold get at hrest ⊢
      rw [List.find?_cons_of_neg (by simpa using hne)]
      exact hrest

theorem mem_keys_set (key : Str) (value : α) :
    name ∈ (d.set key value).keys ↔ name = key ∨ name ∈ d.keys := by
  induction d with
  | nil => simp [set, keys]
  | cons e rest ih =>
    obtain ⟨k, v⟩ := e
    unfold set
    split
    · rename_i hk
      subst hk
      simp [keys]
    · simp only [keys, List.map_cons, List.mem_cons] at ih ⊢
      rw [ih]
      exact or_left_comm

theorem mem_keys_update : name ∈ (d.update other).keys ↔ name ∈ d.keys ∨ name ∈ other.keys := by
  induction other generalizing d with
  | nil => simp [update, keys]
  | cons e rest ih =>
    have hrest : (d.update (e :: rest)).keys = ((d.set e.1 e.2).update rest).keys := rfl
    rw [hrest, ih, mem_keys_set]
    simp only [keys, List.map_cons, List.mem_cons]
    rw [or_comm (a := name = e.1), or_assoc]

theorem mem_keys_drop {names : List Str} : name ∈ (d.drop names).keys ↔ name ∈ d.keys ∧ name ∉ names := by
  unfold drop keys
  simp only [List.mem_map, List.mem_filter, decide_eq_true_eq]
  constructor
  · rintro ⟨e, ⟨he, hn⟩, rfl⟩
    exact ⟨⟨e, he, rfl⟩, hn⟩
  · rintro ⟨⟨e, he, rfl⟩, hn⟩
    exact ⟨e, ⟨he, hn⟩, rfl⟩

theorem get_drop (d : Dict α) (names : List Str) (name : Str) :
    (d.drop names).get name = if name ∈ names then none else d.get name := by
  unfold drop get
  rw [List.find?_filter]
  split
  · rename_i hn
    rw [Option.map_eq_none_iff, List.find?_eq_none]
    intro e _
    simp only [decide_eq_true_eq, not_and]
    rintro he rfl
    exact he hn
  · rename_i hn
    congr 2
    funext e
    by_cases he : e.1 = name
    · simp [he, hn]
    · simp [he]

theorem get_mapValues (d : Dict α) (f : α → β) (name : Str) :
    Dict.get (d.map (fun e => (e.1,f e.2))) name = (d.get name).map f := by
  unfold get
  rw [List.find?_map, Option.map_map, Option.map_map]
  rfl

theorem keys_mapValues (f : α → β) : Dict.keys (d.map (fun e => (e.1,f e.2))) = d.keys := by
  unfold keys
  rw [List.map_map]
  rfl

end Keys

section Loops
variable {f : Str → α → Except ε β} {d : Dict α} {results : Dict β}

/-- A loop that succeeds at every entry of an enumerated dictionary. -/
theorem traverse_map {ι : Type} {items : List ι} {key : ι → Str} {value : ι → α} {result : ι → β}
    (h : ∀ i ∈ items, f (key i) (value i) = .ok (result i)) :
    traverse f (items.map (fun i => (key i,value i))) = .ok (items.map (fun i => (key i,result i))) := by
  induction items with
  | nil => rfl
  | cons i rest ih =>
    have hrest := ih (fun j hj => h j (List.mem_cons_of_mem _ hj))
    simp only [List.map_cons, traverse, h i (List.mem_cons_self ..), hrest]

theorem traverse_keys (h : traverse f d = .ok results) : results.keys = d.keys := by
  induction d generalizing results with
  | nil =>
    cases h
    rfl
  | cons e rest ih =>
    obtain ⟨key,value⟩ := e
    unfold traverse at h
    split at h
    · cases h
    · split at h
      · cases h
      · rename_i hrest
        cases h
        simp only [keys,List.map_cons,List.cons.injEq,true_and]
        exact ih hrest

/-- Every result of a loop is the body's for an entry. -/
theorem traverse_mem (h : traverse f d = .ok results) {e : Str × β} (he : e ∈ results) :
    ∃ value, (e.1,value) ∈ d ∧ f e.1 value = .ok e.2 := by
  induction d generalizing results with
  | nil =>
    cases h
    cases he
  | cons e' rest ih =>
    obtain ⟨key,value⟩ := e'
    unfold traverse at h
    split at h
    · cases h
    · rename_i hresult
      split at h
      · cases h
      · rename_i hrest
        cases h
        rcases List.mem_cons.mp he with rfl | he
        · exact ⟨value,List.mem_cons_self,hresult⟩
        · obtain ⟨value,hmem,hvalue⟩ := ih hrest he
          exact ⟨value,List.mem_cons_of_mem _ hmem,hvalue⟩

end Loops

end Woodhouse.Python.Dict
