import Woodhouse.Python.Ascii
import Woodhouse.Python.DictPatches
import Woodhouse.Python.IsoFormat
import Woodhouse.Python.JsonParts
import Woodhouse.Python.ReadBack
import Woodhouse.Python.Utf8
import Woodhouse.Sql.Order

namespace Woodhouse.Python
open Sql

mutual

/-- No number occurs in the value. -/
def NumberFree : Json → Prop
  | .int _ => False
  | .float _ => False
  | .arr items => NumberFreeItems items
  | .obj entries => NumberFreeEntries entries
  | _ => True

def NumberFreeItems : List Json → Prop
  | [] => True
  | v :: rest => NumberFree v ∧ NumberFreeItems rest

def NumberFreeEntries : List (Str × Json) → Prop
  | [] => True
  | (_,v) :: rest => NumberFree v ∧ NumberFreeEntries rest

end

mutual

/-- How many containers are open at the deepest point of the value. -/
def depth : Json → Nat
  | .arr items => depthItems items + 1
  | .obj entries => depthEntries entries + 1
  | _ => 0

def depthItems : List Json → Nat
  | [] => 0
  | v :: rest => max (depth v) (depthItems rest)

def depthEntries : List (Str × Json) → Nat
  | [] => 0
  | (_,v) :: rest => max (depth v) (depthEntries rest)

end

mutual

/-- What comes back of a value: keys in order, and surrogate pairs joined. -/
def readBack : Json → Json
  | .str s => .str (joinPairs s)
  | .arr items => .arr (readBackItems items)
  | .obj entries =>
    .obj ((orderBy Prod.fst (readBackEntries entries)).foldl
      (fun d e => Dict.set d (joinPairs e.1) e.2) [])
  | .null => .null
  | .bool b => .bool b
  | .int i => .int i
  | .float x => .float x

def readBackItems : List Json → List Json
  | [] => []
  | v :: rest => readBack v :: readBackItems rest

def readBackEntries : List (Str × Json) → List (Str × Json)
  | [] => []
  | (key,v) :: rest => (key,readBack v) :: readBackEntries rest

end

section Containers
variable {limit d d' : Nat} {text : Str} {v : Json} {items : List Json} {entries : List (Str × Json)}

theorem dumpItems_eq : dumpItems items = items.map dumps := by
  induction items with
  | nil => rfl
  | cons v rest ih => rw [dumpItems,ih,List.map_cons]

theorem readBackItems_eq : readBackItems items = items.map readBack := by
  induction items with
  | nil => rfl
  | cons v rest ih => rw [readBackItems,ih,List.map_cons]

theorem dumpEntries_eq : dumpEntries entries = entries.map (fun e => (e.1,dumps e.2)) := by
  induction entries with
  | nil => rfl
  | cons e rest ih => rw [dumpEntries,ih,List.map_cons]

theorem readBackEntries_eq : readBackEntries entries = entries.map (fun e => (e.1,readBack e.2)) := by
  induction entries with
  | nil => rfl
  | cons e rest ih => rw [readBackEntries,ih,List.map_cons]

theorem ReadsValue.mono (h : ReadsValue limit d text v) (hd : d ≤ d') :
    ReadsValue limit d' text v := by
  obtain ⟨c,rest,htext,hspace,hclose,hread⟩ := h
  exact ⟨c,rest,htext,hspace,hclose,fun stack hstack => hread stack (by omega)⟩

theorem readsValue_bool (b : Bool) : ReadsValue limit d (str (if b then "true" else "false")) (.bool b) := by
  cases b with
  | true =>
    exact ⟨_,_,rfl,by decide,by decide,
      fun _ _ => ⟨_,rfl,(Reads.cons rfl (.cons rfl (.one rfl))).before⟩⟩
  | false =>
    exact ⟨_,_,rfl,by decide,by decide,
      fun _ _ => ⟨_,rfl,(Reads.cons rfl (.cons rfl (.cons rfl (.one rfl)))).before⟩⟩

theorem readsValue_emptyArray : ReadsValue limit (d + 1) (str "[]") (.arr []) :=
  ⟨_,_,rfl,by decide,by decide,fun _ hdepth => ⟨_,startValue_array (by omega),(Reads.one rfl).before⟩⟩

theorem readsValue_emptyObject : ReadsValue limit (d + 1) (str "\x7b\x7d") (.obj []) :=
  ⟨_,_,rfl,by decide,by decide,fun _ hdepth => ⟨_,startValue_object (by omega),(Reads.one rfl).before⟩⟩

theorem depth_item (h : v ∈ items) : depth v ≤ depthItems items := by
  induction items with
  | nil => cases h
  | cons w rest ih =>
    rw [depthItems]
    rcases List.mem_cons.mp h with rfl | h
    · exact le_max_left _ _
    · exact (ih h).trans (le_max_right _ _)

theorem depth_entry {e : Str × Json} (h : e ∈ entries) : depth e.2 ≤ depthEntries entries := by
  induction entries with
  | nil => cases h
  | cons f rest ih =>
    rw [depthEntries]
    rcases List.mem_cons.mp h with rfl | h
    · exact le_max_left _ _
    · exact (ih h).trans (le_max_right _ _)

/-- A member of an object, as it is written and as it comes back. -/
def memberOf (e : Str × Json) : Member :=
  { keyText := dumpStr e.1, key := joinPairs e.1, text := dumps e.2, value := readBack e.2 }

/-- Both sides put the members in the order of the keys. -/
theorem orderBy_entries {α : Type} (f : Json → α) :
    orderBy Prod.fst (entries.map (fun e => (e.1,f e.2))) =
      (orderBy Prod.fst entries).map (fun e => (e.1,f e.2)) := by
  have hsame : ∀ a ∈ entries, ∀ b ∈ entries, decide (a.1 ≤ b.1) =
      decide ((a.1,f a.2).1 ≤ (b.1,f b.2).1) := fun _ _ _ _ => rfl
  exact (@List.map_mergeSort _ _ (fun a b => decide (a.1 ≤ b.1)) (fun a b => decide (a.1 ≤ b.1))
    (fun e : Str × Json => (e.1,f e.2)) entries hsame).symm

theorem dumps_obj : dumps (.obj entries) = str "\x7b" ++
    commaSeparated (((orderBy Prod.fst entries).map memberOf).map Member.written) ++ str "\x7d" := by
  have hsorted := @orderBy_entries entries _ dumps
  unfold orderBy at hsorted
  rw [dumps,dumpEntries_eq]
  simp only [hsorted,List.map_map,orderBy]
  rfl

theorem readBack_obj : readBack (.obj entries) =
    .obj (((orderBy Prod.fst entries).map memberOf).foldl addMember []) := by
  rw [readBack,readBackEntries_eq,orderBy_entries,List.foldl_map,List.foldl_map]
  rfl

theorem readsValue_arr (h : ∀ v ∈ items, ReadsValue limit (depth v) (dumps v) (readBack v)) :
    ReadsValue limit (depth (.arr items)) (dumps (.arr items)) (readBack (.arr items)) := by
  rw [depth,dumps,readBack,dumpItems_eq,readBackItems_eq]
  by_cases hnil : items = []
  · subst hnil
    exact readsValue_emptyArray
  · have hread : ∀ e ∈ items.map (fun v => (dumps v,readBack v)),
        ReadsValue limit (depthItems items) e.1 e.2 := by
      intro e he
      obtain ⟨v,hv,rfl⟩ := List.mem_map.mp he
      exact (h v hv).mono (depth_item hv)
    have harray := readsValue_array (by simpa using hnil) hread
    rw [List.map_map,List.map_map] at harray
    exact harray

theorem readsValue_obj
    (h : ∀ e ∈ entries, ReadsValue limit (depth e.2) (dumps e.2) (readBack e.2)) :
    ReadsValue limit (depth (.obj entries)) (dumps (.obj entries)) (readBack (.obj entries)) := by
  rw [dumps_obj,readBack_obj]
  by_cases hnil : entries = []
  · subst hnil
    rw [show orderBy Prod.fst ([] : List (Str × Json)) = [] from List.mergeSort_nil]
    exact readsValue_emptyObject
  · have hread : ∀ m ∈ (orderBy Prod.fst entries).map memberOf,
        m.Readable limit (depthEntries entries) := by
      intro m hm
      obtain ⟨e,he,rfl⟩ := List.mem_map.mp hm
      have he := mem_orderBy.mp he
      exact ⟨(spells_escape limit e.1).readsKey,(h e he).mono (depth_entry he)⟩
    refine readsValue_object ?_ hread
    intro hempty
    have hlen := (orderBy_perm Prod.fst entries).length_eq
    rw [List.map_eq_nil_iff.mp hempty] at hlen
    exact hnil (List.eq_nil_of_length_eq_zero hlen.symm)

end Containers

def Json.IsNumber : Json → Prop
  | .int _ => True
  | .float _ => True
  | _ => False

/-- A text that `json.dumps` wrote is read back as the value it was written of, where the texts of
its numbers are. -/
theorem readsValue_dumps (limit : Nat) {v : Json}
    (h : v.Every (fun w => w.IsNumber → ReadsValue limit 0 (dumps w) (readBack w))) :
    ReadsValue limit (depth v) (dumps v) (readBack v) := by
  induction v using Json.induct with
  | null => exact readsValue_null limit 0
  | bool b => exact readsValue_bool b
  | int i => exact h.here trivial
  | float x => exact h.here trivial
  | str s => exact (spells_escape limit s).readsValue 0
  | arr items ih => exact readsValue_arr (fun v hv => ih v hv ((every_arr_iff.mp h).2 v hv))
  | obj entries ih => exact readsValue_obj (fun e he => ih e he ((every_obj_iff.mp h).2 e he))

section NumberFree
variable {v w : Json} {items : List Json} {entries : List (Str × Json)}

theorem numberFree_item (h : NumberFreeItems items) (hv : v ∈ items) : NumberFree v := by
  induction items with
  | nil => cases hv
  | cons u rest ih =>
    rcases List.mem_cons.mp hv with rfl | hv
    · exact h.1
    · exact ih h.2 hv

theorem numberFree_entry {e : Str × Json} (h : NumberFreeEntries entries) (he : e ∈ entries) :
    NumberFree e.2 := by
  induction entries with
  | nil => cases he
  | cons f rest ih =>
    rcases List.mem_cons.mp he with rfl | he
    · exact h.1
    · exact ih h.2 he

theorem Json.Within.numberFree (hw : w.Within v) (h : NumberFree v) : NumberFree w := by
  induction hw with
  | self => exact h
  | item hv _ ih => exact ih (numberFree_item h hv)
  | entry he _ ih => exact ih (numberFree_entry h he)

theorem readsValue_numberFree (limit : Nat) (h : NumberFree v) :
    ReadsValue limit (depth v) (dumps v) (readBack v) := by
  refine readsValue_dumps limit ?_
  intro w hw hnumber
  have hfree := hw.numberFree h
  cases w with
  | int i => exact absurd hfree id
  | float x => exact absurd hfree id
  | _ => exact absurd hnumber id

end NumberFree

section Loading
variable {limit : Nat} {entries : List (Str × Json)} {b : UInt8} {rest : Bytes} {s : Str}

theorem asciiBytes_eq (h : isAscii s = true) : asciiBytes s = s.flatMap utf8Bytes := by
  have hbytes := encodeUtf8_ascii h
  unfold encodeUtf8 at hbytes
  split at hbytes
  · cases hbytes
  · exact (Except.ok.inj hbytes).symm

/-- A text that starts with an object is read as UTF-8. -/
theorem decodeDetected_of_object (hb : b = 0x22 ∨ b = 0x7D) :
    decodeDetected (0x7B :: b :: rest) = decodeUtf8 (0x7B :: b :: rest) := by
  rcases hb with rfl | rfl
  all_goals
    match rest with
    | [] => rfl
    | [_] => rfl
    | _ :: _ :: _ => rfl

theorem dumps_obj_head (entries : List (Str × Json)) :
    ∃ c rest, dumps (.obj entries) = chr '{' :: c :: rest ∧ (c = chr '"' ∨ c = chr '}') := by
  rw [dumps_obj]
  cases orderBy Prod.fst entries with
  | nil => exact ⟨_,_,rfl,.inr rfl⟩
  | cons e rest =>
    rw [List.map_cons,List.map_cons,commaSeparated_cons]
    split
    · exact ⟨_,_,rfl,.inl rfl⟩
    · exact ⟨_,_,rfl,.inl rfl⟩

/-- `json.loads(json.dumps(d, separators=(",", ":"), sort_keys=True).encode())`. -/
theorem loads_dumps (h : NumberFreeEntries entries) (hlimit : depth (.obj entries) ≤ limit) :
    loads limit (asciiBytes (dumps (.obj entries))) = .ok (readBack (.obj entries)) := by
  obtain ⟨c,rest,htext,hc⟩ := dumps_obj_head entries
  have hascii := isAscii_dumps (.obj entries)
  have hdetected : decodeDetected (asciiBytes (dumps (.obj entries))) =
      decodeUtf8 (asciiBytes (dumps (.obj entries))) := by
    rw [htext]
    rcases hc with rfl | rfl
    · exact decodeDetected_of_object (.inl rfl)
    · exact decodeDetected_of_object (.inr rfl)
  unfold loads
  rw [hdetected,asciiBytes_eq hascii,decodeUtf8_flatMap]
  have hfree : NumberFree (.obj entries) := h
  exact (readsValue_numberFree limit hfree).decode hlimit

end Loading

section Lookups
variable {entries : Dict Json} {name s : Str}

/-- The dictionary that comes back of one. -/
def readBackDict (entries : Dict Json) : Dict Json :=
  (orderBy Prod.fst (readBackEntries entries)).foldl (fun d e => d.set (joinPairs e.1) e.2) []

theorem readBack_dict (entries : Dict Json) :
    readBack (.obj entries) = .obj (readBackDict entries) := by
  rw [readBack]
  rfl

/-- Under ASCII keys that do not repeat, every lookup finds what was written. -/
theorem get_readBackDict (hascii : ∀ key ∈ entries.keys, isAscii key = true)
    (hnodup : entries.keys.Nodup) (name : Str) :
    (readBackDict entries).get name = (entries.get name).map readBack := by
  have hmapped : readBackEntries entries = entries.map (fun e => (e.1,readBack e.2)) :=
    readBackEntries_eq
  have hperm := orderBy_perm Prod.fst (readBackEntries entries)
  have hkeys : (readBackEntries entries).map Prod.fst = entries.keys := by
    rw [hmapped]
    exact Dict.keys_mapValues readBack
  have hsorted : (Dict.keys (orderBy Prod.fst (readBackEntries entries))).Nodup :=
    ((hperm.map Prod.fst).nodup_iff).mpr (hkeys ▸ hnodup)
  have hupdate : readBackDict entries =
      Dict.update [] (orderBy Prod.fst (readBackEntries entries)) := by
    refine List.foldl_ext _ _ _ ?_
    intro d e he
    have hkey : e.1 ∈ entries.keys := by
      rw [← hkeys]
      exact List.mem_map_of_mem (mem_orderBy.mp he)
    rw [joinPairs_ascii (hascii _ hkey)]
  have hnone : Dict.get ([] : Dict Json) name = none := rfl
  rw [hupdate,Dict.get_update hsorted,Dict.get_perm hsorted hperm,hmapped,Dict.get_mapValues,hnone,
    Option.or_none]

end Lookups

end Woodhouse.Python
