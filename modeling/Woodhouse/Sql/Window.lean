import Mathlib.Algebra.GroupWithZero.Nat
import Mathlib.Data.List.Basic
import Mathlib.Data.List.Induction
import Mathlib.Order.Lattice

namespace Woodhouse.Sql

variable {α β γ κ : Type}

/-- A window function with `ROWS UNBOUNDED PRECEDING`: every row with the value of
`g` at the rows up to and including it. -/
def overFrom (g : List α → γ) : List α → List α → List (α × γ)
  | _, [] => []
  | before, a :: rest => (a,g (before ++ [a])) :: overFrom g (before ++ [a]) rest

def overRows (g : List α → γ) (rows : List α) : List (α × γ) := overFrom g [] rows

theorem overFrom_snoc (g : List α → γ) (before rows : List α) (a : α) :
    overFrom g before (rows ++ [a]) =
      overFrom g before rows ++ [(a,g (before ++ rows ++ [a]))] := by
  induction rows generalizing before with
  | nil => simp [overFrom]
  | cons b rows ih => simp [overFrom,ih]

@[simp] theorem over_nil (g : List α → γ) : overRows g [] = [] := rfl

@[simp] theorem over_snoc (g : List α → γ) (rows : List α) (a : α) :
    overRows g (rows ++ [a]) = overRows g rows ++ [(a,g (rows ++ [a]))] := by
  unfold overRows
  rw [overFrom_snoc,List.nil_append]

theorem over_fst (g : List α → γ) (rows : List α) : (overRows g rows).map Prod.fst = rows := by
  induction rows using List.reverseRecOn with
  | nil => rfl
  | append_singleton rows a ih => simp [ih]

/-- `LAST_VALUE(f IGNORE NULLS)` of a frame. -/
def lastValue (f : α → Option β) (frame : List α) : Option β := (frame.filterMap f).getLast?

@[simp] theorem lastValue_nil (f : α → Option β) : lastValue f [] = none := rfl

@[simp] theorem lastValue_snoc (f : α → Option β) (frame : List α) (a : α) :
    lastValue f (frame ++ [a]) = (f a).or (lastValue f frame) := by
  unfold lastValue
  rw [List.filterMap_append]
  cases h : f a with
  | none => simp [h]
  | some b => simp [h]

theorem lastValue_eq_some {f : α → Option β} {frame : List α} {b : β}
    (h : lastValue f frame = some b) : ∃ a ∈ frame, f a = some b :=
  List.mem_filterMap.mp (List.mem_of_getLast? h)

theorem lastValue_eq_none {f : α → Option β} {frame : List α} :
    lastValue f frame = none ↔ ∀ a ∈ frame, f a = none :=
  List.getLast?_eq_none_iff.trans List.filterMap_eq_nil_iff

/-- Where the known values of a frame are all the same, it carries that value. -/
theorem lastValue_of_mem {f : α → Option β} {frame : List α} {a : α} {x : β} (ha : a ∈ frame)
    (hx : f a = some x) (h : ∀ b ∈ frame, ∀ y, f b = some y → y = x) :
    lastValue f frame = some x := by
  cases hv : lastValue f frame with
  | none =>
    rw [lastValue_eq_none.mp hv a ha] at hx
    cases hx
  | some y =>
    obtain ⟨b,hb,hy⟩ := lastValue_eq_some hv
    rw [h b hb y hy]

/-- The order of such a frame does not matter. -/
theorem lastValue_perm {f : α → Option β} {frame frame' : List α} (hperm : frame.Perm frame')
    (h : ∀ a ∈ frame, ∀ b ∈ frame, ∀ x y, f a = some x → f b = some y → x = y) :
    lastValue f frame = lastValue f frame' := by
  cases hv : lastValue f frame with
  | none =>
    have hnone := lastValue_eq_none.mp hv
    exact (lastValue_eq_none.mpr (fun a ha => hnone a (hperm.mem_iff.mpr ha))).symm
  | some x =>
    obtain ⟨a,ha,hx⟩ := lastValue_eq_some hv
    refine (lastValue_of_mem (hperm.mem_iff.mp ha) hx ?_).symm
    intro b hb y hy
    exact h b (hperm.mem_iff.mpr hb) a ha y x hy hx

/-- `LAG(f, 1, initial)` at the last row of a frame. -/
def lag (f : α → β) (initial : β) (frame : List α) : β :=
  (frame.dropLast.getLast?.map f).getD initial

@[simp] theorem lag_snoc (f : α → β) (initial : β) (frame : List α) (a : α) :
    lag f initial (frame ++ [a]) = (frame.getLast?.map f).getD initial := by
  unfold lag
  rw [List.dropLast_concat]

theorem overFrom_lag (before rows : List α) :
    overFrom (lag some none) before rows = rows.zip (before.getLast? :: rows.map some) := by
  induction rows generalizing before with
  | nil => rfl
  | cons a rows ih =>
    rw [overFrom,ih,lag_snoc,List.getLast?_concat,List.map_cons,List.zip_cons_cons]
    cases before.getLast? <;> rfl

/-- `LAG` pairs each row with the one before it. -/
theorem over_lag (rows : List α) :
    overRows (lag some none) rows = rows.zip (none :: rows.map some) :=
  overFrom_lag [] rows

/-- `LEAD` pairs each row with the one after it. -/
def overLead (rows : List α) : List (α × Option α) := rows.zip (rows.tail.map some ++ [none])

@[simp] theorem overLead_nil : overLead ([] : List α) = [] := rfl

@[simp] theorem overLead_cons (a : α) (rows : List α) :
    overLead (a :: rows) = (a,rows.head?) :: overLead rows := by
  cases rows with
  | nil => rfl
  | cons b rows => rfl

theorem overLead_fst (rows : List α) : (overLead rows).map Prod.fst = rows := by
  unfold overLead
  refine List.map_fst_zip ?_
  rw [List.length_append,List.length_map,List.length_tail,List.length_singleton]
  omega

theorem getElem?_overLead (rows : List α) (i : Nat) :
    (overLead rows)[i]? = rows[i]?.map (fun a => (a,rows[i + 1]?)) := by
  induction rows generalizing i with
  | nil => rfl
  | cons a rows ih =>
    rw [overLead_cons]
    cases i with
    | zero => simp [List.head?_eq_getElem?]
    | succ i => simpa using ih i

/-- A window function whose frame keeps the rows with the key of the current row. -/
def overPartition [DecidableEq κ] (key : α → κ) (g : List α → γ) (rows : List α) : List (α × γ) :=
  overRows (fun frame => g (frame.filter (fun b => frame.getLast?.map key = some (key b)))) rows

@[simp] theorem overPartition_nil [DecidableEq κ] (key : α → κ) (g : List α → γ) :
    overPartition key g [] = [] := rfl

@[simp] theorem overPartition_snoc [DecidableEq κ] (key : α → κ) (g : List α → γ) (rows : List α)
    (a : α) : overPartition key g (rows ++ [a]) =
      overPartition key g rows ++ [(a,g (rows.filter (fun b => key b = key a) ++ [a]))] := by
  unfold overPartition
  rw [over_snoc,List.getLast?_concat,List.filter_append]
  simp only [Option.map_some,Option.some.injEq,eq_comm,List.filter_cons,decide_true,if_true,
    List.filter_nil]

/-- The rows of one key see a window of their own. -/
theorem overPartition_filter [DecidableEq κ] (key : α → κ) (g : List α → γ) (rows : List α) (k : κ) :
    (overPartition key g rows).filter (fun p => key p.1 = k) =
      overRows g (rows.filter (fun a => key a = k)) := by
  induction rows using List.reverseRecOn with
  | nil => rfl
  | append_singleton rows a ih =>
    rw [overPartition_snoc,List.filter_append,List.filter_append,ih]
    by_cases hk : key a = k
    · subst hk
      simp
    · simp [hk]

/-- The rows with `ROW_NUMBER() OVER (PARTITION BY key) = 1`, from rows in window order. -/
def firstRows [DecidableEq κ] (key : α → κ) (rows : List α) : List α :=
  ((overPartition key List.length rows).filter (fun p => p.2 = 1)).map Prod.fst

@[simp] theorem firstRows_nil [DecidableEq κ] (key : α → κ) : firstRows key [] = [] := rfl

theorem firstRows_snoc [DecidableEq κ] (key : α → κ) (rows : List α) (a : α) :
    firstRows key (rows ++ [a]) =
      firstRows key rows ++ if rows.filter (fun b => key b = key a) = [] then [a] else [] := by
  unfold firstRows
  rw [overPartition_snoc,List.filter_append,List.map_append]
  congr 1
  by_cases h : rows.filter (fun b => key b = key a) = []
  · simp [h]
  · have hpos := List.length_pos_of_ne_nil h
    have hne : ¬ (rows.filter (fun b => key b = key a) ++ [a]).length = 1 := by
      rw [List.length_append,List.length_singleton]
      omega
    rw [if_neg h,List.filter_cons_of_neg (by simpa using hne)]
    rfl

/-- Of each partition the first row is kept. -/
theorem firstRows_filter [DecidableEq κ] (key : α → κ) (rows : List α) (k : κ) :
    (firstRows key rows).filter (fun a => key a = k) =
      (rows.filter (fun a => key a = k)).head?.toList := by
  induction rows using List.reverseRecOn with
  | nil => rfl
  | append_singleton rows a ih =>
    rw [firstRows_snoc,List.filter_append,List.filter_append,ih]
    by_cases hk : key a = k
    · subst hk
      cases hrows : rows.filter (fun b => key b = key a) with
      | nil => simp
      | cons b others => simp
    · have hrest : (if rows.filter (fun b => key b = key a) = [] then [a] else []).filter
          (fun b => key b = k) = [] := by
        split
        · simp [hk]
        · rfl
      rw [hrest]
      simp [hk]

/-- A row is kept where it is the first of its partition. -/
theorem mem_firstRows [DecidableEq κ] {key : α → κ} {rows : List α} {a : α} :
    a ∈ firstRows key rows ↔ (rows.filter (fun b => key b = key a)).head? = some a := by
  have hf := firstRows_filter key rows (key a)
  have hiff : a ∈ (firstRows key rows).filter (fun b => key b = key a) ↔
      (rows.filter (fun b => key b = key a)).head? = some a := by
    rw [hf]
    exact Option.mem_toList
  rw [← hiff,List.mem_filter]
  simp

theorem mem_of_firstRows [DecidableEq κ] {key : α → κ} {rows : List α} {a : α}
    (h : a ∈ firstRows key rows) : a ∈ rows :=
  List.mem_of_mem_filter (List.mem_of_head? (mem_firstRows.mp h))

/-- Each partition has a row that is kept. -/
theorem exists_firstRows [DecidableEq κ] {key : α → κ} {rows : List α} {a : α} (h : a ∈ rows) :
    ∃ b ∈ firstRows key rows, key b = key a := by
  have hmem : a ∈ rows.filter (fun b => key b = key a) := List.mem_filter.mpr ⟨h,by simp⟩
  cases hrows : rows.filter (fun b => key b = key a) with
  | nil =>
    rw [hrows] at hmem
    cases hmem
  | cons b others =>
    have hb : b ∈ (firstRows key rows).filter (fun c => key c = key a) := by
      rw [firstRows_filter,hrows]
      exact List.mem_singleton_self b
    exact ⟨b,(List.mem_filter.mp hb).1,by simpa using (List.mem_filter.mp hb).2⟩

/-- No partition has two rows that are kept. -/
theorem firstRows_keys_nodup [DecidableEq κ] (key : α → κ) (rows : List α) :
    ((firstRows key rows).map key).Nodup := by
  induction rows using List.reverseRecOn with
  | nil => exact List.nodup_nil
  | append_singleton rows a ih =>
    rw [firstRows_snoc]
    split
    · rename_i hnone
      rw [List.map_append]
      refine List.nodup_append.mpr ⟨ih,by simp,?_⟩
      intro k hk j hj heq
      obtain ⟨b,hb,rfl⟩ := List.mem_map.mp hk
      rw [List.mem_map] at hj
      obtain ⟨c,hc,rfl⟩ := hj
      rw [List.mem_singleton.mp hc] at heq
      have hmem : b ∈ rows.filter (fun d => key d = key a) :=
        List.mem_filter.mpr ⟨mem_of_firstRows hb,by simpa using heq⟩
      rw [hnone] at hmem
      cases hmem
    · rwa [List.append_nil]

/-- Lists with the same rows of each key hold the same rows. -/
theorem perm_of_filter_key [DecidableEq κ] (key : α → κ) {rows rows' : List α}
    (h : ∀ k, rows.filter (fun a => key a = k) = rows'.filter (fun a => key a = k)) :
    rows.Perm rows' := by
  classical
  refine List.perm_iff_count.mpr ?_
  intro a
  have hp : decide (key a = key a) = true := by simp
  rw [← List.count_filter (p := fun b => decide (key b = key a)) hp,h (key a),
    List.count_filter (p := fun b => decide (key b = key a)) hp]

/-- Of rows that are made key by key, those of one key. -/
theorem flatMap_filter [DecidableEq κ] {f : κ → List α} {key : α → κ}
    (hkey : ∀ k, ∀ a ∈ f k, key a = k) {keys : List κ} (hnodup : keys.Nodup) (k : κ) :
    (keys.flatMap f).filter (fun a => key a = k) = if k ∈ keys then f k else [] := by
  induction keys with
  | nil => rfl
  | cons j keys ih =>
    obtain ⟨hj,hkeys⟩ := List.nodup_cons.mp hnodup
    rw [List.flatMap_cons,List.filter_append,ih hkeys]
    by_cases hk : k = j
    · subst hk
      have hall : (f k).filter (fun a => key a = k) = f k := by
        refine List.filter_eq_self.mpr ?_
        intro a ha
        simpa using hkey k a ha
      rw [hall,if_neg hj,if_pos List.mem_cons_self,List.append_nil]
    · have hnone : (f j).filter (fun a => key a = k) = [] := by
        refine List.filter_eq_nil_iff.mpr ?_
        intro a ha heq
        rw [hkey j a ha] at heq
        exact hk (of_decide_eq_true heq).symm
      rw [hnone,List.nil_append]
      simp [hk]

/-- In the order of their keys, the row before a row of the same key is the last one. -/
theorem getLast?_filter_key [LinearOrder κ] {key : α → κ} {rows : List α} {a : α}
    (h : (rows ++ [a]).Pairwise (fun b c => key b ≤ key c)) :
    (rows.filter (fun b => key b = key a)).getLast? =
      rows.getLast?.filter (fun b => key b = key a) := by
  cases rows using List.reverseRecOn with
  | nil => rfl
  | append_singleton rows b =>
    rw [List.filter_append,List.getLast?_concat]
    by_cases hb : key b = key a
    · simp [hb,Option.filter]
    · have hnone : rows.filter (fun c => key c = key a) = [] := by
        refine List.filter_eq_nil_iff.mpr ?_
        intro c hc heq
        obtain ⟨hrows,_,hle⟩ := List.pairwise_append.mp h
        have hcb := (List.pairwise_append.mp hrows).2.2 c hc b List.mem_cons_self
        have hba := hle b (by simp) a List.mem_cons_self
        rw [of_decide_eq_true heq] at hcb
        exact hb (le_antisymm hba hcb)
      simp [hb,hnone,Option.filter]

/-- Each row with the one after it. -/
def consecutive (rows : List α) : List (α × α) := rows.zip rows.tail

@[simp] theorem consecutive_snoc (rows : List α) (a : α) :
    consecutive (rows ++ [a]) =
      consecutive rows ++ (rows.getLast?.map (fun b => (b,a))).toList := by
  unfold consecutive
  induction rows with
  | nil => rfl
  | cons b rows ih =>
    cases rows with
    | nil => rfl
    | cons c rows =>
      simp only [List.cons_append,List.tail_cons,List.zip_cons_cons,List.getLast?_cons_cons] at ih ⊢
      rw [ih]

/-- `SUM(f)` of a frame. -/
def sum (f : α → Nat) (frame : List α) : Nat := (frame.map f).sum

@[simp] theorem sum_nil (f : α → Nat) : sum f [] = 0 := rfl

@[simp] theorem sum_snoc (f : α → Nat) (frame : List α) (a : α) :
    sum f (frame ++ [a]) = sum f frame + f a := by
  unfold sum
  rw [List.map_append,List.sum_append,List.map_singleton,List.sum_singleton]

section GroupBy
variable [DecidableEq κ]

/-- Put a row into the group of its key, a new last group if there is none. -/
def insertGroup (k : κ) (a : α) : List (κ × List α) → List (κ × List α)
  | [] => [(k,[a])]
  | (j,rows) :: groups =>
    if j = k then (j,rows ++ [a]) :: groups else (j,rows) :: insertGroup k a groups

/-- `GROUP BY key`, the groups in the order of their first rows. -/
def groupBy (key : α → κ) (rows : List α) : List (κ × List α) :=
  rows.foldl (fun groups a => insertGroup (key a) a groups) []

@[simp] theorem groupBy_nil (key : α → κ) : groupBy key [] = [] := rfl

@[simp] theorem groupBy_snoc (key : α → κ) (rows : List α) (a : α) :
    groupBy key (rows ++ [a]) = insertGroup (key a) a (groupBy key rows) := by
  unfold groupBy
  rw [List.foldl_append]
  rfl

theorem insertGroup_new {k : κ} {a : α} {groups : List (κ × List α)}
    (h : k ∉ groups.map Prod.fst) : insertGroup k a groups = groups ++ [(k,[a])] := by
  induction groups with
  | nil => rfl
  | cons g groups ih =>
    obtain ⟨j,rows⟩ := g
    rw [List.map_cons,List.mem_cons,not_or] at h
    simp only [insertGroup,if_neg (Ne.symm h.1),ih h.2,List.cons_append]

theorem insertGroup_last {k : κ} {a : α} {groups : List (κ × List α)} {rows : List α}
    (h : k ∉ groups.map Prod.fst) :
    insertGroup k a (groups ++ [(k,rows)]) = groups ++ [(k,rows ++ [a])] := by
  induction groups with
  | nil => simp [insertGroup]
  | cons g groups ih =>
    obtain ⟨j,others⟩ := g
    rw [List.map_cons,List.mem_cons,not_or] at h
    simp only [List.cons_append,insertGroup,if_neg (Ne.symm h.1),ih h.2]

end GroupBy

/-- `MIN` of the values and one that is not before them. -/
theorem min_snoc {values : List Int} {t : Int} (h : ∀ v ∈ values, v ≤ t) :
    (values ++ [t]).min? = values.min?.or (some t) := by
  cases hm : values.min? with
  | none =>
    rw [List.min?_eq_none_iff.mp hm]
    rfl
  | some m =>
    obtain ⟨hmem,hle⟩ := List.min?_eq_some_iff.mp hm
    refine List.min?_eq_some_iff.mpr ⟨List.mem_append_left _ hmem,?_⟩
    intro v hv
    rcases List.mem_append.mp hv with hv | hv
    · exact hle v hv
    · rw [List.mem_singleton.mp hv]
      exact h m hmem

end Woodhouse.Sql
