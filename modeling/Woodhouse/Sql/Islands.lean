import Mathlib.Data.List.TakeWhile
import Woodhouse.Sql.Logic
import Woodhouse.Sql.Window

namespace Woodhouse.Sql

/-- When a run begins, and when it ends, if it does. -/
abbrev Stretch := Int × Option Int

section Runs
variable {α : Type} (on : α → Bool) (time : α → Int)

/-- Each row that is on after one that is not, with the first later row that is not on. -/
def runsFrom : Bool → List α → List Stretch
  | _, [] => []
  | was, a :: rest =>
    (if on a && !was then [(time a,(rest.find? (fun b => !on b)).map time)] else []) ++
      runsFrom (on a) rest

/-- The runs of the rows that are on; before the first row nothing is. -/
def runs (rows : List α) : List Stretch := runsFrom on time false rows

/-- The stretch of rows that are on, between rows that are not. -/
def MaximalRun (rows : List α) (p : Stretch) : Prop :=
  ∃ before first run after, rows = before ++ (first :: run ++ after) ∧
    (∀ a ∈ first :: run, on a = true) ∧ (∀ a ∈ before.getLast?, on a = false) ∧
    (∀ a ∈ after.head?, on a = false) ∧ p = (time first,after.head?.map time)

/-- Whether the last row is on. -/
def lastOn (rows : List α) : Bool := (rows.getLast?.map on).getD false

/-- What a row that is not on does to a stretch. -/
def closeAt (ended : Option Int) (p : Stretch) : Stretch := (p.1,p.2.or ended)

variable {on time}

@[simp] theorem lastOn_snoc (rows : List α) (a : α) : lastOn on (rows ++ [a]) = on a := by
  unfold lastOn
  rw [List.getLast?_concat]
  rfl

theorem map_closeAt_none (stretches : List Stretch) : stretches.map (closeAt none) = stretches := by
  have hid : closeAt none = id := by
    funext p
    unfold closeAt
    rw [Option.or_none]
    rfl
  rw [hid,List.map_id]

theorem map_closeAt_ended {stretches : List Stretch} (h : ∀ p ∈ stretches, p.2.isSome = true)
    (ended : Option Int) : stretches.map (closeAt ended) = stretches := by
  refine (List.map_congr_left ?_).trans (List.map_id _)
  intro p hp
  obtain ⟨t,ht⟩ := Option.isSome_iff_exists.mp (h p hp)
  unfold closeAt
  rw [ht]
  exact Prod.ext rfl ht.symm

theorem runsFrom_snoc (was : Bool) (rows : List α) (a : α) :
    runsFrom on time was (rows ++ [a]) =
      (runsFrom on time was rows).map (closeAt (if on a then none else some (time a))) ++
        if on a && !((rows.getLast?.map on).getD was) then [(time a,none)] else [] := by
  induction rows generalizing was with
  | nil => cases ha : on a <;> cases was <;> simp [runsFrom,ha]
  | cons b rows ih =>
    have hlast : ((b :: rows).getLast?.map on).getD was = (rows.getLast?.map on).getD (on b) := by
      cases rows with
      | nil => rfl
      | cons c rows => rfl
    have hfind : ((rows ++ [a]).find? (fun c => !on c)).map time =
        ((rows.find? (fun c => !on c)).map time).or (if on a then none else some (time a)) := by
      rw [List.find?_append]
      cases rows.find? (fun c => !on c) with
      | some c => rfl
      | none => cases ha : on a <;> simp [ha]
    rw [List.cons_append,runsFrom,runsFrom,ih,hlast,hfind,List.map_append,List.append_assoc]
    congr 1
    split
    · rfl
    · rfl

/-- A further row ends the stretch under way or begins one. -/
theorem runs_snoc (rows : List α) (a : α) :
    runs on time (rows ++ [a]) =
      (runs on time rows).map (closeAt (if on a then none else some (time a))) ++
        if on a && !lastOn on rows then [(time a,none)] else [] :=
  runsFrom_snoc false rows a

variable (on time) in
/-- Every stretch but one under way is ended. -/
theorem runs_ended (rows : List α) :
    ∃ ended current, runs on time rows = ended ++ current ∧
      (∀ p ∈ ended, p.2.isSome = true) ∧
      ((lastOn on rows = false ∧ current = []) ∨
        (lastOn on rows = true ∧ ∃ t, current = [(t,none)])) := by
  induction rows using List.reverseRecOn with
  | nil => exact ⟨[],[],rfl,fun _ h => absurd h List.not_mem_nil,.inl ⟨rfl,rfl⟩⟩
  | append_singleton rows a ih =>
    obtain ⟨ended,current,hruns,hended,hcurrent⟩ := ih
    rw [runs_snoc,hruns,List.map_append,map_closeAt_ended hended,lastOn_snoc]
    cases ha : on a with
    | true =>
      rcases hcurrent with ⟨hlast,rfl⟩ | ⟨hlast,t,rfl⟩
      · exact ⟨ended,[(time a,none)],by simp [hlast],hended,.inr ⟨rfl,_,rfl⟩⟩
      · exact ⟨ended,[(t,none)],by simp [hlast,closeAt],hended,.inr ⟨rfl,_,rfl⟩⟩
    | false =>
      rcases hcurrent with ⟨hlast,rfl⟩ | ⟨hlast,t,rfl⟩
      · exact ⟨ended,[],by simp,hended,.inl ⟨rfl,rfl⟩⟩
      · refine ⟨ended ++ [(t,some (time a))],[],by simp [closeAt],?_,.inl ⟨rfl,rfl⟩⟩
        intro p hp
        rcases List.mem_append.mp hp with hp | hp
        · exact hended p hp
        · rw [List.mem_singleton.mp hp]
          rfl

/-- A row that is on or off as the one before it changes nothing. -/
theorem runs_repeat {rows : List α} {a : α} (h : on a = lastOn on rows) :
    runs on time (rows ++ [a]) = runs on time rows := by
  rw [runs_snoc,h]
  cases hlast : lastOn on rows with
  | true => simp [map_closeAt_none]
  | false =>
    obtain ⟨ended,current,hruns,hended,hcurrent⟩ := runs_ended on time rows
    rcases hcurrent with ⟨_,rfl⟩ | ⟨hon,_⟩
    · rw [hruns]
      simp only [List.append_nil,Bool.false_and,Bool.false_eq_true,if_false]
      exact map_closeAt_ended hended _
    · rw [hlast] at hon
      cases hon

theorem mem_runsFrom {was : Bool} {rows : List α} {p : Stretch} :
    p ∈ runsFrom on time was rows ↔ ∃ before first rest, rows = before ++ first :: rest ∧
      on first = true ∧ (before.getLast?.map on).getD was = false ∧
      p = (time first,(rest.find? (fun b => !on b)).map time) := by
  induction rows generalizing was with
  | nil => simp [runsFrom]
  | cons a rows ih =>
    rw [runsFrom,List.mem_append,ih]
    constructor
    · rintro (h | ⟨before,first,rest,rfl,hon,hbefore,rfl⟩)
      · split at h
        · rename_i hc
          rw [Bool.and_eq_true,Bool.not_eq_true'] at hc
          exact ⟨[],a,rows,rfl,hc.1,hc.2,List.mem_singleton.mp h⟩
        · cases h
      · refine ⟨a :: before,first,rest,rfl,hon,?_,rfl⟩
        rw [List.getLast?_cons]
        cases hb : before.getLast? <;> simp_all
    · rintro ⟨before,first,rest,hrows,hon,hbefore,rfl⟩
      cases before with
      | nil =>
        obtain ⟨rfl,rfl⟩ := List.cons.inj hrows
        left
        change was = false at hbefore
        rw [hon,hbefore]
        exact List.mem_singleton_self _
      | cons b before =>
        obtain ⟨rfl,rfl⟩ := List.cons.inj hrows
        right
        refine ⟨before,first,rest,rfl,hon,?_,rfl⟩
        rw [List.getLast?_cons] at hbefore
        cases hb : before.getLast? <;> simp_all

/-- The runs are the maximal runs of the rows that are on. -/
theorem mem_runs {rows : List α} {p : Stretch} :
    p ∈ runs on time rows ↔ MaximalRun on time rows p := by
  unfold runs MaximalRun
  rw [mem_runsFrom]
  constructor
  · rintro ⟨before,first,rest,rfl,hon,hbefore,rfl⟩
    refine ⟨before,first,rest.takeWhile on,rest.dropWhile on,?_,?_,?_,?_,?_⟩
    · rw [List.cons_append,List.takeWhile_append_dropWhile]
    · intro a ha
      rcases List.mem_cons.mp ha with rfl | ha
      · exact hon
      · exact List.mem_takeWhile_imp ha
    · intro a ha
      rw [Option.mem_def.mp ha] at hbefore
      exact hbefore
    · intro a ha
      have := List.head?_dropWhile_not on rest
      rw [Option.mem_def.mp ha] at this
      simpa using this
    · rw [List.find?_eq_head?_dropWhile_not]
      simp only [Bool.not_not]
  · rintro ⟨before,first,run,after,rfl,hon,hbefore,hafter,rfl⟩
    refine ⟨before,first,run ++ after,by simp,hon first List.mem_cons_self,?_,?_⟩
    · cases hb : before.getLast? with
      | none => rfl
      | some a => exact hbefore a hb
    · have hrun : run.find? (fun b => !on b) = none := by
        refine List.find?_eq_none.mpr ?_
        intro a ha
        rw [hon a (List.mem_cons_of_mem _ ha)]
        simp
      rw [List.find?_append,hrun,Option.none_or]
      cases after with
      | nil => rfl
      | cons a after =>
        rw [List.find?_cons_of_pos (by rw [hafter a rfl]; rfl)]
        rfl

/-- Stretches in order, each over before the next begins, none without duration. -/
def Ordered (stretches : List Stretch) : Prop :=
  stretches.Pairwise (fun a b => ∃ ended, a.2 = some ended ∧ ended < b.1) ∧
  ∀ p ∈ stretches, ∀ ended, p.2 = some ended → p.1 < ended

theorem Ordered.starts {stretches : List Stretch} (h : Ordered stretches) :
    stretches.Pairwise (fun a b => a.1 < b.1) := by
  refine h.1.imp_of_mem ?_
  rintro a b ha _ ⟨ended,hended,hlt⟩
  exact Int.lt_trans (h.2 a ha ended hended) hlt

theorem runs_times {rows : List α} {p : Stretch} (h : p ∈ runs on time rows) :
    (∃ a ∈ rows, p.1 = time a) ∧ ∀ ended, p.2 = some ended → ∃ a ∈ rows, ended = time a := by
  obtain ⟨before,first,run,after,rfl,_,_,_,rfl⟩ := mem_runs.mp h
  refine ⟨⟨first,by simp,rfl⟩,?_⟩
  intro ended he
  obtain ⟨a,ha,rfl⟩ := Option.map_eq_some_iff.mp he
  exact ⟨a,by simp [List.mem_of_head? ha],rfl⟩

variable (on) in
/-- The runs of rows in the order of distinct times are ordered. -/
theorem runs_ordered {rows : List α} (h : rows.Pairwise (fun a b => time a < time b)) :
    Ordered (runs on time rows) := by
  constructor
  · induction rows using List.reverseRecOn with
    | nil => exact List.Pairwise.nil
    | append_singleton rows a ih =>
      obtain ⟨hrows,_,hlt⟩ := List.pairwise_append.mp h
      rw [runs_snoc]
      refine List.pairwise_append.mpr ⟨?_,?_,?_⟩
      · rw [List.pairwise_map]
        refine (ih hrows).imp ?_
        rintro p q ⟨ended,hp,hq⟩
        exact ⟨ended,by simp [closeAt,hp],hq⟩
      · split
        · exact List.pairwise_singleton _ _
        · exact List.Pairwise.nil
      · intro p hp q hq
        split at hq
        · rename_i hc
          rw [Bool.and_eq_true,Bool.not_eq_true'] at hc
          rw [hc.1,if_pos rfl,map_closeAt_none] at hp
          rw [List.mem_singleton.mp hq]
          obtain ⟨ended,current,hruns,hended,hcurrent⟩ := runs_ended on time rows
          rcases hcurrent with ⟨_,rfl⟩ | ⟨hon,_⟩
          · have hmem := hp
            rw [hruns,List.append_nil] at hmem
            obtain ⟨t,ht⟩ := Option.isSome_iff_exists.mp (hended p hmem)
            obtain ⟨b,hb,rfl⟩ := (runs_times hp).2 t ht
            exact ⟨_,ht,hlt b hb a List.mem_cons_self⟩
          · rw [hc.2] at hon
            cases hon
        · cases hq
  · intro p hp ended he
    obtain ⟨before,first,run,after,rfl,_,_,_,rfl⟩ := mem_runs.mp hp
    obtain ⟨a,ha,rfl⟩ := Option.map_eq_some_iff.mp he
    have hafter := (List.pairwise_append.mp h).2.1
    rw [List.cons_append] at hafter
    exact (List.pairwise_cons.mp hafter).1 a (List.mem_append_right _ (List.mem_of_head? ha))

end Runs

section Islands
variable {α : Type} (status : α → Truth) (time : α → Int)

/-- `IF(status AND NOT was, 1, 0)`. -/
def begins (p : α × Truth) : Nat := if holds (truthAnd (status p.1) (truthNot p.2)) then 1 else 0

/-- Each row with `LAG(status, 1, FALSE)`. -/
def marked (rows : List α) : List (α × Truth) := overRows (lag status (some false)) rows

/-- Each row with the running `SUM` of the beginnings. -/
def numbered (rows : List α) : List (α × Nat) :=
  (overRows (sum (begins status)) (marked status rows)).map (fun p => (p.1.1,p.2))

/-- `GROUP BY` the number of the rows from the first beginning on. -/
def islands (rows : List α) : List (Nat × List (α × Nat)) :=
  groupBy Prod.snd ((numbered status rows).filter (fun p => 0 < p.2))

/-- `MIN(IF(status, time, NULL))`. -/
def minOn (rows : List α) : Option Int :=
  (rows.filterMap (fun a => if holds (status a) then some (time a) else none)).min?

/-- `MIN(IF(NOT status, time, NULL))`. -/
def minOff (rows : List α) : Option Int :=
  (rows.filterMap (fun a => if holds (truthNot (status a)) then some (time a) else none)).min?

def islandEnds (g : Nat × List (α × Nat)) : Option Int × Option Int :=
  (minOn status time (g.2.map Prod.fst),minOff status time (g.2.map Prod.fst))

/-- The runs of rows with a known status. -/
abbrev statusRuns (rows : List α) : List Stretch := runs (fun a => holds (status a)) time rows

/-- The groups of the numbered rows are the runs. -/
structure Tallied (rows : List α) : Prop where
  last : (rows.getLast?.map status).getD (some false) =
    some (lastOn (fun a => holds (status a)) rows)
  count : sum (begins status) (marked status rows) = (statusRuns status time rows).length
  keys : (islands status rows).map Prod.fst = List.range' 1 (statusRuns status time rows).length
  pairs : (islands status rows).map (islandEnds status time) =
    (statusRuns status time rows).map (fun p => (some p.1,p.2))
  members : ∀ g ∈ islands status rows, ∀ p ∈ g.2, p.1 ∈ rows

variable {status time} {rows : List α} {a : α} {b : Bool}

theorem minOn_snoc (hb : status a = some b) (h : ∀ d ∈ rows, time d ≤ time a) :
    minOn status time (rows ++ [a]) =
      if b then (minOn status time rows).or (some (time a)) else minOn status time rows := by
  unfold minOn
  rw [List.filterMap_append]
  cases b with
  | false => simp [hb]
  | true =>
    simp only [List.filterMap_cons,hb,holds_some,if_true,List.filterMap_nil]
    refine min_snoc ?_
    intro v hv
    obtain ⟨d,hd,hv⟩ := List.mem_filterMap.mp hv
    split at hv
    · cases hv
      exact h d hd
    · cases hv

theorem minOff_snoc (hb : status a = some b) (h : ∀ d ∈ rows, time d ≤ time a) :
    minOff status time (rows ++ [a]) =
      if b then minOff status time rows else (minOff status time rows).or (some (time a)) := by
  unfold minOff
  rw [List.filterMap_append]
  cases b with
  | true => simp [hb]
  | false =>
    simp only [List.filterMap_cons,hb,truthNot_some,Bool.not_false,holds_some,if_true,
      List.filterMap_nil,Bool.false_eq_true,if_false]
    refine min_snoc ?_
    intro v hv
    obtain ⟨d,hd,hv⟩ := List.mem_filterMap.mp hv
    split at hv
    · cases hv
      exact h d hd
    · cases hv

theorem marked_snoc (h : Tallied status time rows) :
    marked status (rows ++ [a]) =
      marked status rows ++ [(a,some (lastOn (fun a => holds (status a)) rows))] := by
  unfold marked
  rw [over_snoc,lag_snoc,h.last]

theorem begins_eq (hb : status a = some b) (was : Bool) :
    begins status (a,some was) = if b && !was then 1 else 0 := by
  unfold begins
  rw [hb,truthNot_some,truthAnd_some,holds_some]

/-- The number of the next row. -/
theorem Tallied.count_snoc (h : Tallied status time rows) (hb : status a = some b) :
    sum (begins status) (marked status (rows ++ [a])) =
      (statusRuns status time (rows ++ [a])).length := by
  unfold statusRuns
  rw [marked_snoc h,sum_snoc,h.count,begins_eq hb,runs_snoc,hb,holds_some,List.length_append,
    List.length_map]
  split <;> rfl

theorem islands_snoc (h : Tallied status time rows) (hb : status a = some b) :
    islands status (rows ++ [a]) =
      if 0 < (statusRuns status time (rows ++ [a])).length then
        insertGroup (statusRuns status time (rows ++ [a])).length
          (a,(statusRuns status time (rows ++ [a])).length) (islands status rows)
      else islands status rows := by
  have hcount := h.count_snoc hb
  have hnumbered : numbered status (rows ++ [a]) =
      numbered status rows ++ [(a,(statusRuns status time (rows ++ [a])).length)] := by
    unfold numbered
    rw [← hcount,marked_snoc h,over_snoc,List.map_append]
    rfl
  unfold islands
  rw [hnumbered,List.filter_append]
  split
  · rename_i hn
    rw [List.filter_cons_of_pos (by simpa using hn),List.filter_nil,groupBy_snoc]
  · rename_i hn
    rw [List.filter_cons_of_neg (by simpa using hn),List.filter_nil,List.append_nil]

theorem not_mem_range {n : Nat} {groups : List (Nat × List (α × Nat))}
    (h : groups.map Prod.fst = List.range' 1 n) : n + 1 ∉ groups.map Prod.fst := by
  rw [h,List.mem_range'_1]
  omega

/-- The last group is that of the current number. -/
theorem Tallied.lastGroup (h : Tallied status time rows) {n : Nat}
    (hn : (statusRuns status time rows).length = n + 1) :
    ∃ groups members, islands status rows = groups ++ [(n + 1,members)] ∧
      groups.map Prod.fst = List.range' 1 n := by
  have hkeys := h.keys
  rw [hn,List.range'_1_concat] at hkeys
  rcases List.eq_nil_or_concat (islands status rows) with hnil | ⟨groups,g,hg⟩
  · rw [hnil] at hkeys
    simp at hkeys
  · rw [List.concat_eq_append] at hg
    rw [hg,List.map_append,List.map_singleton] at hkeys
    obtain ⟨hgs,hk⟩ := List.append_inj' hkeys rfl
    obtain ⟨k,members⟩ := g
    simp only [List.cons.injEq,and_true] at hk
    exact ⟨groups,members,by rw [hg,hk,Nat.add_comm],hgs⟩

theorem Tallied.last_snoc (hb : status a = some b) :
    ((rows ++ [a]).getLast?.map status).getD (some false) =
      some (lastOn (fun a => holds (status a)) (rows ++ [a])) := by
  rw [List.getLast?_concat,Option.map_some,Option.getD_some,lastOn_snoc,hb,holds_some]

/-- The first row of a run opens a group of its own. -/
theorem Tallied.begin (h : Tallied status time rows) (hb : status a = some true)
    (hoff : lastOn (fun a => holds (status a)) rows = false) :
    Tallied status time (rows ++ [a]) := by
  have hruns : statusRuns status time (rows ++ [a]) =
      statusRuns status time rows ++ [(time a,none)] := by
    unfold statusRuns
    rw [runs_snoc,hb,holds_some,hoff,if_pos rfl,map_closeAt_none]
    rfl
  have hislands : islands status (rows ++ [a]) = islands status rows ++
      [((statusRuns status time rows).length + 1,[(a,(statusRuns status time rows).length + 1)])] := by
    rw [islands_snoc h hb,hruns,List.length_append,List.length_singleton,
      if_pos (Nat.succ_pos _),insertGroup_new (not_mem_range h.keys)]
  refine ⟨Tallied.last_snoc hb,h.count_snoc hb,?_,?_,?_⟩
  · rw [hislands,hruns,List.map_append,h.keys,List.length_append,List.length_singleton,
      List.range'_1_concat,Nat.add_comm 1]
    rfl
  · rw [hislands,hruns,List.map_append,List.map_append,h.pairs]
    simp [islandEnds,minOn,minOff,hb]
  · intro g hm p hp
    rw [hislands] at hm
    rcases List.mem_append.mp hm with hm | hm
    · exact List.mem_append_left _ (h.members g hm p hp)
    · rw [List.mem_singleton.mp hm] at hp
      rw [List.mem_singleton.mp hp]
      simp

/-- Any other row joins the last group, if there is one, and ends its run if it is off. -/
theorem Tallied.extend (h : Tallied status time rows) (hb : status a = some b)
    (hle : ∀ d ∈ rows, time d ≤ time a)
    (hsame : (b && !lastOn (fun a => holds (status a)) rows) = false) :
    Tallied status time (rows ++ [a]) := by
  have hruns : statusRuns status time (rows ++ [a]) =
      (statusRuns status time rows).map (closeAt (if b then none else some (time a))) := by
    unfold statusRuns
    rw [runs_snoc,hb,holds_some,hsame]
    exact List.append_nil _
  have hlen : (statusRuns status time (rows ++ [a])).length =
      (statusRuns status time rows).length := by
    rw [hruns,List.length_map]
  rcases List.eq_nil_or_concat (statusRuns status time rows) with hnil | ⟨before,last,hlast⟩
  · -- before the first run, the row has number 0
    have hislands : islands status (rows ++ [a]) = islands status rows := by
      rw [islands_snoc h hb,hlen,hnil]
      rfl
    have hnone : statusRuns status time (rows ++ [a]) = statusRuns status time rows := by
      rw [hruns,hnil]
      rfl
    refine ⟨Tallied.last_snoc hb,h.count_snoc hb,?_,?_,?_⟩
    · rw [hislands,hnone,h.keys]
    · rw [hislands,hnone,h.pairs]
    · intro g hm p hp
      rw [hislands] at hm
      exact List.mem_append_left _ (h.members g hm p hp)
  · rw [List.concat_eq_append] at hlast
    have hn : (statusRuns status time rows).length = before.length + 1 := by
      rw [hlast]
      simp
    obtain ⟨groups,members,hg,hkeys⟩ := h.lastGroup hn
    have hislands : islands status (rows ++ [a]) =
        groups ++ [(before.length + 1,members ++ [(a,before.length + 1)])] := by
      rw [islands_snoc h hb,hlen,hn,if_pos (Nat.succ_pos _),hg,
        insertGroup_last (not_mem_range hkeys)]
    have hpairs := h.pairs
    rw [hg,hlast,List.map_append,List.map_append,List.map_singleton,List.map_singleton] at hpairs
    obtain ⟨hbefore,hends⟩ := List.append_inj' hpairs rfl
    simp only [islandEnds,List.cons.injEq,Prod.mk.injEq,and_true] at hends
    have hearlier : ∀ d ∈ members.map Prod.fst, time d ≤ time a := by
      intro d hd
      obtain ⟨p,hp,rfl⟩ := List.mem_map.mp hd
      exact hle _ (h.members (before.length + 1,members) (by rw [hg]; simp) p hp)
    have hended : before.map (closeAt (if b then none else some (time a))) = before := by
      obtain ⟨ended,current,hsplit,hended,hcurrent⟩ :=
        runs_ended (fun a => holds (status a)) time rows
      refine map_closeAt_ended ?_ _
      intro p hp
      change statusRuns status time rows = _ at hsplit
      rw [hlast] at hsplit
      rcases hcurrent with ⟨_,rfl⟩ | ⟨_,t,rfl⟩
      · rw [List.append_nil] at hsplit
        exact hended p (hsplit ▸ List.mem_append_left _ hp)
      · obtain ⟨rfl,_⟩ := List.append_inj' hsplit rfl
        exact hended p hp
    refine ⟨Tallied.last_snoc hb,h.count_snoc hb,?_,?_,?_⟩
    · rw [hislands,hlen,hn,List.map_append,hkeys,List.range'_1_concat,Nat.add_comm 1]
      rfl
    · rw [hislands,hruns,hlast,List.map_append,List.map_append,List.map_append,hbefore,hended]
      simp only [islandEnds,List.map_append,List.map_cons,List.map_nil,minOn_snoc hb hearlier,
        minOff_snoc hb hearlier,hends.1,hends.2,closeAt]
      cases b with
      | true => simp
      | false => rfl
    · intro g hm p hp
      rw [hislands] at hm
      rcases List.mem_append.mp hm with hm | hm
      · exact List.mem_append_left _ (h.members g (by rw [hg]; exact List.mem_append_left _ hm) p hp)
      · rw [List.mem_singleton.mp hm] at hp
        rcases List.mem_append.mp hp with hp | hp
        · exact List.mem_append_left _ (h.members (before.length + 1,members) (by rw [hg]; simp) p hp)
        · rw [List.mem_singleton.mp hp]
          simp

/-- In time order, the numbered groups of rows with a known status are their runs. -/
theorem tallied_rows (h : rows.Pairwise (fun a b => time a ≤ time b))
    (hknown : ∀ a ∈ rows, (status a).isSome = true) : Tallied status time rows := by
  induction rows using List.reverseRecOn with
  | nil =>
    refine ⟨rfl,rfl,rfl,rfl,?_⟩
    intro g hg
    cases hg
  | append_singleton rows a ih =>
    obtain ⟨hrows,_,hle⟩ := List.pairwise_append.mp h
    have htallied := ih hrows (fun d hd => hknown d (List.mem_append_left _ hd))
    obtain ⟨b,hb⟩ := Option.isSome_iff_exists.mp (hknown a (by simp))
    have hearlier : ∀ d ∈ rows, time d ≤ time a := fun d hd => hle d hd a List.mem_cons_self
    cases hnew : b && !lastOn (fun a => holds (status a)) rows with
    | false => exact htallied.extend hb hearlier hnew
    | true =>
      rw [Bool.and_eq_true,Bool.not_eq_true'] at hnew
      rw [hnew.1] at hb
      exact htallied.begin hb hnew.2

/-- Rows made of the groups, one for each group with a beginning, are the runs. -/
theorem islands_segments {σ : Type} {segment : Nat → List α → Option σ} (ends : σ → Stretch)
    (hsegment : ∀ n members, (segment n members).map ends =
      (minOn status time members).map (fun t => (t,minOff status time members)))
    (h : rows.Pairwise (fun a b => time a ≤ time b))
    (hknown : ∀ a ∈ rows, (status a).isSome = true) :
    ((islands status rows).filterMap (fun g => segment g.1 (g.2.map Prod.fst))).map ends =
      statusRuns status time rows := by
  have hpairs := (tallied_rows h hknown).pairs
  rw [List.map_filterMap]
  simp only [hsegment]
  generalize islands status rows = groups at hpairs ⊢
  generalize statusRuns status time rows = stretches at hpairs ⊢
  induction groups generalizing stretches with
  | nil => exact (List.map_eq_nil_iff.mp hpairs.symm).symm
  | cons g groups ih =>
    cases stretches with
    | nil => simp at hpairs
    | cons p stretches =>
      simp only [List.map_cons,List.cons.injEq,islandEnds,Prod.mk.injEq] at hpairs
      obtain ⟨⟨hon,hoff⟩,hrest⟩ := hpairs
      rw [List.filterMap_cons,hon,hoff,Option.map_some,ih stretches hrest]

end Islands

end Woodhouse.Sql
