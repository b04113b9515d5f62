import Mathlib.Data.List.SplitBy
import Mathlib.Data.List.TakeWhile
import Woodhouse.Sql.Window

namespace Woodhouse.Sql

section Runs
variable {α σ : Type} (state : α → σ)

/-- A division of rows into stretches of one state, each as long as it can be. -/
structure MaximalRuns (rows : List α) (stretches : List (List α)) : Prop where
  whole : stretches.flatten = rows
  nonempty : [] ∉ stretches
  constant : ∀ run ∈ stretches, ∀ a ∈ run, ∀ b ∈ run, state a = state b
  maximal : stretches.IsChain (fun run next => ∀ a ∈ run, ∀ b ∈ next, state a ≠ state b)

variable [DecidableEq σ]

/-- The stretches of neighbouring rows in one state. -/
def stateRuns (rows : List α) : List (List α) :=
  rows.splitBy (fun a b => decide (state a = state b))

variable {state} {rows : List α} {stretches : List (List α)} {a b : α}

omit [DecidableEq σ] in
theorem constant_of_isChain {run : List α} (h : run.IsChain (fun a b => state a = state b)) :
    ∀ a ∈ run, ∀ b ∈ run, state a = state b := by
  have htrans : IsTrans α (fun a b => state a = state b) := ⟨fun _ _ _ hab hbc => hab.trans hbc⟩
  have hpair := List.isChain_iff_pairwise.mp h
  intro a ha b hb
  have hsymm : Std.Symm (fun a b => state a = state b) := ⟨fun _ _ heq => heq.symm⟩
  by_cases hab : a = b
  · rw [hab]
  · exact hpair.forall ha hb hab

/-- There is one such division only. -/
theorem maximalRuns_iff : MaximalRuns state rows stretches ↔ stateRuns state rows = stretches := by
  unfold stateRuns
  rw [List.splitBy_eq_iff]
  constructor
  · intro h
    refine ⟨h.whole.symm,h.nonempty,?_,?_⟩
    · intro run hrun
      refine List.Pairwise.isChain (List.pairwise_of_forall_mem_list ?_)
      intro a ha b hb
      exact decide_eq_true (h.constant run hrun a ha b hb)
    · refine h.maximal.imp_of_mem_imp ?_
      intro run next hrun hnext hne
      have hr : run ≠ [] := fun heq => h.nonempty (heq ▸ hrun)
      have hn : next ≠ [] := fun heq => h.nonempty (heq ▸ hnext)
      exact ⟨hr,hn,decide_eq_false (hne _ (List.getLast_mem hr) _ (List.head_mem hn))⟩
  · rintro ⟨hwhole,hnonempty,hconstant,hmaximal⟩
    have hsame : ∀ run ∈ stretches, ∀ a ∈ run, ∀ b ∈ run, state a = state b := by
      intro run hrun
      refine constant_of_isChain ((hconstant run hrun).imp ?_)
      intro a b hab
      exact of_decide_eq_true hab
    refine ⟨hwhole.symm,hnonempty,hsame,hmaximal.imp_of_mem_imp ?_⟩
    intro run next hrun hnext hne a ha b hb heq
    obtain ⟨hr,hn,hlast⟩ := hne
    refine of_decide_eq_false hlast ?_
    rw [hsame run hrun _ (List.getLast_mem hr) a ha,heq,
      hsame next hnext b hb _ (List.head_mem hn)]

theorem stateRuns_maximal (state : α → σ) (rows : List α) :
    MaximalRuns state rows (stateRuns state rows) := maximalRuns_iff.mpr rfl

omit [DecidableEq σ] in
theorem MaximalRuns.map {β : Type} {point : α → β} {state : β → σ}
    (h : MaximalRuns (fun a => state (point a)) rows stretches) :
    MaximalRuns state (rows.map point) (stretches.map (List.map point)) := by
  refine ⟨?_,?_,?_,?_⟩
  · rw [← h.whole,List.map_flatten]
  · intro hmem
    obtain ⟨run,hrun,hempty⟩ := List.mem_map.mp hmem
    exact h.nonempty (List.map_eq_nil_iff.mp hempty ▸ hrun)
  · intro run hrun b hb c hc
    obtain ⟨run',hrun',rfl⟩ := List.mem_map.mp hrun
    obtain ⟨b',hb',rfl⟩ := List.mem_map.mp hb
    obtain ⟨c',hc',rfl⟩ := List.mem_map.mp hc
    exact h.constant run' hrun' b' hb' c' hc'
  · refine (List.isChain_map _).mpr (h.maximal.imp ?_)
    intro run next hne b hb c hc
    obtain ⟨b',hb',rfl⟩ := List.mem_map.mp hb
    obtain ⟨c',hc',rfl⟩ := List.mem_map.mp hc
    exact hne b' hb' c' hc'

/-- What tells states apart has the same runs. -/
theorem stateRuns_injective {τ : Type} [DecidableEq τ] {f : σ → τ} (hf : Function.Injective f) :
    stateRuns (fun a => f (state a)) rows = stateRuns state rows := by
  unfold stateRuns
  simp only [hf.eq_iff]

/-- A row in the state of the row before it makes the last run longer. -/
theorem stateRuns_extend (hlast : rows.getLast? = some b) (h : state b = state a) :
    ∃ front run, stateRuns state rows = front ++ [run] ∧
      stateRuns state (rows ++ [a]) = front ++ [run ++ [a]] := by
  have hruns := stateRuns_maximal state rows
  have hne : stateRuns state rows ≠ [] := by
    intro heq
    rw [← hruns.whole,heq] at hlast
    cases hlast
  obtain ⟨front,run,hsplit⟩ := (List.eq_nil_or_concat' _).resolve_left hne
  refine ⟨front,run,hsplit,?_⟩
  rw [hsplit] at hruns
  have hrun : run ≠ [] := fun heq => hruns.nonempty (heq ▸ by simp)
  have hb : b ∈ run := by
    rw [← hruns.whole,List.flatten_append,List.flatten_singleton,
      List.getLast?_append_of_ne_nil _ hrun] at hlast
    exact List.mem_of_getLast? hlast
  have hall : ∀ c ∈ run ++ [a], state c = state b := by
    intro c hc
    rcases List.mem_append.mp hc with hc | hc
    · exact hruns.constant run (by simp) c hc b hb
    · rw [List.mem_singleton.mp hc,h]
  refine maximalRuns_iff.mp ⟨?_,?_,?_,?_⟩
  · rw [← hruns.whole]
    simp
  · intro hmem
    rcases List.mem_append.mp hmem with hmem | hmem
    · exact hruns.nonempty (List.mem_append_left _ hmem)
    · simp at hmem
  · intro run' hrun' c hc d hd
    rcases List.mem_append.mp hrun' with hfront | heq
    · exact hruns.constant run' (List.mem_append_left _ hfront) c hc d hd
    · rw [List.mem_singleton.mp heq] at hc hd
      rw [hall c hc,hall d hd]
  · obtain ⟨hfront,_,hcross⟩ := List.isChain_append.mp hruns.maximal
    refine List.isChain_append.mpr ⟨hfront,List.isChain_singleton _,?_⟩
    intro run' hrun' next hnext c hc d hd
    rw [List.head?_singleton,Option.mem_some_iff] at hnext
    rw [← hnext] at hd
    rw [hall d hd]
    exact hcross run' hrun' run (by simp) c hc b hb

/-- A row in another state begins a run. -/
theorem stateRuns_begin (h : ∀ b ∈ rows.getLast?, state b ≠ state a) :
    stateRuns state (rows ++ [a]) = stateRuns state rows ++ [[a]] := by
  unfold stateRuns
  rw [List.splitBy_append_cons []]
  · rfl
  · intro b hb
    exact decide_eq_false (h b hb)

theorem head_of_stateRuns {run : List α} (h : run ∈ stateRuns state rows) :
    ∃ c ∈ rows, run.head? = some c := by
  have hruns := stateRuns_maximal state rows
  cases run with
  | nil => exact absurd h hruns.nonempty
  | cons c rest =>
    refine ⟨c,?_,rfl⟩
    rw [← hruns.whole]
    exact List.mem_flatten.mpr ⟨_,h,List.mem_cons_self⟩

/-- Where what holds of a state goes on to hold, the runs in which it holds are those of the rows
from the first one on in which it does. -/
theorem stateRuns_dropWhile {p : σ → Bool}
    (h : rows.Pairwise (fun a b => p (state a) = true → p (state b) = true)) :
    (stateRuns state rows).filter (fun run => run.head?.any (fun a => p (state a))) =
      stateRuns state (rows.dropWhile (fun a => !p (state a))) := by
  have hfront : ∀ a ∈ rows.takeWhile (fun a => !p (state a)), p (state a) = false := by
    intro a ha
    simpa using List.mem_takeWhile_imp ha
  have hback : ∀ a ∈ rows.dropWhile (fun a => !p (state a)), p (state a) = true := by
    have hsplit := List.takeWhile_append_dropWhile (p := fun a => !p (state a)) (l := rows)
    rw [← hsplit] at h
    have hpair := (List.pairwise_append.mp h).2.1
    cases hd : rows.dropWhile (fun a => !p (state a)) with
    | nil => simp
    | cons c rest =>
      have hc : p (state c) = true := by
        have hhead := List.head_dropWhile_not (fun a => !p (state a)) (by rw [hd]; simp)
        simpa [hd] using hhead
      rw [hd] at hpair
      intro a ha
      rcases List.mem_cons.mp ha with rfl | ha
      · exact hc
      · exact (List.pairwise_cons.mp hpair).1 a ha hc
  have hsplit : stateRuns state rows = stateRuns state (rows.takeWhile (fun a => !p (state a))) ++
      stateRuns state (rows.dropWhile (fun a => !p (state a))) := by
    conv_lhs => rw [← List.takeWhile_append_dropWhile (p := fun a => !p (state a)) (l := rows)]
    refine List.splitBy_append ?_
    intro a ha b hb
    refine decide_eq_false ?_
    intro heq
    have hfalse := hfront a (List.mem_of_getLast? ha)
    rw [heq,hback b (List.mem_of_head? hb)] at hfalse
    cases hfalse
  rw [hsplit,List.filter_append]
  have hnone : (stateRuns state (rows.takeWhile (fun a => !p (state a)))).filter
      (fun run => run.head?.any (fun a => p (state a))) = [] := by
    refine List.filter_eq_nil_iff.mpr ?_
    intro run hrun
    obtain ⟨c,hc,hhead⟩ := head_of_stateRuns hrun
    rw [hhead,Option.any_some,hfront c hc]
    simp
  have hall : (stateRuns state (rows.dropWhile (fun a => !p (state a)))).filter
      (fun run => run.head?.any (fun a => p (state a))) =
        stateRuns state (rows.dropWhile (fun a => !p (state a))) := by
    refine List.filter_eq_self.mpr ?_
    intro run hrun
    obtain ⟨c,hc,hhead⟩ := head_of_stateRuns hrun
    rw [hhead,Option.any_some,hback c hc]
  rw [hnone,hall,List.nil_append]

end Runs

section Changes
variable {α σ : Type} [DecidableEq σ] (state : α → σ)

/-- `IF(LAG(state) OVER … IS DISTINCT FROM state, 1, 0)` at the last row of a frame. -/
def beginsRun (frame : List α) : Nat :=
  if lag (fun a => some (state a)) none frame = frame.getLast?.map state then 0 else 1

/-- The rows with the running sum of the changes before them. -/
def changeNumbers (rows : List α) : List (α × Nat) :=
  (overRows (sum Prod.snd) (overRows (beginsRun state) rows)).map (fun p => (p.1.1,p.2))

/-- The runs under the numbers from one on. -/
def numberedRuns (stretches : List (List α)) : List (Nat × List (α × Nat)) :=
  (stretches.zipIdx 1).map (fun p => (p.2,p.1.map (fun a => (a,p.2))))

variable {state} {rows : List α} {a : α}

theorem beginsRun_snoc : beginsRun state (rows ++ [a]) =
    if rows.getLast?.map state = some (state a) then 0 else 1 := by
  unfold beginsRun
  rw [lag_snoc,List.getLast?_concat]
  cases rows.getLast? <;> rfl

theorem changeNumbers_snoc : changeNumbers state (rows ++ [a]) = changeNumbers state rows ++
    [(a,sum Prod.snd (overRows (beginsRun state) rows) +
      if rows.getLast?.map state = some (state a) then 0 else 1)] := by
  unfold changeNumbers
  rw [over_snoc,over_snoc,sum_snoc,List.map_append,beginsRun_snoc]
  rfl

theorem numberedRuns_snoc (front : List (List α)) (run : List α) :
    numberedRuns (front ++ [run]) =
      numberedRuns front ++ [(front.length + 1,run.map (fun a => (a,front.length + 1)))] := by
  unfold numberedRuns
  rw [List.zipIdx_append,List.map_append,Nat.add_comm]
  rfl

theorem not_mem_numberedRuns {front : List (List α)} {n : Nat} (h : front.length < n) :
    n ∉ (numberedRuns front).map Prod.fst := by
  intro hmem
  obtain ⟨p,hp,rfl⟩ := List.mem_map.mp hmem
  obtain ⟨q,hq,rfl⟩ := List.mem_map.mp hp
  have hlt := List.snd_lt_add_of_mem_zipIdx hq
  simp only at h
  omega

/-- The running sum of the changes tells the runs apart. -/
theorem changes_runs (state : α → σ) (rows : List α) :
    sum Prod.snd (overRows (beginsRun state) rows) = (stateRuns state rows).length ∧
      groupBy Prod.snd (changeNumbers state rows) = numberedRuns (stateRuns state rows) := by
  induction rows using List.reverseRecOn with
  | nil => exact ⟨rfl,rfl⟩
  | append_singleton rows a ih =>
    obtain ⟨hsum,hgroups⟩ := ih
    rw [over_snoc,sum_snoc,changeNumbers_snoc,groupBy_snoc,beginsRun_snoc,hsum,hgroups]
    by_cases hsame : rows.getLast?.map state = some (state a)
    · obtain ⟨b,hlast,hstate⟩ := Option.map_eq_some_iff.mp hsame
      obtain ⟨front,run,hbefore,hafter⟩ := stateRuns_extend hlast hstate
      rw [if_pos hsame,hbefore,hafter,numberedRuns_snoc,numberedRuns_snoc]
      refine ⟨by simp,?_⟩
      rw [List.length_append,List.length_singleton,Nat.add_zero,
        insertGroup_last (not_mem_numberedRuns (Nat.lt_succ_self _)),List.map_append]
      rfl
    · have hbegin : ∀ b ∈ rows.getLast?, state b ≠ state a := by
        intro b hb heq
        rw [Option.mem_def.mp hb] at hsame
        exact hsame (congrArg some heq)
      rw [if_neg hsame,stateRuns_begin hbegin,numberedRuns_snoc]
      refine ⟨by simp,?_⟩
      rw [insertGroup_new (not_mem_numberedRuns (Nat.lt_succ_self _))]
      rfl

/-- The groups of the running sum are the runs. -/
theorem groupBy_changes (state : α → σ) (rows : List α) :
    (groupBy Prod.snd (changeNumbers state rows)).map (fun g => g.2.map Prod.fst) =
      stateRuns state rows := by
  rw [(changes_runs state rows).2]
  unfold numberedRuns
  rw [List.map_map]
  have hrun : (fun g : Nat × List (α × Nat) => g.2.map Prod.fst) ∘
      (fun p : List α × Nat => (p.2,p.1.map (fun a => (a,p.2)))) = Prod.fst := by
    funext p
    simp [Function.comp_def]
  rw [hrun,List.zipIdx_map_fst]

end Changes

end Woodhouse.Sql
