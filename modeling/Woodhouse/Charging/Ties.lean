import Woodhouse.Charging.Refinement
import Woodhouse.Charging.Reports

namespace Woodhouse.Charging
open Sql

/-- The rows before those of a message in a window order. -/
def rowsBefore (k : Int ×ₗ String) (rows : List ChargeRow) : List ChargeRow :=
  rows.filter (fun r => r.windowKey < k)

/-- The rows that tie with each other: those of one message. -/
def messageRows (k : Int ×ₗ String) (rows : List ChargeRow) : List ChargeRow :=
  rows.filter (fun r => r.windowKey = k)

/-- No message reports two different values of one signal. -/
def Consistent (rows : List ChargeRow) : Prop :=
  ∀ row ∈ rows, Agreeing (messageRows row.windowKey rows)

/-- No message is torn in the state before it. -/
def NeverTorn (rows : List ChargeRow) : Prop :=
  ∀ row ∈ rows, ¬ Torn (scan viewStatus (rowsBefore row.windowKey rows)).reports
    (messageRows row.windowKey rows)

/-- Rows of one time come from one message. -/
def OneMessagePerTime (rows : List ChargeRow) : Prop :=
  ∀ a ∈ rows, ∀ b ∈ rows, a.sourceTimestamp = b.sourceTimestamp → a.windowKey = b.windowKey

/-- Every order of the table gives the same set of sessions. -/
def OrderFree (vehicleId : String) (table : List Observation) : Prop :=
  ∀ table' : List Observation, table'.Perm table → ∀ p,
    p ∈ chargeSessions vehicleId table' ↔ p ∈ chargeSessions vehicleId table

section Partition
variable {vehicleId : String} {table : List Observation}

theorem inOrder_of_windowKey {rows : List ChargeRow}
    (h : rows.Pairwise (fun a b => a.windowKey ≤ b.windowKey)) : InOrder rows := by
  refine h.imp ?_
  intro a b hab
  rcases Prod.Lex.le_iff.mp hab with hlt | ⟨heq,_⟩
  · exact Int.le_of_lt hlt
  · exact Int.le_of_eq heq

/-- Without any condition on the times, the view is a scan. -/
theorem chargeSessions_scan (vehicleId : String) (table : List Observation) :
    chargeSessions vehicleId table =
      ((partition vehicleId table).foldl reportStep {}).sessions.toList := by
  rw [← reports_scan]
  exact segments_scan (inOrder_of_windowKey (orderBy_pairwise ChargeRow.windowKey _))

theorem partition_perm {table' : List Observation} (h : table'.Perm table) :
    (partition vehicleId table').Perm (partition vehicleId table) :=
  (orderBy_perm _ _).trans (((h.filterMap _).filter _).trans (orderBy_perm _ _).symm)

/-- Each window order of the rows is the order of some table. -/
theorem partition_surjective {rows : List ChargeRow}
    (hperm : rows.Perm (partition vehicleId table))
    (hsorted : rows.Pairwise (fun a b => a.windowKey ≤ b.windowKey)) :
    ∃ table' : List Observation, table'.Perm table ∧ partition vehicleId table' = rows := by
  have hkept := (orderBy_perm _ _).symm.trans hperm.symm
  rw [List.filter_filterMap] at hkept
  obtain ⟨table',htable,hrows⟩ := perm_filterMap hkept
  refine ⟨table',htable,?_⟩
  unfold partition
  rw [List.filter_filterMap,hrows]
  exact orderBy_of_pairwise hsorted

end Partition

section Arrivals
variable {rows message : List ChargeRow} {s : ReportState} {t : Int}

theorem Arrival.mono {part : List ChargeRow} (h : Arrival s message t) (hpart : part ⊆ message) :
    Arrival s part t :=
  ⟨fun r hr => h.times r (hpart hr),
    fun a ha b hb => h.agree a (hpart ha) b (hpart hb),h.settled,h.coarse⟩

theorem Arrival.step (h : Arrival s message t) {row : ChargeRow} (hrow : row ∈ message) :
    Arrival (reportStep s row) message t := by
  refine ⟨h.times,h.agree,Settled.step s row,?_⟩
  intro charging at_ hc
  rcases Option.or_eq_some_iff.mp hc with hc | ⟨_,hc⟩
  · exact Int.le_of_eq ((report_time hc).trans (h.times row hrow))
  · exact h.coarse charging at_ hc

theorem Arrival.after (h : Arrival s message t) {part : List ChargeRow} (hpart : part ⊆ message) :
    Arrival (part.foldl reportStep s) message t := by
  induction part generalizing s with
  | nil => exact h
  | cons row part ih =>
    exact ih (h.step (hpart List.mem_cons_self)) (fun r hr => hpart (List.mem_cons_of_mem _ hr))

theorem coarse_time {charging : Bool} {at_ : Int}
    (h : (rows.foldl reportStep {}).coarse = some (charging,at_)) :
    ∃ r ∈ rows, at_ = r.sourceTimestamp := by
  induction rows using List.reverseRecOn with
  | nil => cases h
  | append_singleton rows row ih =>
    rw [List.foldl_append] at h
    rcases Option.or_eq_some_iff.mp h with h | ⟨_,h⟩
    · exact ⟨row,by simp,report_time h⟩
    · obtain ⟨r,hr,ht⟩ := ih h
      exact ⟨r,List.mem_append_left _ hr,ht⟩

/-- A message of a partition arrives at the state of the rows before it. -/
theorem arrival_message (hc : Consistent rows) {row : ChargeRow} (hrow : row ∈ rows) :
    Arrival ((rowsBefore row.windowKey rows).foldl reportStep {})
      (messageRows row.windowKey rows) row.sourceTimestamp := by
  refine ⟨?_,hc row hrow,?_,?_⟩
  · intro r hr
    have hkey := of_decide_eq_true (List.mem_filter.mp hr).2
    exact congrArg (fun k => (ofLex k).1) hkey
  · refine Settled.foldl ?_ _
    intro charging hs
    cases hs
  · intro charging at_ hcoarse
    obtain ⟨r,hr,rfl⟩ := coarse_time hcoarse
    have hlt := of_decide_eq_true (List.mem_filter.mp hr).2
    rcases Prod.Lex.lt_iff.mp hlt with hlt | ⟨heq,_⟩
    · exact Int.le_of_lt hlt
    · exact Int.le_of_eq heq

end Arrivals

section Sufficient
variable {rows rows' : List ChargeRow}

theorem rowsBefore_trans {j k : Int ×ₗ String} (h : j < k) (rows : List ChargeRow) :
    rowsBefore j (rowsBefore k rows) = rowsBefore j rows ∧
    messageRows j (rowsBefore k rows) = messageRows j rows := by
  unfold rowsBefore messageRows
  rw [List.filter_filter,List.filter_filter]
  constructor
  · refine List.filter_congr ?_
    intro r _
    rw [Bool.and_eq_left_iff_imp]
    intro hr
    exact decide_eq_true ((of_decide_eq_true hr).trans h)
  · refine List.filter_congr ?_
    intro r _
    rw [Bool.and_eq_left_iff_imp]
    intro hr
    exact decide_eq_true (of_decide_eq_true hr ▸ h)

/-- In window order, the rows up to the last message and those of that message. -/
theorem split_last (h : rows.Pairwise (fun a b => a.windowKey ≤ b.windowKey)) {k : Int ×ₗ String}
    (hlast : ∀ r ∈ rows, r.windowKey ≤ k) : rows = rowsBefore k rows ++ messageRows k rows := by
  have hsplit := split_key h k
  have hnone : rows.filter (fun r => k < r.windowKey) = [] := by
    refine List.filter_eq_nil_iff.mpr ?_
    intro r hr hlt
    exact absurd (of_decide_eq_true hlt) (not_lt.mpr (hlast r hr))
  rw [hnone,List.append_nil] at hsplit
  exact hsplit

/-- The reports after rows without torn messages do not depend on how ties are ordered. -/
theorem reports_perm (hsorted : rows.Pairwise (fun a b => a.windowKey ≤ b.windowKey))
    (hsorted' : rows'.Pairwise (fun a b => a.windowKey ≤ b.windowKey)) (hperm : rows'.Perm rows)
    (hc : Consistent rows) (hn : NeverTorn rows) :
    rows'.foldl reportStep {} = rows.foldl reportStep {} := by
  -- on the number of rows: the last message is taken off at once
  induction hlen : rows.length using Nat.strong_induction_on generalizing rows rows' with
  | h n ih =>
    rcases List.eq_nil_or_concat rows with rfl | ⟨front,last,hrows⟩
    · rw [hperm.eq_nil]
    · rw [List.concat_eq_append] at hrows
      have hmem : last ∈ rows := by
        rw [hrows]
        simp
      have hlast : ∀ r ∈ rows, r.windowKey ≤ last.windowKey := by
        intro r hr
        rw [hrows] at hr hsorted
        rcases List.mem_append.mp hr with hr | hr
        · exact (List.pairwise_append.mp hsorted).2.2 r hr last List.mem_cons_self
        · rw [List.mem_singleton.mp hr]
      have hsplit := split_last hsorted hlast
      have hsplit' := split_last hsorted' (fun r hr => hlast r (hperm.mem_iff.mp hr))
      have hshort : (rowsBefore last.windowKey rows).length < n := by
        rw [← hlen]
        exact List.length_filter_lt_length_iff_exists.mpr ⟨last,hmem,by simp⟩
      have hbefore : (rowsBefore last.windowKey rows').foldl reportStep {} =
          (rowsBefore last.windowKey rows).foldl reportStep {} := by
        refine ih _ hshort (hsorted.filter _) (hsorted'.filter _) (hperm.filter _) ?_ ?_ rfl
        · intro r hr
          obtain ⟨hr,hlt⟩ := List.mem_filter.mp hr
          rw [(rowsBefore_trans (of_decide_eq_true hlt) rows).2]
          exact hc r hr
        · intro r hr
          obtain ⟨hr,hlt⟩ := List.mem_filter.mp hr
          obtain ⟨hb,hm⟩ := rowsBefore_trans (of_decide_eq_true hlt) rows
          rw [hb,hm]
          exact hn r hr
      have harrival := arrival_message hc hmem
      have hnot := hn last hmem
      rw [reports_scan] at hnot
      rw [hsplit,hsplit',List.foldl_append,List.foldl_append,hbefore]
      exact harrival.perm hnot (hperm.filter _)

end Sufficient

section Necessary

theorem closed_next (s : Sessions) (t : Int) (status : Option Bool) :
    s.closed <+: (s.next t status).closed := by
  cases status with
  | none => exact List.prefix_refl _
  | some charging => exact closed_step s t charging

theorem mem_closed_next {s : Sessions} {t : Int} {status : Option Bool} {c : Int × Int}
    (h : c ∈ (s.next t status).closed) : c ∈ s.closed ∨ c.2 = t := by
  cases status with
  | none => exact .inl h
  | some charging =>
    unfold Sessions.next Sessions.step at h
    dsimp only at h
    split at h
    · exact .inl h
    · rcases List.mem_append.mp h with h | h
      · exact .inl h
      · rw [List.mem_singleton.mp h]
        exact .inr rfl
    · exact .inl h

theorem closed_reports (rows : List ChargeRow) (s : ReportState) :
    s.sessions.closed <+: (rows.foldl reportStep s).sessions.closed := by
  induction rows generalizing s with
  | nil => exact List.prefix_refl _
  | cons row rows ih =>
    rw [List.foldl_cons]
    exact (closed_next _ _ _).trans (ih (reportStep s row))

/-- A session ends at the time of a row. -/
theorem mem_closed_reports {rows : List ChargeRow} {s : ReportState} {c : Int × Int}
    (h : c ∈ (rows.foldl reportStep s).sessions.closed) :
    c ∈ s.sessions.closed ∨ ∃ r ∈ rows, c.2 = r.sourceTimestamp := by
  induction rows generalizing s with
  | nil => exact .inl h
  | cons row rows ih =>
    rcases ih h with h | ⟨r,hr,ht⟩
    · rcases mem_closed_next h with h | ht
      · exact .inl h
      · exact .inr ⟨row,List.mem_cons_self,ht⟩
    · exact .inr ⟨r,List.mem_cons_of_mem _ hr,ht⟩

theorem mem_toList_ended {s : Sessions} {x t : Int} : (x,some t) ∈ s.toList ↔ (x,t) ∈ s.closed := by
  unfold Sessions.toList
  simp

/-- A session that is ended and begun again, or begun and ended, leaves a trace. -/
theorem closed_flip {s : Sessions} {t : Int} {charging : Bool}
    (h : s.openedAt.isSome = charging) :
    ∃ x, (x,t) ∈ ((s.step t !charging).step t charging).closed := by
  obtain ⟨closed,openedAt⟩ := s
  cases openedAt with
  | none =>
    subst h
    exact ⟨t,by simp [Sessions.step]⟩
  | some o =>
    subst h
    exact ⟨o,by simp [Sessions.step]⟩

/-- The rows of a message with a coarse report. -/
def coarseRows (message : List ChargeRow) : List ChargeRow :=
  message.filter (fun r => (r.report .chargeState).isSome)

def otherRows (message : List ChargeRow) : List ChargeRow :=
  message.filter (fun r => !(r.report .chargeState).isSome)

variable {s : ReportState} {message : List ChargeRow} {t : Int}

theorem coarseRows_subset : coarseRows message ⊆ message := List.filter_sublist.subset

theorem otherRows_subset : otherRows message ⊆ message := List.filter_sublist.subset

theorem coarseRows_detailed {r : ChargeRow} (h : r ∈ coarseRows message) :
    r.report .detailedChargeState = none := by
  have hc := (List.mem_filter.mp h).2
  rcases report_detailed_or_coarse r with hd | hn
  · exact hd
  · rw [hn] at hc
    cases hc

theorem otherRows_coarse {r : ChargeRow} (h : r ∈ otherRows message) :
    r.report .chargeState = none := by
  have hc := (List.mem_filter.mp h).2
  simpa using hc

theorem coarseRows_not_torn (s : ReportState) : ¬ Torn s (coarseRows message) := by
  rintro ⟨d,hd,_,_,x,hx,_⟩
  rw [coarseRows_detailed hd] at hx
  cases hx

theorem otherRows_not_torn (s : ReportState) : ¬ Torn s (otherRows message) := by
  rintro ⟨_,_,c,hc,_,_,hsome,_⟩
  rw [otherRows_coarse hc] at hsome
  cases hsome

theorem Arrival.coarse_after (h : Arrival s message t) :
    (coarseRows message).foldl reportStep s = afterMessage s t (coarseRows message) :=
  (h.mono coarseRows_subset).foldl (coarseRows_not_torn s) (List.Subset.refl _)

theorem Arrival.others_after (h : Arrival s message t) :
    (otherRows message).foldl reportStep s = afterMessage s t (otherRows message) :=
  (h.mono otherRows_subset).foldl (otherRows_not_torn s) (List.Subset.refl _)

theorem lastValue_detailed (h : Arrival s message t) {d : ChargeRow} (hd : d ∈ message)
    {charging : Bool} (hx : d.report .detailedChargeState = some (charging,t)) :
    lastValue (ChargeRow.report .detailedChargeState) (otherRows message) =
      some (charging,t) := by
  have hmem : d ∈ otherRows message := by
    refine List.mem_filter.mpr ⟨hd,?_⟩
    rcases report_detailed_or_coarse d with hn | hn
    · rw [hn] at hx
      cases hx
    · rw [hn]
      rfl
  refine lastValue_of_mem hmem hx ?_
  intro b hb y hy
  exact h.agree b (List.mem_of_mem_filter hb) d hd _ y hy _ hx

theorem lastValue_coarse (h : Arrival s message t) {c : ChargeRow} (hc : c ∈ message)
    {y : Bool × Int} (hy : c.report .chargeState = some y) :
    lastValue (ChargeRow.report .chargeState) (coarseRows message) = some y := by
  have hmem : c ∈ coarseRows message := List.mem_filter.mpr ⟨hc,by rw [hy]; rfl⟩
  refine lastValue_of_mem hmem hy ?_
  intro b hb z hz
  exact h.agree b (List.mem_of_mem_filter hb) c hc _ z hz _ hy

/-- With its coarse rows first, a torn message leaves a session that ends at its time. -/
theorem Arrival.coarse_first (h : Arrival s message t) (ht : Torn s message) :
    ∃ x, (x,t) ∈
      ((coarseRows message ++ otherRows message).foldl reportStep s).sessions.closed := by
  obtain ⟨d,hd,c,hc,⟨charging,at_⟩,hx,hsome,hopen,hstatus⟩ := ht
  obtain ⟨⟨coarse,time⟩,hy⟩ := Option.isSome_iff_exists.mp hsome
  have htime := (report_time hx).trans (h.times d hd)
  have htime' := (report_time hy).trans (h.times c hc)
  subst htime
  subst htime'
  have hnone : lastValue (ChargeRow.report .detailedChargeState) (coarseRows message) = none :=
    lastValue_eq_none.mpr (fun r hr => coarseRows_detailed hr)
  have hnone' : lastValue (ChargeRow.report .chargeState) (otherRows message) = none :=
    lastValue_eq_none.mpr (fun r hr => otherRows_coarse hr)
  rw [hy] at hstatus
  have hfirst := h.coarse_after
  unfold afterMessage at hfirst
  dsimp only at hfirst
  rw [hnone,lastValue_coarse h hc hy,Option.none_or,Option.some_or,hstatus] at hfirst
  have harrival := h.after coarseRows_subset
  have hsecond := harrival.others_after
  rw [hfirst] at hsecond
  unfold afterMessage at hsecond
  dsimp only at hsecond
  rw [hnone',lastValue_detailed h hd hx,Option.none_or,Option.some_or,
    reportStatus_now (Int.le_refl time)] at hsecond
  rw [List.foldl_append,hfirst,hsecond]
  exact closed_flip hopen

/-- With its coarse rows last, it leaves the sessions as they are. -/
theorem Arrival.coarse_last (h : Arrival s message t) (ht : Torn s message) :
    ((otherRows message ++ coarseRows message).foldl reportStep s).sessions = s.sessions := by
  obtain ⟨d,hd,c,hc,⟨charging,at_⟩,hx,hsome,hopen,_⟩ := ht
  obtain ⟨⟨coarse,time⟩,hy⟩ := Option.isSome_iff_exists.mp hsome
  have htime := (report_time hx).trans (h.times d hd)
  have htime' := (report_time hy).trans (h.times c hc)
  subst htime
  subst htime'
  have hnone : lastValue (ChargeRow.report .detailedChargeState) (coarseRows message) = none :=
    lastValue_eq_none.mpr (fun r hr => coarseRows_detailed hr)
  have hnone' : lastValue (ChargeRow.report .chargeState) (otherRows message) = none :=
    lastValue_eq_none.mpr (fun r hr => otherRows_coarse hr)
  -- the detailed value alone decides nothing new
  have hsame : s.sessions.next time (reportStatus (some (charging,time)) s.coarse) =
      s.sessions := by
    cases hs : s.coarse with
    | none =>
      cases charging with
      | true => exact Sessions.step_same hopen
      | false => rfl
    | some b =>
      rw [reportStatus_now (h.coarse b.1 b.2 hs)]
      exact Sessions.step_same hopen
  have hfirst := h.others_after
  unfold afterMessage at hfirst
  dsimp only at hfirst
  rw [hnone',lastValue_detailed h hd hx,Option.none_or,Option.some_or,hsame] at hfirst
  have harrival := h.after otherRows_subset
  have hsecond := harrival.coarse_after
  rw [hfirst] at hsecond
  unfold afterMessage at hsecond
  dsimp only at hsecond
  rw [hnone,lastValue_coarse h hc hy,Option.none_or,Option.some_or,
    reportStatus_now (Int.le_refl time)] at hsecond
  rw [List.foldl_append,hfirst,hsecond]
  exact Sessions.step_same hopen

/-- Two orders of a torn message, one with a session that ends at its time. -/
theorem torn_orders {rows : List ChargeRow}
    (hsorted : rows.Pairwise (fun a b => a.windowKey ≤ b.windowKey)) (hc : Consistent rows)
    (hone : OneMessagePerTime rows) {row : ChargeRow} (hrow : row ∈ rows)
    (ht : Torn ((rowsBefore row.windowKey rows).foldl reportStep {})
      (messageRows row.windowKey rows)) :
    ∃ first last : List ChargeRow, first.Perm rows ∧ last.Perm rows ∧
      first.Pairwise (fun a b => a.windowKey ≤ b.windowKey) ∧
      last.Pairwise (fun a b => a.windowKey ≤ b.windowKey) ∧
      ∃ p, p ∈ (first.foldl reportStep {}).sessions.toList ∧
        p ∉ (last.foldl reportStep {}).sessions.toList := by
  have harrival := arrival_message hc hrow
  have hsplit := split_key hsorted row.windowKey
  have htimes : ∀ r ∈ rows, r.windowKey ≠ row.windowKey →
      r.sourceTimestamp ≠ row.sourceTimestamp :=
    fun r hr hne heq => hne (hone r hr row hrow heq)
  have hkey : ∀ r ∈ messageRows row.windowKey rows, r.windowKey = row.windowKey :=
    fun r hr => of_decide_eq_true (List.mem_filter.mp hr).2
  change rows = rowsBefore row.windowKey rows ++ (messageRows row.windowKey rows ++ _) at hsplit
  have hbefore : ∀ r ∈ rowsBefore row.windowKey rows, r ∈ rows ∧ r.windowKey ≠ row.windowKey := by
    intro r hr
    obtain ⟨hr,hlt⟩ := List.mem_filter.mp hr
    exact ⟨hr,(of_decide_eq_true hlt).ne⟩
  have hafter : ∀ r ∈ rows.filter (fun r => row.windowKey < r.windowKey),
      r ∈ rows ∧ r.windowKey ≠ row.windowKey := by
    intro r hr
    obtain ⟨hr,hlt⟩ := List.mem_filter.mp hr
    exact ⟨hr,(of_decide_eq_true hlt).ne'⟩
  generalize rowsBefore row.windowKey rows = front at *
  generalize messageRows row.windowKey rows = message at *
  generalize rows.filter (fun r => row.windowKey < r.windowKey) = back at *
  have hcoarse : (coarseRows message ++ otherRows message).Perm message :=
    List.filter_append_perm _ _
  have hothers : (otherRows message ++ coarseRows message).Perm message :=
    List.perm_append_comm.trans hcoarse
  refine ⟨front ++ ((coarseRows message ++ otherRows message) ++ back),
    front ++ ((otherRows message ++ coarseRows message) ++ back),?_,?_,?_,?_,?_⟩
  · rw [hsplit]
    exact (hcoarse.append_right back).append_left front
  · rw [hsplit]
    exact (hothers.append_right back).append_left front
  · exact pairwise_ties (hsplit ▸ hsorted) hcoarse hkey
  · exact pairwise_ties (hsplit ▸ hsorted) hothers hkey
  · obtain ⟨x,hx⟩ := harrival.coarse_first ht
    refine ⟨(x,some row.sourceTimestamp),?_,?_⟩
    · rw [mem_toList_ended,List.foldl_append,List.foldl_append]
      exact (closed_reports back _).subset hx
    · rw [mem_toList_ended,List.foldl_append,List.foldl_append]
      intro hended
      -- every session that ends in the other order ends at the time of another message
      rcases mem_closed_reports hended with hended | ⟨r,hr,heq⟩
      · rw [harrival.coarse_last ht] at hended
        rcases mem_closed_reports hended with hended | ⟨r,hr,heq⟩
        · cases hended
        · exact htimes r (hbefore r hr).1 (hbefore r hr).2 heq.symm
      · exact htimes r (hafter r hr).1 (hafter r hr).2 heq.symm

end Necessary

/-- The sessions of a vehicle whose messages report one value of each signal do not
depend on the order of tied rows where no message is torn, and, where the messages have
different times, in no other case. -/
theorem chargeSessions_orderFree (vehicleId : String) (table : List Observation)
    (hc : Consistent (partition vehicleId table)) :
    (NeverTorn (partition vehicleId table) → OrderFree vehicleId table) ∧
    (OneMessagePerTime (partition vehicleId table) → OrderFree vehicleId table →
      NeverTorn (partition vehicleId table)) := by
  have hsorted : ∀ table' : List Observation,
      (partition vehicleId table').Pairwise (fun a b => a.windowKey ≤ b.windowKey) :=
    fun _ => orderBy_pairwise ChargeRow.windowKey _
  constructor
  · intro hn table' hperm p
    rw [chargeSessions_scan,chargeSessions_scan,
      reports_perm (hsorted table) (hsorted table') (partition_perm hperm) hc hn]
  · intro hone hfree row hrow ht
    rw [reports_scan] at ht
    obtain ⟨first,last,hfirst,hlast,hsfirst,hslast,p,hp,hnp⟩ :=
      torn_orders (hsorted table) hc hone hrow ht
    obtain ⟨table₁,hperm₁,hrows₁⟩ := partition_surjective hfirst hsfirst
    obtain ⟨table₂,hperm₂,hrows₂⟩ := partition_surjective hlast hslast
    rw [← hrows₁,← chargeSessions_scan,hfree table₁ hperm₁ p,← hfree table₂ hperm₂ p,
      chargeSessions_scan,hrows₂] at hp
    exact hnp hp

/-- A charge whose messages carry both signals. -/
def pairedCharge : List Observation :=
  [observation 20 "m1" "DetailedChargeState" "DetailedChargeStateCharging",
   observation 20 "m1" "ChargeState" "Charging",
   observation 60 "m2" "DetailedChargeState" "DetailedChargeStateComplete",
   observation 60 "m2" "ChargeState" "Complete"]

theorem chargeSessions_pairedCharge :
    OrderFree "vehicle-1" pairedCharge ∧
    chargeSessions "vehicle-1" pairedCharge = [(20,some 60)] := by
  have hsorted : partition "vehicle-1" pairedCharge = pairedCharge.filterMap rawChargeEvent :=
    orderBy_of_pairwise (by decide)
  refine ⟨(chargeSessions_orderFree "vehicle-1" pairedCharge ?_).1 ?_,?_⟩
  · rw [hsorted]
    intro row hrow a ha b hb field
    revert a b
    revert row
    cases field <;> decide
  · rw [hsorted]
    unfold NeverTorn
    decide
  · rw [chargeSessions_scan,hsorted]
    decide

/-- The last message of a charge the table knows nothing else of. -/
def tornMessage : List Observation :=
  [observation 20 "m1" "DetailedChargeState" "DetailedChargeStateComplete",
   observation 20 "m1" "ChargeState" "Charging"]

/-- Read with the coarse value first, it is a session of no duration. -/
theorem tornMessage_orders :
    chargeSessions "vehicle-1" tornMessage = [] ∧
    chargeSessions "vehicle-1" tornMessage.reverse = [(20,some 20)] ∧
    ¬ OrderFree "vehicle-1" tornMessage := by
  have hsorted : partition "vehicle-1" tornMessage = tornMessage.filterMap rawChargeEvent :=
    orderBy_of_pairwise (by decide)
  have hsorted' : partition "vehicle-1" tornMessage.reverse =
      tornMessage.reverse.filterMap rawChargeEvent :=
    orderBy_of_pairwise (by decide)
  have hnone : chargeSessions "vehicle-1" tornMessage = [] := by
    rw [chargeSessions_scan,hsorted]
    decide
  have hsession : chargeSessions "vehicle-1" tornMessage.reverse = [(20,some 20)] := by
    rw [chargeSessions_scan,hsorted']
    decide
  refine ⟨hnone,hsession,?_⟩
  intro hfree
  have hmem := (hfree tornMessage.reverse (List.reverse_perm _) (20,some 20)).mp
    (by rw [hsession]; exact List.mem_cons_self)
  rw [hnone] at hmem
  cases hmem

end Woodhouse.Charging
