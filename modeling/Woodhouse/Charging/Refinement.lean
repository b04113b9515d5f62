import Mathlib.Data.String.Basic
import Woodhouse.Charging.Scan

namespace Woodhouse.Charging
open Sql

section Order

/-- The valid charge-state observations of a vehicle have pairwise distinct timestamps. -/
def DistinctTimes (vehicleId : String) (table : List Observation) : Prop :=
  (((table.filterMap rawChargeEvent).filter (fun row => row.vehicleId = vehicleId)).map
    ChargeRow.sourceTimestamp).Nodup

instance (vehicleId : String) (table : List Observation) :
    Decidable (DistinctTimes vehicleId table) :=
  inferInstanceAs (Decidable (List.Nodup _))

theorem chronological_partition {vehicleId : String} {table : List Observation}
    (h : DistinctTimes vehicleId table) : Chronological (partition vehicleId table) := by
  unfold DistinctTimes at h
  unfold partition
  generalize (table.filterMap rawChargeEvent).filter _ = rows at h ⊢
  have hsorted := orderBy_pairwise ChargeRow.windowKey rows
  have hdistinct : ((orderBy ChargeRow.windowKey rows).map ChargeRow.sourceTimestamp).Nodup :=
    ((orderBy_perm ChargeRow.windowKey rows).map _).nodup_iff.mpr h
  rw [List.Nodup,List.pairwise_map] at hdistinct
  refine (hsorted.and hdistinct).imp ?_
  intro a b hab
  rcases Prod.Lex.le_iff.mp hab.1 with hlt | ⟨heq,_⟩
  · exact hlt
  · exact absurd heq hab.2

end Order

section AfterCoarse
variable {rows : List ChargeRow}

/-- From the first known coarse observation on, both scans make the same step. -/
theorem scanStep_agree {s : ScanState} (hk : KnownSignals s) {row : ChargeRow}
    (hc : ((row.signal .chargeState).or s.coarse).isSome = true) :
    scanStep referenceStatus s row = scanStep viewStatus s row := by
  have hknown := hk.step viewStatus row
  obtain ⟨⟨c,t⟩,hcoarse⟩ := Option.isSome_iff_exists.mp hc
  have hclass := hknown.coarse c t hcoarse
  have hdetailed := hknown.detailed
  unfold scanStep at hdetailed ⊢
  dsimp only at hdetailed ⊢
  rw [hcoarse,viewStatus_coarse hdetailed hclass]

theorem foldl_agree {s : ScanState} (hk : KnownSignals s) (hc : s.coarse.isSome = true) :
    rows.foldl (scanStep referenceStatus) s = rows.foldl (scanStep viewStatus) s := by
  induction rows generalizing s with
  | nil => rfl
  | cons row rows ih =>
    have hor : ((row.signal .chargeState).or s.coarse).isSome = true := by
      rw [Option.isSome_or,hc,Bool.or_true]
    rw [List.foldl_cons,List.foldl_cons,scanStep_agree hk hor]
    exact ih (hk.step viewStatus row) hor

theorem foldl_agree_head {s : ScanState} (hk : KnownSignals s)
    (hhead : ∀ row ∈ rows.head?, (row.signal .chargeState).isSome = true) :
    rows.foldl (scanStep referenceStatus) s = rows.foldl (scanStep viewStatus) s := by
  cases rows with
  | nil => rfl
  | cons row rows =>
    have hor : ((row.signal .chargeState).or s.coarse).isSome = true := by
      rw [Option.isSome_or,hhead row rfl,Bool.true_or]
    rw [List.foldl_cons,List.foldl_cons,scanStep_agree hk hor]
    exact foldl_agree (hk.step viewStatus row) hor

theorem closed_scanStep_time (status : Signal → Signal → Option Bool) {s : ScanState}
    {row : ChargeRow} (hs : s.sessions.closed = []) {c : Int × Int} {rest : List (Int × Int)}
    (hc : (scanStep status s row).sessions.closed = c :: rest) : c.2 = row.sourceTimestamp := by
  unfold scanStep at hc
  dsimp only at hc
  split at hc
  · unfold Sessions.step at hc
    split at hc
    · simp [hs] at hc
    · simp only [hs,List.nil_append,List.cons.injEq] at hc
      rw [← hc.1]
    · simp [hs] at hc
  · simp [hs] at hc

/-- The first session a scan closes among some rows ends at the time of one of them. -/
theorem closed_time (status : Signal → Signal → Option Bool) {s : ScanState}
    (hs : s.sessions.closed = []) {c : Int × Int} {rest : List (Int × Int)}
    (hc : (rows.foldl (scanStep status) s).sessions.closed = c :: rest) :
    ∃ r ∈ rows, c.2 = r.sourceTimestamp := by
  induction rows using List.reverseRecOn generalizing rest with
  | nil =>
    rw [List.foldl_nil,hs] at hc
    cases hc
  | append_singleton rows row ih =>
    rw [List.foldl_append,List.foldl_cons,List.foldl_nil] at hc
    cases hbefore : (rows.foldl (scanStep status) s).sessions.closed with
    | cons d more =>
      obtain ⟨tail,ht⟩ := closed_scanStep status (rows.foldl (scanStep status) s) row
      rw [hbefore,hc,List.cons_append] at ht
      obtain ⟨rfl,_⟩ := List.cons.inj ht
      obtain ⟨r,hr,ht⟩ := ih hbefore
      exact ⟨r,List.mem_append_left _ hr,ht⟩
    | nil => exact ⟨row,by simp,closed_scanStep_time status hbefore hc⟩

end AfterCoarse

section Sessions
variable {rows : List ChargeRow}

theorem beforeCoarse_noCoarse (rows : List ChargeRow) : NoCoarse (beforeCoarse rows) := by
  intro r hr
  have := List.mem_takeWhile_imp hr
  simpa using this

theorem afterCoarse_head (rows : List ChargeRow) :
    ∀ row ∈ (rows.dropWhile (fun r => (r.signal .chargeState).isNone)).head?,
      (row.signal .chargeState).isSome = true := by
  intro row hr
  have := List.head?_dropWhile_not (fun r => (r.signal .chargeState).isNone) rows
  rw [hr] at this
  simpa using this

theorem scan_split (status : Signal → Signal → Option Bool) (rows : List ChargeRow) :
    scan status rows = (rows.dropWhile (fun r => (r.signal .chargeState).isNone)).foldl
      (scanStep status) (scan status (beforeCoarse rows)) := by
  unfold scan beforeCoarse
  rw [← List.foldl_append,List.takeWhile_append_dropWhile]

/-- The view's sessions are those of the state machine exactly when no detailed state
ends a session before the first known coarse observation. -/
theorem scan_agree_iff (h : Chronological rows) :
    (scan viewStatus rows).sessions.toList = referenceScan rows ↔ DetailedNeverEnds rows := by
  have hnone := beforeCoarse_noCoarse rows
  unfold referenceScan
  rw [scan_split viewStatus,scan_split referenceStatus]
  constructor
  · intro heq
    by_contra hends
    obtain ⟨c,rest,hc,r,hr,ht⟩ := closes_noCoarse hnone hends
    obtain ⟨more,hmore⟩ := closed_foldl referenceStatus (scan referenceStatus (beforeCoarse rows))
      (rows.dropWhile (fun r => (r.signal .chargeState).isNone))
    rw [hc] at hmore
    have hview := (view_noCoarse hnone).1
    unfold Sessions.toList at heq
    rw [← hmore] at heq
    cases hclosed : ((rows.dropWhile (fun r => (r.signal .chargeState).isNone)).foldl
        (scanStep viewStatus) (scan viewStatus (beforeCoarse rows))).sessions.closed with
    | nil =>
      rw [hclosed] at heq
      generalize Sessions.openedAt _ = opened at heq
      cases opened with
      | none => cases heq
      | some o => simp at heq
    | cons d tail =>
      obtain ⟨r',hr',ht'⟩ := closed_time viewStatus hview hclosed
      rw [hclosed] at heq
      simp only [List.map_cons,List.cons_append,List.cons.injEq,Prod.mk.injEq,
        Option.some.injEq] at heq
      have hlt : r.sourceTimestamp < r'.sourceTimestamp := by
        have hsplit := h
        rw [← List.takeWhile_append_dropWhile
          (p := fun r : ChargeRow => (r.signal .chargeState).isNone) (l := rows)] at hsplit
        exact (List.pairwise_append.mp hsplit).2.2 r hr r' hr'
      have := heq.1.2
      omega
  · intro hnever
    have hsessions := agree_noCoarse hnone hnever
    have hstate : scan referenceStatus (beforeCoarse rows) =
        scan viewStatus (beforeCoarse rows) := by
      have hd := (lastValue_signal referenceStatus (beforeCoarse rows)).1.trans
        (lastValue_signal viewStatus (beforeCoarse rows)).1.symm
      have hc := (lastValue_signal referenceStatus (beforeCoarse rows)).2.trans
        (lastValue_signal viewStatus (beforeCoarse rows)).2.symm
      generalize scan referenceStatus (beforeCoarse rows) = s at hd hc hsessions ⊢
      generalize scan viewStatus (beforeCoarse rows) = s' at hd hc hsessions ⊢
      cases s
      cases s'
      simp only at hd hc hsessions
      rw [hd,hc,hsessions]
    rw [hstate,foldl_agree_head (knownSignals_scan viewStatus _) (afterCoarse_head rows)]

/-- Sessions in order, each over before the next starts. -/
def SessionsOrdered (sessions : List (Int × Option Int)) : Prop :=
  sessions.Pairwise (fun a b => ∃ ended, a.2 = some ended ∧ ended < b.1) ∧
  ∀ p ∈ sessions, ∀ ended, p.2 = some ended → p.1 < ended

/-- What a scan keeps of its sessions before the time `t` of its next row. -/
structure OrderedBefore (s : Sessions) (t : Int) : Prop where
  closed : s.closed.Pairwise (fun a b => a.2 < b.1)
  positive : ∀ c ∈ s.closed, c.1 < c.2 ∧ c.2 < t
  opened : ∀ o, s.openedAt = some o → o < t ∧ ∀ c ∈ s.closed, c.2 < o

theorem OrderedBefore.mono {s : Sessions} {t t' : Int} (h : OrderedBefore s t) (ht : t ≤ t') :
    OrderedBefore s t' := by
  refine ⟨h.closed,?_,?_⟩
  · intro c hc
    have := h.positive c hc
    exact ⟨this.1,by omega⟩
  · intro o ho
    have := h.opened o ho
    exact ⟨by omega,this.2⟩

theorem OrderedBefore.step {s : Sessions} {t t' : Int} (h : OrderedBefore s t) (ht : t < t')
    (charging : Bool) : OrderedBefore (s.step t charging) t' := by
  obtain ⟨closed,openedAt⟩ := s
  have hmono := h.mono (Int.le_of_lt ht)
  cases openedAt with
  | none =>
    cases charging with
    | false => exact hmono
    | true =>
      refine ⟨h.closed,hmono.positive,?_⟩
      intro o ho
      cases ho
      exact ⟨ht,fun c hc => (h.positive c hc).2⟩
  | some start =>
    cases charging with
    | true => exact hmono
    | false =>
      obtain ⟨hstart,hbefore⟩ := h.opened start rfl
      refine ⟨?_,?_,?_⟩
      · refine List.pairwise_append.mpr ⟨h.closed,List.pairwise_singleton _ _,?_⟩
        intro a ha b hb
        rw [List.mem_singleton.mp hb]
        exact hbefore a ha
      · intro c hc
        rcases List.mem_append.mp hc with hc | hc
        · exact hmono.positive c hc
        · rw [List.mem_singleton.mp hc]
          exact ⟨hstart,ht⟩
      · intro o ho
        cases ho

theorem orderedBefore_scan (status : Signal → Signal → Option Bool) (h : Chronological rows)
    {t : Int} (ht : ∀ r ∈ rows, r.sourceTimestamp < t) :
    OrderedBefore (scan status rows).sessions t := by
  induction rows using List.reverseRecOn generalizing t with
  | nil => exact ⟨List.Pairwise.nil,fun _ hc => absurd hc List.not_mem_nil,fun _ ho => nomatch ho⟩
  | append_singleton rows row ih =>
    obtain ⟨hrows,hlt⟩ := chronological_snoc h
    have hbefore := ih hrows hlt
    have hrow := ht row (List.mem_append_right _ List.mem_cons_self)
    rw [scan_snoc]
    unfold scanStep
    dsimp only
    split
    · exact hbefore.step hrow _
    · exact hbefore.mono (Int.le_of_lt hrow)

theorem OrderedBefore.sessions {s : Sessions} {t : Int} (h : OrderedBefore s t) :
    SessionsOrdered s.toList := by
  unfold Sessions.toList
  constructor
  · refine List.pairwise_append.mpr ⟨?_,?_,?_⟩
    · rw [List.pairwise_map]
      exact h.closed.imp (fun hab => ⟨_,rfl,hab⟩)
    · cases s.openedAt with
      | none => exact List.Pairwise.nil
      | some o => exact List.pairwise_singleton _ _
    · intro a ha b hb
      obtain ⟨c,hc,rfl⟩ := List.mem_map.mp ha
      obtain ⟨o,ho,rfl⟩ := List.mem_map.mp hb
      exact ⟨c.2,rfl,(h.opened o (Option.mem_toList.mp ho)).2 c hc⟩
  · intro p hp ended he
    rcases List.mem_append.mp hp with hp | hp
    · obtain ⟨c,hc,rfl⟩ := List.mem_map.mp hp
      cases he
      exact (h.positive c hc).1
    · obtain ⟨o,_,rfl⟩ := List.mem_map.mp hp
      cases he

theorem referenceScan_ordered (h : Chronological rows) : SessionsOrdered (referenceScan rows) := by
  obtain ⟨t,ht⟩ : ∃ t, ∀ r ∈ rows, r.sourceTimestamp < t := by
    clear h
    induction rows with
    | nil => exact ⟨0,fun _ hr => by cases hr⟩
    | cons row rows ih =>
      obtain ⟨t,ht⟩ := ih
      refine ⟨max t (row.sourceTimestamp + 1),?_⟩
      intro r hr
      rcases List.mem_cons.mp hr with rfl | hr
      · omega
      · have := ht r hr
        omega
  exact (orderedBefore_scan referenceStatus h ht).sessions

end Sessions

/-- The charge sessions of a vehicle are those of the sequential state machine, in
order and pairwise disjoint, exactly when before the first known coarse observation no
terminal or starting detailed state follows an active one. -/
theorem chargeSessions_eq_scan_iff {vehicleId : String} {table : List Observation}
    (h : DistinctTimes vehicleId table) :
    (chargeSessions vehicleId table = referenceScan (partition vehicleId table) ∧
      SessionsOrdered (chargeSessions vehicleId table)) ↔
    DetailedNeverEnds (partition vehicleId table) := by
  have hrows := chronological_partition h
  unfold chargeSessions
  rw [segments_scan (hrows.imp Int.le_of_lt),← scan_agree_iff hrows]
  constructor
  · exact fun h => h.1
  · intro heq
    refine ⟨heq,?_⟩
    rw [heq]
    exact referenceScan_ordered hrows

def observation (t : Int) (messageId fieldName value : String) : Observation :=
  { sourceTimestamp := t, vehicleId := "vehicle-1", pubsubMessageId := messageId, fieldName
    stringValue := some value, isInvalid := false }

/-- A charge with both signals: it starts at 20 and is complete at 60. -/
def completedCharge : List Observation :=
  [observation 10 "m1" "ChargeState" "Idle",
   observation 20 "m2" "DetailedChargeState" "DetailedChargeStateCharging",
   observation 30 "m3" "ChargeState" "Enable",
   observation 60 "m4" "DetailedChargeState" "DetailedChargeStateComplete"]

theorem chargeSessions_completedCharge :
    chargeSessions "vehicle-1" completedCharge = [(20,some 60)] := by
  have hsorted : partition "vehicle-1" completedCharge = completedCharge.filterMap rawChargeEvent :=
    orderBy_of_pairwise (by decide)
  have hdistinct : DistinctTimes "vehicle-1" completedCharge := by decide
  have hsessions := ((chargeSessions_eq_scan_iff hdistinct).mpr (by rw [hsorted]; decide)).1
  rw [hsessions,hsorted]
  decide

/-- A charge seen through its detailed state only. -/
def detailedCharge : List Observation :=
  [observation 20 "m2" "DetailedChargeState" "DetailedChargeStateCharging",
   observation 60 "m4" "DetailedChargeState" "DetailedChargeStateComplete"]

/-- Its completion does not end the session, although the state machine ends it. -/
theorem detailedCharge_never_ends :
    DistinctTimes "vehicle-1" detailedCharge ∧
    chargeSessions "vehicle-1" detailedCharge = [(20,none)] ∧
    referenceScan (partition "vehicle-1" detailedCharge) = [(20,some 60)] := by
  have hsorted : partition "vehicle-1" detailedCharge = detailedCharge.filterMap rawChargeEvent :=
    orderBy_of_pairwise (by decide)
  unfold chargeSessions
  rw [hsorted]
  exact ⟨by decide,by decide,by decide⟩

end Woodhouse.Charging
