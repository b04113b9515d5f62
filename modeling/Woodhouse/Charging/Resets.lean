import Woodhouse.Charging.Tails

namespace Woodhouse.Charging
open Sql Intervals

/-- No value is below the one before it by more than a thousandth. -/
def NeverDrops (values : List ℚ) : Prop := values.IsChain (fun a b => a - tolerance ≤ b)

/-- The baseline, then the counter values of the session in time order. -/
def counterSequence (s : ChargeSession) (kind : EnergyKind) (table : List Reading) : List ℚ :=
  ((baseline s kind table).bind Reading.numericValue).toList ++
    (counterObservations s kind table).filterMap Reading.numericValue

/-- The steps from one known value to the next that are not steps between adjacent rows, given
the last known value and the value of the row before. -/
def unseenSteps : Option ℚ → Option ℚ → List (Option ℚ) → List (ℚ × ℚ)
  | _, _, [] => []
  | last, _, none :: rest => unseenSteps last none rest
  | last, previous, some v :: rest =>
    (if previous.isSome then [] else last.toList.map (fun a => (a,v))) ++
      unseenSteps (some v) (some v) rest

/-- The steps of the sequence that no `LAG` compares: from the baseline to the first value of
the session, and over rows without a value. -/
def unseenCounterSteps (s : ChargeSession) (kind : EnergyKind) (table : List Reading) :
    List (ℚ × ℚ) :=
  unseenSteps ((baseline s kind table).bind Reading.numericValue) none
    ((counterObservations s kind table).map Reading.numericValue)

section Steps

theorem neverDrops_cons_cons {a b : ℚ} {values : List ℚ} :
    NeverDrops (a :: b :: values) ↔ a - tolerance ≤ b ∧ NeverDrops (b :: values) :=
  List.isChain_cons_cons

theorem isAnomaly_some {o : Reading} {previous : Option Reading} {a b : ℚ}
    (ho : o.numericValue = some b) (hp : previous.bind Reading.numericValue = some a) :
    isAnomaly (o,previous) = false ↔ a - tolerance ≤ b := by
  simp [isAnomaly,ho,hp,greater]

theorem isAnomaly_unknown {o : Reading} {previous : Option Reading}
    (h : o.numericValue = none ∨ previous.bind Reading.numericValue = none) :
    isAnomaly (o,previous) = false := by
  rcases h with h | h
  · cases hp : (previous.bind Reading.numericValue).map (fun v => v - tolerance) <;>
      simp [isAnomaly,h,hp,greater]
  · simp [isAnomaly,h,greater]

/-- A sequence never drops when its adjacent rows show no anomaly and its other steps do not
drop. The value of the row before is the last known one, if it has one. -/
theorem neverDrops_iff (rows : List Reading) (last : Option ℚ) (previous : Option Reading)
    (hlast : ∀ a, previous.bind Reading.numericValue = some a → last = some a) :
    NeverDrops (last.toList ++ rows.filterMap Reading.numericValue) ↔
      (∀ p ∈ rows.zip (previous :: rows.map some), isAnomaly p = false) ∧
        ∀ step ∈ unseenSteps last (previous.bind Reading.numericValue)
          (rows.map Reading.numericValue), step.1 - tolerance ≤ step.2 := by
  induction rows generalizing last previous with
  | nil =>
    cases last with
    | none => simp [NeverDrops,unseenSteps]
    | some a => simp [NeverDrops,unseenSteps]
  | cons o rest ih =>
    rw [List.map_cons,List.map_cons,List.zip_cons_cons,List.forall_mem_cons]
    cases ho : o.numericValue with
    | none =>
      have hrest := ih last (some o) (by simp [ho])
      rw [Option.bind_some,ho] at hrest
      rw [List.filterMap_cons_none ho,hrest,unseenSteps,
        and_iff_right (isAnomaly_unknown (Or.inl ho))]
    | some v =>
      have hrest := ih (some v) (some o) (by simp [ho])
      rw [Option.bind_some,ho,Option.toList_some,List.singleton_append] at hrest
      rw [List.filterMap_cons_some ho,unseenSteps]
      cases hprev : previous.bind Reading.numericValue with
      | none =>
        rw [and_iff_right (isAnomaly_unknown (Or.inr hprev))]
        cases last with
        | none => simpa using hrest
        | some a =>
          rw [Option.toList_some,List.singleton_append,neverDrops_cons_cons,hrest]
          simp [and_left_comm]
      | some a =>
        -- The step to this row is one of adjacent rows.
        rw [hlast a hprev,Option.toList_some,List.singleton_append,neverDrops_cons_cons,hrest,
          isAnomaly_some ho hprev]
        simp [and_assoc]

end Steps

section Anomalies
variable {s : ChargeSession} {kind : EnergyKind} {table : List Reading}

theorem countAnomalies_zero {rows : List Reading} : countAnomalies rows = 0 ↔
    ∀ p ∈ rows.zip (none :: rows.map some), isAnomaly p = false := by
  unfold countAnomalies
  rw [List.length_eq_zero_iff,List.filter_eq_nil_iff,over_lag]
  simp

/-- Without a counted anomaly, the counters never drop when the unseen steps do not. -/
theorem neverDrops_counters (h : countAnomalies (counterObservations s kind table) = 0) :
    NeverDrops (counterSequence s kind table) ↔
      ∀ step ∈ unseenCounterSteps s kind table, step.1 - tolerance ≤ step.2 := by
  have hiff := neverDrops_iff (counterObservations s kind table)
    ((baseline s kind table).bind Reading.numericValue) none (by simp)
  rw [and_iff_right (countAnomalies_zero.mp h)] at hiff
  exact hiff

theorem anomalies_zero (h : counterAnomalies s table kind = some 0) :
    countAnomalies (counterObservations s kind table) = 0 := by
  unfold counterAnomalies at h
  split at h
  · cases h
  · exact Option.some.inj h

end Anomalies

/-- What a positive tail promises: counters that never drop, no invalid signal after the last
of them, a short rest and power known from before it. -/
structure TailAllowed (s : ChargeSession) (kind : EnergyKind) (table : List Reading)
    (o : Reading) (ended : Int) : Prop where
  counter : lastCounter s kind table = some o
  ends : s.endedAt = some ended
  neverDrops : NeverDrops (counterSequence s kind table)
  valid : ∀ q ∈ table, q.vehicleId = s.vehicleId →
    q.fieldName ∈ [kind.counterField,kind.powerField] → o.sourceTimestamp ≤ q.sourceTimestamp →
    q.sourceTimestamp ≤ ended → q.isInvalid = false
  short : timestampDiff second ended o.sourceTimestamp ≤ 300
  power : ∃ q ∈ table, isReading s.vehicleId kind.powerField q = true ∧
    s.startedAt ≤ q.sourceTimestamp ∧ q.sourceTimestamp ≤ ended ∧
    q.sourceTimestamp ≤ o.sourceTimestamp

/-- A tail is due: adjacent counters show no anomaly, no signal after the last of them is
invalid, the rest is short, power is known from before it and flows for a millisecond. -/
structure TailDue (s : ChargeSession) (now : Int) (kind : EnergyKind) (table : List Reading)
    (o : Reading) (ended : Int) : Prop where
  counter : lastCounter s kind table = some o
  ends : s.endedAt = some ended
  noAnomaly : countAnomalies (counterObservations s kind table) = 0
  valid : invalidTailObservations (tailSpec s now table) kind table = 0
  long : 1 ≤ timestampDiff second ended o.sourceTimestamp
  short : timestampDiff second ended o.sourceTimestamp ≤ 300
  applicable : holds ((tailSpec s now table).powerIsApplicable kind) = true
  covered : ∃ q ∈ sessionPower (tailSpec s now table) kind table,
    q.sourceTimestamp ≤ o.sourceTimestamp
  powered : PowerFlows o.sourceTimestamp ended (sessionPower (tailSpec s now table) kind table)

section Due
variable {s : ChargeSession} {now : Int} {kind : EnergyKind} {table : List Reading} {o : Reading}
  {ended : Int}

theorem counterObservedAt_some {c : Int} : (tailSpec s now table).counterObservedAt kind = some c ↔
    ∃ o, lastCounter s kind table = some o ∧ o.sourceTimestamp = c := Option.map_eq_some_iff

/-- The last counter is one of the session's counters. -/
theorem lastCounter_mem (h : lastCounter s kind table = some o) :
    o ∈ counterObservations s kind table := mem_orderBy.mpr (head?_orderBy h).1

theorem counterAnomalies_zero (hcounter : lastCounter s kind table = some o)
    (h : countAnomalies (counterObservations s kind table) = 0) :
    counterAnomalies s table kind = some 0 := by
  have hmem := lastCounter_mem hcounter
  unfold counterAnomalies
  rw [if_neg,h]
  rintro ⟨hac,hdc⟩
  cases kind with
  | ac =>
    rw [hac] at hmem
    cases hmem
  | dc =>
    rw [hdc] at hmem
    cases hmem

theorem invalid_zero (hcounter : lastCounter s kind table = some o)
    (hend : s.endedAt = some ended) :
    invalidTailObservations (tailSpec s now table) kind table = 0 ↔
      ∀ q ∈ table, q.vehicleId = s.vehicleId →
        q.fieldName ∈ [kind.counterField,kind.powerField] →
        o.sourceTimestamp ≤ q.sourceTimestamp → q.sourceTimestamp ≤ ended →
        q.isInvalid = false := by
  have hbetween : ∀ q : Reading, holds (isBetween (some q.sourceTimestamp)
      ((tailSpec s now table).counterObservedAt kind) (tailSpec s now table).endedAt) = true ↔
        o.sourceTimestamp ≤ q.sourceTimestamp ∧ q.sourceTimestamp ≤ ended := by
    intro q
    rw [counterObservedAt_some.mpr ⟨o,hcounter,rfl⟩]
    simp [tailSpec,hend,isBetween,atMost,greater]
  unfold invalidTailObservations
  rw [List.length_eq_zero_iff,List.filter_eq_nil_iff]
  simp only [Bool.and_eq_true,decide_eq_true_iff,hbetween,not_and]
  constructor
  · intro h q hq hvehicle hfield hlow hhigh
    cases hinvalid : q.isInvalid with
    | false => rfl
    | true => exact absurd hhigh (h q hq ⟨⟨hvehicle,hfield⟩,hinvalid⟩ hlow)
  · rintro h q hq ⟨⟨hvehicle,hfield⟩,hinvalid⟩ hlow hhigh
    rw [h q hq hvehicle hfield hlow hhigh] at hinvalid
    cases hinvalid

theorem TailDue.integrated (h : TailDue s now kind table o ended) :
    TailIntegrated (tailSpec s now table) kind table o.sourceTimestamp ended := by
  refine ⟨counterObservedAt_some.mpr ⟨o,h.counter,rfl⟩,h.ends,
    counterAnomalies_zero h.counter h.noAnomaly,h.valid,h.long,h.short,covered_iff.mpr ?_⟩
  rw [applicable_candidates h.applicable]
  exact h.covered

/-- The tail is positive where power flows for a millisecond. -/
theorem TailIntegrated.positive_iff {spec : TailSpec} {counterAt : Int}
    (h : TailIntegrated spec kind table counterAt ended) :
    0 < ((tailSegments spec kind table counterAt ended).map PowerSegment.kwh).sum ↔
      PowerFlows counterAt ended (tailPowerCandidates spec kind table) := by
  rw [← powerFlows_iff h.ends h.le]
  constructor
  · intro hpos
    by_contra hnone
    have hzero : ∀ x ∈ (tailSegments spec kind table counterAt ended).map PowerSegment.kwh,
        x = 0 := by
      intro x hx
      obtain ⟨p,hp,rfl⟩ := List.mem_map.mp hx
      obtain ⟨hpower,hlong⟩ := segment_nonneg h.ends h.le hp
      unfold PowerSegment.kwh
      rcases hpower.eq_or_lt with hpower | hpower
      · rw [← hpower,zero_mul,zero_div]
      · rcases hlong.eq_or_lt with hlong | hlong
        · rw [← hlong,Int.cast_zero,mul_zero,zero_div]
        · exact absurd ⟨p,hp,hpower,hlong⟩ hnone
    rw [List.sum_eq_zero hzero] at hpos
    exact lt_irrefl 0 hpos
  · rintro ⟨p,hp,hpower,hlong⟩
    have hms : (0 : ℚ) < p.milliseconds := by exact_mod_cast hlong
    have hkwh : 0 < p.kwh := div_pos (mul_pos hpower hms) (by norm_num)
    exact hkwh.trans_le (List.single_le_sum h.kwh_nonneg _ (List.mem_map.mpr ⟨p,hp,rfl⟩))

theorem TailDue.emitted (h : TailDue s now kind table o ended) :
    ∃ t, energyTailKwh (tailSpec s now table) kind table = some t ∧ 0 < t :=
  ⟨_,energyTail_eq_some_iff.mpr (Or.inr ⟨_,_,h.integrated,rfl⟩),
    h.integrated.positive_iff.mpr (by rw [applicable_candidates h.applicable]; exact h.powered)⟩

/-- Only a tail that is due is positive. -/
theorem tailDue_of_positive {t : ℚ} (htail : energyTailKwh (tailSpec s now table) kind table = some t)
    (hpos : 0 < t) : ∃ o ended, TailDue s now kind table o ended := by
  rcases energyTail_eq_some_iff.mp htail with ⟨_,_,rfl⟩ | ⟨c,e,hint,rfl⟩
  · exact absurd hpos (lt_irrefl 0)
  · obtain ⟨o,hcounter,rfl⟩ := counterObservedAt_some.mp hint.counter
    obtain ⟨r,hr,hrle⟩ := covered_iff.mp hint.covered
    have happlicable : holds ((tailSpec s now table).powerIsApplicable kind) = true := by
      by_contra hnot
      unfold tailPowerCandidates at hr
      rw [if_neg hnot] at hr
      cases hr
    have hpowered := hint.positive_iff.mp hpos
    rw [applicable_candidates happlicable] at hpowered
    exact ⟨o,e,hcounter,hint.ends,anomalies_zero hint.noAnomaly,hint.valid,hint.long,hint.short,
      happlicable,⟨r,mem_tailPowerCandidates hr,hrle⟩,hpowered⟩

end Due

section Reset

/-- A charge of an hour. The counter is at 50 kWh a minute before it and at 5 kWh 100 seconds
before its end. -/
def resetTable : List Reading :=
  [state 900000000 "m1" "ChargeState" "Idle",
   meter 940000000 "m2" "ACChargingEnergyIn" 50,
   state 1000000000 "m3" "DetailedChargeState" "DetailedChargeStateCharging",
   meter 4400000000 "m4" "ACChargingPower" 7,
   meter 4500000000 "m5" "ACChargingEnergyIn" 5,
   state 4600000000 "m6" "DetailedChargeState" "DetailedChargeStateComplete"]

def resetSession : ChargeSession :=
  { vehicleId := "v", startedAt := 1000000000, endedAt := some 4600000000
    startStateMessageId := some "m3", endStateMessageId := some "m6" }

theorem resetSession_identified : resetSession ∈ identified "v" resetTable := by
  have hsorted : partition "v" (resetTable.map Reading.toObservation) =
      (resetTable.map Reading.toObservation).filterMap rawChargeEvent :=
    orderBy_of_pairwise (by decide)
  unfold identified
  rw [hsorted]
  decide

theorem reset_baseline : baseline resetSession .ac resetTable =
    some (meter 940000000 "m2" "ACChargingEnergyIn" 50) := by
  have hrows : resetTable.filter (isCandidate (boundarySpec resetSession .ac .start)) =
      [meter 940000000 "m2" "ACChargingEnergyIn" 50] := rfl
  unfold baseline selectedBoundary
  rw [hrows,orderBy_singleton]
  rfl

theorem reset_lastCounter : lastCounter resetSession .ac resetTable =
    some (meter 4500000000 "m5" "ACChargingEnergyIn" 5) := by
  have hrows : resetTable.filter (isCandidate (boundarySpec resetSession .ac .end_)) =
      [meter 4500000000 "m5" "ACChargingEnergyIn" 5] := rfl
  unfold lastCounter selectedBoundary
  rw [hrows,orderBy_singleton]
  rfl

theorem reset_counters : counterObservations resetSession .ac resetTable =
    [meter 4500000000 "m5" "ACChargingEnergyIn" 5] := by
  have hrows : resetTable.filter (fun o => isReading resetSession.vehicleId
      EnergyKind.ac.counterField o && holds (isBetween (some o.sourceTimestamp)
        (some resetSession.startedAt) resetSession.endedAt)) =
      [meter 4500000000 "m5" "ACChargingEnergyIn" 5] := rfl
  unfold counterObservations
  rw [hrows,orderBy_singleton]

theorem reset_power : sessionPower (tailSpec resetSession 0 resetTable) .ac resetTable =
    [{ sourceTimestamp := 4400000000, pubsubMessageId := "m4", numericValue := 7 }] := rfl

theorem reset_applicable :
    holds ((tailSpec resetSession 0 resetTable).powerIsApplicable .ac) = true := by
  have hac : maximumPowerKw resetSession 0 resetTable .ac = some 7 := rfl
  have hdc : maximumPowerKw resetSession 0 resetTable .dc = none := rfl
  simp [TailSpec.powerIsApplicable,tailSpec,hac,hdc]

theorem reset_due : TailDue resetSession 0 .ac resetTable
    (meter 4500000000 "m5" "ACChargingEnergyIn" 5) 4600000000 where
  counter := reset_lastCounter
  ends := rfl
  noAnomaly := by
    rw [reset_counters]
    rfl
  valid := rfl
  long := by decide
  short := by decide
  applicable := reset_applicable
  covered := by
    rw [reset_power]
    exact ⟨_,List.mem_singleton_self _,by decide⟩
  powered := by
    rw [reset_power]
    refine ⟨4500000000,⟨4400000000,"m4",7⟩,le_refl _,?_,by norm_num,by decide,?_⟩
    · change priorPower 4500000000 [⟨4400000000,"m4",7⟩] = some ⟨4400000000,"m4",7⟩
      simp [priorPower]
    · intro q hq hlt
      rw [List.mem_singleton.mp hq] at hlt
      exact absurd hlt (by decide)

end Reset

end Woodhouse.Charging
