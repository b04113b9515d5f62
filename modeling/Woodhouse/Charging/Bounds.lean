import Woodhouse.Charging.Provenance

namespace Woodhouse.Charging
open Sql

/-- The DC value a validated AC input allows. -/
def acAllowance (input : ℚ) : ℚ := input + max (1 / 20) (input * (1 / 20))

/-- The DC energy comes with an AC energy that allows it. -/
def DcWithinAc (row : ChargeEnergy) : Prop :=
  ∀ d, row.energyAddedKwh .dc = some d →
    ∃ a, row.energyAddedKwh .ac = some a ∧ d ≤ acAllowance a

section Bounds
variable {r : Reconstructed}

/-- Without DC power the bound comes from the AC candidate. -/
theorem dcBound_eq_some (hdc : ∀ p, r.spec.maximumPowerKw .dc = some p → p ≤ 0) {bound : ℚ} :
    r.upperBound .dc = some bound ↔ (∃ p, r.spec.maximumPowerKw .ac = some p ∧ 0 < p) ∧
      ∃ a, r.candidate .ac = some a ∧ bound = acAllowance a := by
  have hnone : ¬ holds (greater (r.spec.maximumPowerKw .dc) (some 0)) = true := by
    rw [holds_greater]
    rintro ⟨x,y,hx,hy,hlt⟩
    cases hy
    exact absurd hlt (not_lt.mpr (hdc x hx))
  have hac : holds (truthAnd (greater (r.spec.maximumPowerKw .ac) (some 0))
      (some (r.candidate .ac).isSome)) = true ↔
      (∃ p, r.spec.maximumPowerKw .ac = some p ∧ 0 < p) ∧ (r.candidate .ac).isSome = true := by
    rw [holds_truthAnd,holds_greater,holds_some]
    refine and_congr_left' ?_
    constructor
    · rintro ⟨x,y,hx,hy,hlt⟩
      cases hy
      exact ⟨x,hx,hlt⟩
    · rintro ⟨p,hp,hpos⟩
      exact ⟨p,0,hp,rfl,hpos⟩
  change (if holds (greater (r.spec.maximumPowerKw .dc) (some 0)) = true then _ else
    if holds (truthAnd (greater (r.spec.maximumPowerKw .ac) (some 0))
      (some (r.candidate .ac).isSome)) = true then withAllowance (1 / 20) (r.candidate .ac)
    else none) = some bound ↔ _
  rw [if_neg hnone]
  by_cases h : (∃ p, r.spec.maximumPowerKw .ac = some p ∧ 0 < p) ∧
      (r.candidate .ac).isSome = true
  · rw [if_pos (hac.mpr h),and_iff_right h.1,withAllowance,Option.map_eq_some_iff]
    constructor
    · rintro ⟨a,ha,rfl⟩
      exact ⟨a,ha,rfl⟩
    · rintro ⟨a,ha,rfl⟩
      exact ⟨a,ha,rfl⟩
  · rw [if_neg (fun hcond => h (hac.mp hcond))]
    constructor
    · intro hsome
      cases hsome
    · rintro ⟨hp,a,ha,_⟩
      exact absurd ⟨hp,by rw [ha]; rfl⟩ h

/-- The bound of power `p` over a session that has ended. -/
theorem acBound_of_power {p kwh : ℚ} {ended : Int} (hp : r.spec.maximumPowerKw .ac = some p)
    (hpos : 0 < p) (hend : r.spec.endedAt = some ended)
    (hkwh : p * timestampDiff millisecond ended r.spec.startedAt / 3600000 = kwh) :
    r.upperBound .ac = some (kwh + max (1 / 20) (kwh * (1 / 50))) := by
  have hpower : holds (greater (r.spec.maximumPowerKw .ac) (some 0)) = true :=
    holds_greater.mpr ⟨p,0,hp,rfl,hpos⟩
  change (if holds (greater (r.spec.maximumPowerKw .ac) (some 0)) = true then _ else none) = _
  rw [if_pos hpower,withAllowance,TailSpec.powerDurationKwh,hp,hend,← hkwh]
  rfl

/-- Without DC power, the DC energy is within the AC energy exactly when no DC candidate is
within the allowance of an AC candidate that is above its own bound or has none. -/
theorem dcWithinAc_iff (r : Reconstructed)
    (hdc : ∀ p, r.spec.maximumPowerKw .dc = some p → p ≤ 0) :
    DcWithinAc r.corrected ↔
      ∀ p a d, r.spec.maximumPowerKw .ac = some p → 0 < p → r.candidate .ac = some a →
        r.candidate .dc = some d → d ≤ acAllowance a →
          ∃ bound, r.upperBound .ac = some bound ∧ a ≤ bound := by
  constructor
  · intro h p a d hp hpos ha hd hle
    have haccepted : r.IsAccepted .dc :=
      ⟨d,acAllowance a,hd,(dcBound_eq_some hdc).mpr ⟨⟨p,hp,hpos⟩,a,ha,rfl⟩,hle⟩
    obtain ⟨b,hb,_⟩ := h d (added_eq_some.mpr ⟨haccepted,hd⟩)
    obtain ⟨⟨v,bound,hv,hbound,hvle⟩,_⟩ := added_eq_some.mp hb
    rw [ha,Option.some.injEq] at hv
    exact ⟨bound,hbound,hv ▸ hvle⟩
  · intro h d hd
    obtain ⟨⟨v,bound,hv,hbound,hle⟩,hcandidate⟩ := added_eq_some.mp hd
    obtain rfl : d = v := Option.some.inj (hcandidate.symm.trans hv)
    obtain ⟨⟨p,hp,hpos⟩,a,ha,rfl⟩ := (dcBound_eq_some hdc).mp hbound
    obtain ⟨bound,hacbound,hale⟩ := h p a d hp hpos ha hcandidate hle
    exact ⟨a,added_eq_some.mpr ⟨⟨a,bound,ha,hacbound,hale⟩,ha⟩,hle⟩

end Bounds

section Plain

/-- A session of an hour at 7 kW, with 5 kWh of both counters. -/
def plainCharge : Reconstructed :=
  { spec :=
      { vehicleId := "v", startedAt := 0, endedAt := some 3600000000
        maximumPowerKw := fun kind => if kind = .ac then some 7 else none
        startEnergyKwh := fun _ => some 10
        observedEndEnergyKwh := fun _ => some 15
        counterObservedAt := fun _ => some 3600000000
        counterAnomalies := fun _ => some 0 }
    energyCounterKwh := fun _ => some 5
    energyTailKwh := fun _ => some 0 }

theorem dcWithinAc_plain : DcWithinAc plainCharge.corrected := by
  refine (dcWithinAc_iff plainCharge ?_).mpr ?_
  · intro p hp
    cases hp
  · intro p a d _ _ ha _ _
    obtain ⟨_,counter,hcounter,rfl⟩ := candidate_eq_some.mp ha
    cases hcounter
    have hms : timestampDiff millisecond 3600000000 0 = 3600000 := by decide
    have hbound : plainCharge.upperBound .ac = some (7 + max (1 / 20) (7 * (1 / 50))) :=
      acBound_of_power rfl (by norm_num) rfl
        (by rw [show plainCharge.spec.startedAt = 0 from rfl,hms]; norm_num)
    refine ⟨_,hbound,?_⟩
    norm_num [plainCharge]

end Plain

section Lifetime

/-- A charge of an hour at 7 kW without a baseline, whose counters are those of the car's
lifetime. -/
def lifetimeTable : List Reading :=
  [state 900000000 "m1" "ChargeState" "Idle",
   state 1000000000 "m2" "DetailedChargeState" "DetailedChargeStateCharging",
   meter 4400000000 "m3" "ACChargingPower" 7,
   meter 4600000000 "m4" "ACChargingEnergyIn" 100,
   meter 4600000000 "m4" "DCChargingEnergyIn" 90,
   state 4600000000 "m4" "DetailedChargeState" "DetailedChargeStateComplete"]

def lifetimeSession : ChargeSession :=
  { vehicleId := "v", startedAt := 1000000000, endedAt := some 4600000000
    startStateMessageId := some "m2", endStateMessageId := some "m4" }

def lifetimeSpec : TailSpec := tailSpec lifetimeSession 0 lifetimeTable

theorem lifetimeSession_identified : lifetimeSession ∈ identified "v" lifetimeTable := by
  have hsorted : partition "v" (lifetimeTable.map Reading.toObservation) =
      (lifetimeTable.map Reading.toObservation).filterMap rawChargeEvent :=
    orderBy_of_pairwise (by decide)
  unfold identified
  rw [hsorted]
  decide

/-- The one row of a counter. -/
def lifetimeCounter : EnergyKind → Reading
  | .ac => meter 4600000000 "m4" "ACChargingEnergyIn" 100
  | .dc => meter 4600000000 "m4" "DCChargingEnergyIn" 90

theorem lifetime_lastCounter (kind : EnergyKind) :
    lastCounter lifetimeSession kind lifetimeTable = some (lifetimeCounter kind) := by
  have hrows : lifetimeTable.filter (isCandidate (boundarySpec lifetimeSession kind .end_)) =
      [lifetimeCounter kind] := by
    cases kind <;> rfl
  unfold lastCounter selectedBoundary
  rw [hrows,orderBy_singleton]
  rfl

theorem lifetime_baseline (kind : EnergyKind) :
    baseline lifetimeSession kind lifetimeTable = none := by
  have hrows : lifetimeTable.filter (isCandidate (boundarySpec lifetimeSession kind .start)) =
      [] := by
    cases kind <;> rfl
  unfold baseline selectedBoundary
  rw [hrows,orderBy_nil]
  rfl

theorem lifetime_counters (kind : EnergyKind) :
    counterObservations lifetimeSession kind lifetimeTable = [lifetimeCounter kind] := by
  have hrows : lifetimeTable.filter (fun o => isReading lifetimeSession.vehicleId
      kind.counterField o && holds (isBetween (some o.sourceTimestamp)
        (some lifetimeSession.startedAt) lifetimeSession.endedAt)) = [lifetimeCounter kind] := by
    cases kind <;> rfl
  unfold counterObservations
  rw [hrows,orderBy_singleton]

theorem lifetime_anomalies (kind : EnergyKind) : lifetimeSpec.counterAnomalies kind = some 0 := by
  change counterAnomalies lifetimeSession lifetimeTable kind = some 0
  unfold counterAnomalies
  rw [lifetime_counters,lifetime_counters,lifetime_counters]
  rfl

theorem lifetime_tail (kind : EnergyKind) : energyTailKwh lifetimeSpec kind lifetimeTable = some 0 := by
  refine energyTail_eq_some_iff.mpr (Or.inl ⟨lifetime_anomalies kind,?_,rfl⟩)
  refine tailSeconds_some.mpr ⟨4600000000,4600000000,rfl,?_,by decide⟩
  change (lastCounter lifetimeSession kind lifetimeTable).map _ = _
  rw [lifetime_lastCounter]
  cases kind <;> rfl

theorem lifetime_maximum : lifetimeSpec.maximumPowerKw .ac = some 7 ∧
    lifetimeSpec.maximumPowerKw .dc = none := ⟨rfl,rfl⟩

theorem lifetime_candidate {kind : EnergyKind} {v : ℚ}
    (hcounter : energyCounterKwh lifetimeSpec kind = some v) :
    (energyReconstructed lifetimeSpec lifetimeTable).candidate kind = some v := by
  refine candidate_eq_some.mpr ⟨?_,v,hcounter,?_⟩
  · change (lifetimeSpec.counterAnomalies kind).getD 0 = 0
    rw [lifetime_anomalies]
    rfl
  · change v = v + (energyTailKwh lifetimeSpec kind lifetimeTable).getD 0
    rw [lifetime_tail]
    exact (add_zero v).symm

theorem lifetime_counter (kind : EnergyKind) {v : ℚ}
    (hv : (lifetimeCounter kind).numericValue = some v) (hpos : 0 ≤ v) :
    energyCounterKwh lifetimeSpec kind = some v := by
  have hend : lifetimeSpec.observedEndEnergyKwh kind = some v := by
    change (lastCounter lifetimeSession kind lifetimeTable).bind _ = _
    rw [lifetime_lastCounter]
    exact hv
  have hstart : lifetimeSpec.startEnergyKwh kind = none := by
    change (baseline lifetimeSession kind lifetimeTable).bind _ = _
    rw [lifetime_baseline]
    rfl
  have happlicable : holds (lifetimeSpec.counterIsApplicable kind) = true := by
    cases kind with
    | ac => simp [TailSpec.counterIsApplicable,lifetime_maximum.1]
    | dc => rfl
  unfold energyCounterKwh TailSpec.subtrahend
  rw [if_pos happlicable,hstart,hend]
  simp [greatest,hpos]

/-- The AC energy of 100 kWh is above its bound and rejected; the DC energy of 90 kWh is not. -/
theorem lifetime_not_within : lifetimeSession ∈ identified "v" lifetimeTable ∧
    (tailSpec lifetimeSession 0 lifetimeTable).maximumPowerKw .dc = none ∧
    ¬ DcWithinAc (chargeEnergy lifetimeSession 0 lifetimeTable) := by
  refine ⟨lifetimeSession_identified,rfl,?_⟩
  intro h
  have hac := lifetime_candidate (lifetime_counter .ac (v := 100) rfl (by norm_num))
  have hdc := lifetime_candidate (lifetime_counter .dc (v := 90) rfl (by norm_num))
  have hnone : ∀ p, (energyReconstructed lifetimeSpec lifetimeTable).spec.maximumPowerKw .dc =
      some p → p ≤ 0 := by
    intro p hp
    rw [show (energyReconstructed lifetimeSpec lifetimeTable).spec.maximumPowerKw .dc = none from
      lifetime_maximum.2] at hp
    cases hp
  have hdcbound : (energyReconstructed lifetimeSpec lifetimeTable).upperBound .dc =
      some (acAllowance 100) :=
    (dcBound_eq_some hnone).mpr ⟨⟨7,lifetime_maximum.1,by norm_num⟩,100,hac,rfl⟩
  obtain ⟨a,ha,_⟩ := h 90 (added_eq_some.mpr
    ⟨⟨90,acAllowance 100,hdc,hdcbound,by norm_num [acAllowance]⟩,hdc⟩)
  obtain ⟨⟨v,bound,hv,hbound,hle⟩,_⟩ := added_eq_some.mp ha
  have hms : timestampDiff millisecond 4600000000 1000000000 = 3600000 := by decide
  have hacbound : (energyReconstructed lifetimeSpec lifetimeTable).upperBound .ac =
      some (7 + max (1 / 20) (7 * (1 / 50))) :=
    acBound_of_power lifetime_maximum.1 (by norm_num) (show _ = some 4600000000 from rfl)
      (by rw [show (energyReconstructed lifetimeSpec lifetimeTable).spec.startedAt = 1000000000
        from rfl,hms]; norm_num)
  obtain rfl : 100 = v := Option.some.inj (hac.symm.trans hv)
  obtain rfl := Option.some.inj (hacbound.symm.trans hbound)
  norm_num at hle

end Lifetime

end Woodhouse.Charging
