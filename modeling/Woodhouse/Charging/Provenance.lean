import Woodhouse.Charging.Tails

namespace Woodhouse.Charging
open Sql

/-- The methods whose text begins with `measured_`. -/
def EnergyMethod.isMeasured (m : EnergyMethod) : Bool :=
  "measured_".toList.isPrefixOf m.text.toList

section Candidates
variable {r : Reconstructed} {kind : EnergyKind}

theorem anomalies_pos : holds (greater (r.spec.counterAnomalies kind) (some 0)) = true ↔
    0 < r.spec.anomalies kind := by
  unfold TailSpec.anomalies
  cases h : r.spec.counterAnomalies kind with
  | none => simp [greater]
  | some n => simp [greater]

theorem candidate_eq_some {v : ℚ} : r.candidate kind = some v ↔
    r.spec.anomalies kind = 0 ∧ ∃ counter, r.energyCounterKwh kind = some counter ∧
      v = counter + (r.energyTailKwh kind).getD 0 := by
  unfold Reconstructed.candidate
  by_cases h : 0 < r.spec.anomalies kind
  · rw [if_pos (anomalies_pos.mpr h)]
    constructor
    · intro hv
      cases hv
    · rintro ⟨hzero,_⟩
      omega
  · rw [if_neg (fun hcond => h (anomalies_pos.mp hcond)),Option.map_eq_some_iff]
    constructor
    · rintro ⟨counter,hcounter,rfl⟩
      exact ⟨by omega,counter,hcounter,rfl⟩
    · rintro ⟨_,counter,hcounter,rfl⟩
      exact ⟨counter,hcounter,rfl⟩

/-- A candidate within its bound. -/
def Reconstructed.IsAccepted (r : Reconstructed) (kind : EnergyKind) : Prop :=
  ∃ v bound, r.candidate kind = some v ∧ r.upperBound kind = some bound ∧ v ≤ bound

theorem isRejected_iff : holds (r.isRejected kind) = true ↔ ¬ r.IsAccepted kind := by
  unfold Reconstructed.isRejected Reconstructed.IsAccepted
  cases hcandidate : r.candidate kind with
  | none => simp
  | some v =>
    cases hbound : r.upperBound kind with
    | none => simp
    | some bound => simp [greater]

theorem accepted_of (h : r.IsAccepted kind) (x : Option ℚ) : r.accepted kind x = x :=
  if_neg (fun hrejected => isRejected_iff.mp hrejected h)

theorem accepted_none (h : ¬ r.IsAccepted kind) (x : Option ℚ) : r.accepted kind x = none :=
  if_pos (isRejected_iff.mpr h)

theorem added_eq_some {v : ℚ} : r.corrected.energyAddedKwh kind = some v ↔
    r.IsAccepted kind ∧ r.candidate kind = some v := by
  change r.accepted kind (r.candidate kind) = some v ↔ _
  by_cases h : r.IsAccepted kind
  · rw [accepted_of h,and_iff_right h]
  · rw [accepted_none h]
    constructor
    · intro hv
      cases hv
    · exact fun hv => absurd hv.1 h

/-- The method is a measured one exactly where the candidate is accepted. -/
theorem isMeasured_iff_accepted : (r.energyMethod kind).isMeasured = true ↔ r.IsAccepted kind := by
  unfold Reconstructed.energyMethod
  by_cases hanomaly : 0 < r.spec.anomalies kind
  · rw [if_pos hanomaly]
    refine iff_of_false (by decide) ?_
    rintro ⟨v,bound,hv,_⟩
    have hzero := (candidate_eq_some.mp hv).1
    omega
  rw [if_neg hanomaly]
  cases hcounter : r.energyCounterKwh kind with
  | none =>
    rw [if_pos Option.isNone_none]
    refine iff_of_false (by decide) ?_
    rintro ⟨v,bound,hv,_⟩
    obtain ⟨_,counter,hsome,_⟩ := candidate_eq_some.mp hv
    rw [hcounter] at hsome
    cases hsome
  | some counter =>
    rw [if_neg (by simp)]
    have hcandidate : r.candidate kind = some (counter + (r.energyTailKwh kind).getD 0) :=
      candidate_eq_some.mpr ⟨by omega,counter,hcounter,rfl⟩
    cases hbound : r.upperBound kind with
    | none =>
      rw [if_pos Option.isNone_none]
      refine iff_of_false (by decide) ?_
      rintro ⟨v,bound,_,hsome,_⟩
      rw [hbound] at hsome
      cases hsome
    | some bound =>
      rw [if_neg (by simp),hcandidate]
      by_cases hle : counter + (r.energyTailKwh kind).getD 0 ≤ bound
      · have hnot : ¬ holds (greater (some (counter + (r.energyTailKwh kind).getD 0))
            (some bound)) = true := by simpa [greater] using hle
        rw [if_neg hnot]
        refine iff_of_true ?_ ⟨_,bound,hcandidate,hbound,hle⟩
        split
        · decide
        · split
          · decide
          · decide
      · have habove : holds (greater (some (counter + (r.energyTailKwh kind).getD 0))
            (some bound)) = true := by simpa [greater] using hle
        rw [if_pos habove]
        refine iff_of_false (by decide) ?_
        rintro ⟨v,b,hv,hb,hvb⟩
        rw [hcandidate,Option.some.injEq] at hv
        rw [hbound,Option.some.injEq] at hb
        exact hle (hv ▸ hb ▸ hvb)

end Candidates

section Values
variable {spec : TailSpec} {kind : EnergyKind} {table : List Reading}

theorem energyCounter_eq_some {counter : ℚ} (h : energyCounterKwh spec kind = some counter) :
    0 ≤ counter ∧ ∃ end_, spec.observedEndEnergyKwh kind = some end_ := by
  unfold energyCounterKwh at h
  split at h
  · obtain ⟨a,b,ha,hb,rfl⟩ := Option.map₂_eq_some_iff.mp h
    obtain ⟨x,y,hx,_,_⟩ := Option.map₂_eq_some_iff.mp ha
    cases hb
    exact ⟨le_max_right _ _,x,hx⟩
  · cases h

/-- The counter column: the rise of the end counter over the baseline, at least 0. Without a
baseline, and below it by more than the tolerance, the end counter is taken whole. -/
def TailSpec.CounterDelta (spec : TailSpec) (kind : EnergyKind) (counter : ℚ) : Prop :=
  ∃ end_, spec.observedEndEnergyKwh kind = some end_ ∧
    ((∃ start, spec.startEnergyKwh kind = some start ∧ start - tolerance ≤ end_ ∧
        counter = max (end_ - start) 0) ∨
      ((∀ start, spec.startEnergyKwh kind = some start → end_ < start - tolerance) ∧
        counter = max end_ 0))

theorem counterDelta_of_counter {counter : ℚ} (h : energyCounterKwh spec kind = some counter) :
    spec.CounterDelta kind counter := by
  obtain ⟨_,end_,hend⟩ := energyCounter_eq_some h
  refine ⟨end_,hend,?_⟩
  unfold energyCounterKwh at h
  split at h
  · rw [hend] at h
    cases hstart : spec.startEnergyKwh kind with
    | none =>
      have hcounter : max end_ 0 = counter := by
        simpa [TailSpec.subtrahend,hstart,greatest] using h
      refine .inr ⟨?_,hcounter.symm⟩
      intro start hsome
      cases hsome
    | some start =>
      by_cases hreset : end_ < start - tolerance
      · have hcounter : max end_ 0 = counter := by
          simpa [TailSpec.subtrahend,hstart,hend,hreset,greater,greatest] using h
        refine .inr ⟨?_,hcounter.symm⟩
        intro start' hsome
        obtain rfl := Option.some.inj hsome
        exact hreset
      · have hcounter : max (end_ - start) 0 = counter := by
          simpa [TailSpec.subtrahend,hstart,hend,hreset,greater,greatest] using h
        exact .inl ⟨start,rfl,not_lt.mp hreset,hcounter.symm⟩
  · cases h

theorem candidate_nonneg_of_spec {v : ℚ}
    (h : (energyReconstructed spec table).candidate kind = some v) : 0 ≤ v := by
  obtain ⟨_,counter,hcounter,rfl⟩ := candidate_eq_some.mp h
  refine add_nonneg (energyCounter_eq_some hcounter).1 ?_
  cases htail : (energyReconstructed spec table).energyTailKwh kind with
  | none => exact le_refl 0
  | some t => exact energyTail_nonneg htail

end Values

section Quality
variable {r : Reconstructed}

/-- The end counter reaches the baseline from before the start, up to the tolerance. -/
def TailSpec.Reaches (spec : TailSpec) (kind : EnergyKind) : Prop :=
  ∃ start end_, spec.startEnergyKwh kind = some start ∧
    spec.observedEndEnergyKwh kind = some end_ ∧ start - tolerance ≤ end_

/-- What is left of the cascade when no earlier case applies. -/
theorem validated_cases (h : r.energyQuality = .validated) :
    (r.spec.anomalies .ac = 0 ∧ r.spec.anomalies .dc = 0) ∧
      (∃ kind, (r.candidate kind).isSome = true) ∧
      ∀ kind, ¬ holds (r.isUnbounded kind) = true ∧
        ¬ holds (greater (r.candidate kind) (r.upperBound kind)) = true ∧
        ¬ holds (r.isReset kind) = true ∧ ¬ holds (r.lacksBaseline kind) = true := by
  unfold Reconstructed.energyQuality at h
  split at h
  · cases h
  rename_i hanomaly
  split at h
  · cases h
  rename_i hbound
  split at h
  · cases h
  rename_i hwithin
  split at h
  · cases h
  rename_i hsome
  split at h
  · cases h
  rename_i hreset
  split at h
  · cases h
  rename_i hbaseline
  rw [holds_truthOr,not_or] at hbound hwithin hreset hbaseline
  refine ⟨by omega,?_,?_⟩
  · by_contra hnone
    refine hsome ⟨?_,?_⟩
    · exact Option.not_isSome_iff_eq_none.mp (fun hac => hnone ⟨.ac,hac⟩) ▸ rfl
    · exact Option.not_isSome_iff_eq_none.mp (fun hdc => hnone ⟨.dc,hdc⟩) ▸ rfl
  · intro kind
    cases kind with
    | ac => exact ⟨hbound.1,hwithin.1,hreset.1,hbaseline.1⟩
    | dc => exact ⟨hbound.2,hwithin.2,hreset.2,hbaseline.2⟩

theorem accepted_of_bounded {kind : EnergyKind} {v : ℚ} (hv : r.candidate kind = some v)
    (hbound : ¬ holds (r.isUnbounded kind) = true)
    (hwithin : ¬ holds (greater (r.candidate kind) (r.upperBound kind)) = true) :
    r.IsAccepted kind := by
  unfold Reconstructed.isUnbounded at hbound
  cases hb : r.upperBound kind with
  | none => simp [hv,hb] at hbound
  | some bound =>
    refine ⟨v,bound,hv,hb,?_⟩
    simpa [hv,hb,greater] using hwithin

theorem reaches_of_baseline {kind : EnergyKind} {v end_ : ℚ} (hv : r.candidate kind = some v)
    (hend : r.spec.observedEndEnergyKwh kind = some end_)
    (hreset : ¬ holds (r.isReset kind) = true) (hbaseline : ¬ holds (r.lacksBaseline kind) = true) :
    r.spec.Reaches kind := by
  unfold Reconstructed.lacksBaseline at hbaseline
  unfold Reconstructed.isReset at hreset
  cases hstart : r.spec.startEnergyKwh kind with
  | none => simp [hv,hstart] at hbaseline
  | some start =>
    refine ⟨start,end_,hstart,hend,?_⟩
    simpa [hv,hstart,hend,greater] using hreset

end Quality

/-- The values of a charge session, their methods and their quality agree. -/
structure EnergyProvenance (r : Reconstructed) : Prop where
  measured : ∀ kind, (r.corrected.energyAddedKwh kind).isSome = true ↔
    (r.corrected.energyMethod kind).isMeasured = true
  value : ∀ kind v, r.corrected.energyAddedKwh kind = some v → ∃ counter bound,
    r.corrected.energyCounterKwh kind = some counter ∧
      v = counter + (r.corrected.energyTailKwh kind).getD 0 ∧
      r.spec.CounterDelta kind counter ∧
      r.corrected.energyUpperBoundKwh kind = some bound ∧ 0 ≤ v ∧ v ≤ bound
  validated : r.corrected.energyQuality = .validated →
    (∀ kind, r.spec.anomalies kind = 0) ∧
      (∃ kind, (r.corrected.energyAddedKwh kind).isSome = true) ∧
      ∀ kind v, r.candidate kind = some v →
        r.corrected.energyAddedKwh kind = some v ∧ r.spec.Reaches kind

section Witness

/-- A session of an hour with the last counter a minute before its end. -/
def meteredSpec : TailSpec :=
  { vehicleId := "v", startedAt := 0, endedAt := some 3600000000
    maximumPowerKw := fun | .ac => some 11 | .dc => none
    startEnergyKwh := fun | .ac => some 10 | .dc => none
    observedEndEnergyKwh := fun | .ac => some (35 / 2) | .dc => none
    counterObservedAt := fun | .ac => some 3540000000 | .dc => none
    counterAnomalies := fun _ => some 0 }

def meteredTable : List Reading := [meter 1800000000 "m1" "ACChargingPower" 6]

end Witness

end Woodhouse.Charging
