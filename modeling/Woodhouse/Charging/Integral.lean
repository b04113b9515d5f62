import Mathlib.Data.List.MinMax
import Woodhouse.Charging.Tails

namespace Woodhouse.Charging
open Sql Intervals

/-- The power at an instant: that of the latest reading up to then, and none before the first. -/
noncomputable def powerAt (readings : List PowerReading) (x : ℝ) : ℝ :=
  ((readings.filter (fun r => (r.sourceTimestamp : ℝ) ≤ x)).argmax
    (fun r => r.sourceTimestamp)).elim 0 (fun r => (r.numericValue : ℝ))

/-- The tail of a session is the integral of its power over the time from its last counter to
its end, and its pieces last as long as that time. Timestamps are microseconds. -/
structure ExactTail (spec : TailSpec) (kind : EnergyKind) (table : List Reading)
    (counterAt ended : Int) (t : ℚ) : Prop where
  integral : (t : ℝ) =
    (∫ x in (counterAt : ℝ)..ended, powerAt (sessionPower spec kind table) x) / 3600000000
  durations : ((tailSegments spec kind table counterAt ended).map PowerSegment.milliseconds).sum *
    1000 = ended - counterAt

section Power
variable {readings : List PowerReading} {r : PowerReading} {x : ℝ}

theorem powerAt_latest (hdistinct : (readings.map PowerReading.sourceTimestamp).Nodup)
    (hr : r ∈ readings) (hle : (r.sourceTimestamp : ℝ) ≤ x)
    (hlatest : ∀ q ∈ readings, (q.sourceTimestamp : ℝ) ≤ x →
      q.sourceTimestamp ≤ r.sourceTimestamp) : powerAt readings x = r.numericValue := by
  have hmem : r ∈ readings.filter (fun q => (q.sourceTimestamp : ℝ) ≤ x) :=
    List.mem_filter.mpr ⟨hr,decide_eq_true hle⟩
  unfold powerAt
  cases hmax : (readings.filter (fun q => (q.sourceTimestamp : ℝ) ≤ x)).argmax
      (fun q => q.sourceTimestamp) with
  | none =>
    rw [List.argmax_eq_none.mp hmax] at hmem
    cases hmem
  | some m =>
    obtain ⟨hm,hmle⟩ := List.mem_filter.mp (List.argmax_mem hmax)
    have hge : r.sourceTimestamp ≤ m.sourceTimestamp := List.le_of_mem_argmax hmem hmax
    have heq : m.sourceTimestamp = r.sourceTimestamp :=
      le_antisymm (hlatest m hm (of_decide_eq_true hmle)) hge
    rw [List.inj_on_of_nodup_map hdistinct hm hr heq]
    rfl

end Power

section Marks
variable {counterAt ended : Int} {candidates : List PowerReading} {p : Span Int × ℚ} {x : ℝ}

/-- Between two marks the latest reading is the one of the mark before. -/
theorem powerAt_piece (hdistinct : (candidates.map PowerReading.sourceTimestamp).Nodup)
    (hmarked : Marked (powerMarks counterAt candidates) ended)
    (hp : p ∈ pieces ended (powerMarks counterAt candidates))
    (hlow : (p.1.1 : ℝ) < x) (hhigh : x < (p.1.2 : ℝ)) : powerAt candidates x = (p.2 : ℝ) := by
  obtain ⟨front,m,back,hmarks,hpiece⟩ := mem_pieces hp
  have hm : m ∈ powerMarks counterAt candidates := by
    rw [hmarks]
    exact List.mem_append_right _ List.mem_cons_self
  obtain ⟨r,hr,rfl⟩ := reading_of_powerMarks hm
  have hstart : p.1.1 = (powerPoint counterAt r).pointAt := by rw [hpiece]
  have hvalue : p.2 = r.numericValue := by rw [hpiece]
  rw [hvalue]
  refine powerAt_latest hdistinct (mem_of_pointReadings hr) ?_ ?_
  · have hle : r.sourceTimestamp ≤ p.1.1 := by
      rw [hstart]
      exact le_max_left _ _
    have hcast : (r.sourceTimestamp : ℝ) ≤ p.1.1 := by exact_mod_cast hle
    exact hcast.trans hlow.le
  · intro q hq hqx
    by_cases hlater : counterAt < q.sourceTimestamp
    · -- A reading after the counter has a mark, which is not after this piece's beginning.
      have hpoint := exists_tailPowerPoint (mem_pointReadings.mpr (Or.inr ⟨hq,hlater⟩))
      obtain ⟨point,hpoint,hat⟩ := hpoint
      rw [pointAt_of_later hlater] at hat
      have hqhigh : (q.sourceTimestamp : ℝ) < p.1.2 := hqx.trans_lt hhigh
      have hqlt : point.pointAt < p.1.2 := by
        rw [hat]
        exact_mod_cast hqhigh
      have hle := hmarked.le_start hp (mem_powerMarks.mpr ⟨point,hpoint,rfl⟩) hqlt
      simp only [hat,hstart] at hle
      rcases mem_pointReadings.mp hr with hprior | hrlater
      · rw [pointAt_of_prior hprior] at hle
        omega
      · rwa [pointAt_of_later hrlater.2] at hle
    · rw [not_lt] at hlater
      rcases mem_pointReadings.mp hr with hprior | hrlater
      · exact (priorPower_latest hprior).2.2 q hq hlater
      · have hrlt := hrlater.2
        omega

/-- The first mark of covered marks is at the counter. -/
theorem powerMarks_cons (hcovered : ∃ m ∈ powerMarks counterAt candidates, m.1 = counterAt)
    (hmarked : Marked (powerMarks counterAt candidates) ended) :
    ∃ v rest, powerMarks counterAt candidates = (counterAt,v) :: rest := by
  obtain ⟨m,hm,hat⟩ := hcovered
  cases hmarks : powerMarks counterAt candidates with
  | nil =>
    rw [hmarks] at hm
    cases hm
  | cons n rest =>
    have hge := counterAt_le_powerMarks (hmarks ▸ List.mem_cons_self : n ∈ _)
    have hsorted := hmarked.sorted
    rw [hmarks] at hm hsorted
    obtain ⟨k,v⟩ := n
    have hk : k = counterAt := by
      rcases List.mem_cons.mp hm with heq | hrest
      · rw [← hat,heq]
      · have hlt := (List.pairwise_cons.mp hsorted).1 m hrest
        simp only at hge hlt
        omega
    exact ⟨v,rest,by rw [hk]⟩

/-- The readings after the counter, and the end, are whole milliseconds from the counter. -/
structure WholeMilliseconds (counterAt ended : Int) (readings : List PowerReading) : Prop where
  later : ∀ r ∈ readings, counterAt < r.sourceTimestamp → millisecond ∣ r.sourceTimestamp - counterAt
  ends : millisecond ∣ ended - counterAt

theorem WholeMilliseconds.mark (h : WholeMilliseconds counterAt ended candidates) {m : Int × ℚ}
    (hm : m ∈ powerMarks counterAt candidates) : millisecond ∣ m.1 - counterAt := by
  obtain ⟨r,hr,rfl⟩ := reading_of_powerMarks hm
  rcases mem_pointReadings.mp hr with hprior | hlater
  · simp [pointAt_of_prior hprior]
  · simp only [pointAt_of_later hlater.2]
    exact h.later r hlater.1 hlater.2

theorem WholeMilliseconds.piece (h : WholeMilliseconds counterAt ended candidates)
    (hp : p ∈ pieces ended (powerMarks counterAt candidates)) :
    (pieceSegment p).milliseconds * 1000 = length p.1 := by
  obtain ⟨front,m,back,hmarks,rfl⟩ := mem_pieces hp
  have hm : m ∈ powerMarks counterAt candidates := by
    rw [hmarks]
    exact List.mem_append_right _ List.mem_cons_self
  have hnext : millisecond ∣ (back.head?.map Prod.fst).getD ended - counterAt := by
    cases back with
    | nil => exact h.ends
    | cons n back =>
      refine h.mark (m := n) ?_
      rw [hmarks]
      simp
  have hdvd := Int.dvd_sub hnext (h.mark hm)
  rw [sub_sub_sub_cancel_right] at hdvd
  exact Int.tdiv_mul_cancel hdvd

end Marks

section Exact
variable {spec : TailSpec} {kind : EnergyKind} {table : List Reading} {counterAt ended : Int}

theorem sum_milliseconds
    (hwhole : WholeMilliseconds counterAt ended (tailPowerCandidates spec kind table))
    {v : ℚ} {rest : List (Int × ℚ)} (hmarks : tailMarks spec kind table counterAt =
      (counterAt,v) :: rest) :
    ((tailSegments spec kind table counterAt ended).map PowerSegment.milliseconds).sum * 1000 =
      ended - counterAt := by
  have htotal := total_pieces ended (counterAt,v) rest
  rw [← hmarks] at htotal
  rw [← htotal,tailSegments_pieces,List.map_map,← List.sum_map_mul_right,total,List.map_map]
  congr 1
  refine List.map_congr_left ?_
  intro p hp
  exact hwhole.piece hp

theorem WholeMilliseconds.kwh
    (hwhole : WholeMilliseconds counterAt ended (tailPowerCandidates spec kind table))
    {p : Span Int × ℚ} (hp : p ∈ pieces ended (tailMarks spec kind table counterAt)) :
    ((pieceSegment p).kwh : ℝ) = p.2 * length ((p.1.1 : ℝ),(p.1.2 : ℝ)) * (3600000000)⁻¹ := by
  have hms : ((pieceSegment p).milliseconds * 1000 : ℝ) = length ((p.1.1 : ℝ),(p.1.2 : ℝ)) := by
    have hpiece := hwhole.piece hp
    unfold length at hpiece
    change ((pieceSegment p).milliseconds * 1000 : ℝ) = p.1.2 - p.1.1
    exact_mod_cast hpiece
  rw [← hms]
  unfold PowerSegment.kwh
  push_cast
  simp only [pieceSegment]
  ring

/-- The kWh of the pieces are their area in microseconds. -/
theorem sum_kwh (hwhole : WholeMilliseconds counterAt ended (tailPowerCandidates spec kind table)) :
    (((tailSegments spec kind table counterAt ended).map PowerSegment.kwh).sum : ℝ) =
      area (pieces (ended : ℝ) ((tailMarks spec kind table counterAt).map
        (fun m => ((m.1 : ℝ),(m.2 : ℝ))))) / 3600000000 := by
  rw [pieces_map (fun t : Int => (t : ℝ)) (fun v : ℚ => (v : ℝ)),area,tailSegments_pieces,
    Rat.cast_list_sum,div_eq_mul_inv,← List.sum_map_mul_right]
  simp only [List.map_map]
  congr 1
  refine List.map_congr_left ?_
  intro p hp
  exact hwhole.kwh hp

/-- A tail longer than a second is the integral of the session's power. -/
theorem exactTail {t : ℚ}
    (hcounter : spec.counterObservedAt kind = some counterAt) (hend : spec.endedAt = some ended)
    (hlong : 1 ≤ timestampDiff second ended counterAt)
    (hdistinct : ((sessionPower spec kind table).map PowerReading.sourceTimestamp).Nodup)
    (hwhole : WholeMilliseconds counterAt ended (sessionPower spec kind table))
    (htail : energyTailKwh spec kind table = some t) :
    ExactTail spec kind table counterAt ended t := by
  rcases energyTail_eq_some_iff.mp htail with ⟨_,hzero,_⟩ | ⟨c,e,hint,hsum⟩
  · obtain ⟨e,c,he,hc,hn⟩ := tailSeconds_some.mp hzero
    rw [hend,Option.some.injEq] at he
    rw [hcounter,Option.some.injEq] at hc
    rw [he,hc] at hlong
    omega
  · obtain rfl : counterAt = c := Option.some.inj (hcounter.symm.trans hint.counter)
    obtain rfl : ended = e := Option.some.inj (hend.symm.trans hint.ends)
    obtain ⟨r,hr,hrle⟩ := covered_iff.mp hint.covered
    have hpower : tailPowerCandidates spec kind table = sessionPower spec kind table := by
      unfold tailPowerCandidates at hr ⊢
      split at hr
      · rename_i happlicable
        rw [if_pos happlicable]
      · cases hr
    have hmarked : Marked (tailMarks spec kind table counterAt) ended :=
      tailMarks_marked hend hint.le
    have hfirst : ∃ m ∈ tailMarks spec kind table counterAt, m.1 = counterAt := by
      have hmin := hint.covered
      rw [tailSegments_starts] at hmin
      exact List.mem_map.mp (List.min?_mem hmin)
    obtain ⟨v,rest,hmarks⟩ := powerMarks_cons hfirst hmarked
    have hreal := hmarked.map (fun t : Int => (t : ℝ)) (fun v : ℚ => (v : ℝ)) Int.cast_strictMono
    have hmarks' : tailMarks spec kind table counterAt = (counterAt,v) :: rest := hmarks
    rw [hmarks',List.map_cons] at hreal
    have hvalues : ∀ p ∈ pieces (ended : ℝ) (((counterAt : ℝ),(v : ℝ)) ::
          rest.map (fun m => ((m.1 : ℝ),(m.2 : ℝ)))), ∀ x ∈ Set.Ioo p.1.1 p.1.2,
        powerAt (sessionPower spec kind table) x = p.2 := by
      intro p hp x hx
      have hp' : p ∈ pieces (ended : ℝ) (((counterAt,v) :: rest).map
          (fun m => ((m.1 : ℝ),(m.2 : ℝ)))) := hp
      rw [pieces_map (fun t : Int => (t : ℝ)) (fun v : ℚ => (v : ℝ)),← hmarks'] at hp'
      obtain ⟨q,hq,rfl⟩ := List.mem_map.mp hp'
      rw [← hpower] at hdistinct ⊢
      exact powerAt_piece hdistinct hmarked hq hx.1 hx.2
    rw [← hpower] at hwhole
    refine ⟨?_,sum_milliseconds hwhole hmarks⟩
    rw [hsum,sum_kwh hwhole,hmarks',List.map_cons,(integral_pieces hreal hvalues).2]

end Exact

section Brief

/-- A session of two seconds. -/
def briefSession : ChargeSession :=
  { vehicleId := "v", startedAt := 0, endedAt := some 2000000
    startStateMessageId := none, endStateMessageId := none }

/-- One counter after `c` microseconds, and power that rises after it. -/
def briefTable (c : Int) : List Reading :=
  [meter 0 "m1" "ACChargingPower" 7,meter c "m2" "ACChargingEnergyIn" 3,
   meter 1500000 "m3" "ACChargingPower" 11]

variable {c : Int}

theorem briefCounter (hlow : 0 ≤ c) (hhigh : c ≤ 1000000) :
    lastCounter briefSession .ac (briefTable c) = some (meter c "m2" "ACChargingEnergyIn" 3) := by
  have hrows : (briefTable c).filter (isCandidate (boundarySpec briefSession .ac .end_)) =
      [meter c "m2" "ACChargingEnergyIn" 3] := by
    have hin : holds (isBetween (some c) (some 0) (some 2000000)) = true :=
      holds_isBetween.mpr ⟨c,0,2000000,rfl,rfl,rfl,hlow,by omega⟩
    simp [briefTable,isCandidate,isReading,boundarySpec,briefSession,meter,
      EnergyKind.counterField,hin]
  unfold lastCounter selectedBoundary
  rw [hrows,orderBy_singleton]
  rfl

theorem briefPower : sessionPower (tailSpec briefSession 0 (briefTable c)) .ac (briefTable c) =
    [{ sourceTimestamp := 0, pubsubMessageId := "m1", numericValue := 7 },
     { sourceTimestamp := 1500000, pubsubMessageId := "m3", numericValue := 11 }] := by
  simp [sessionPower,briefTable,powerReading,tailSpec,briefSession,isReading,meter,
    EnergyKind.powerField,isBetween,atMost,greater]

theorem briefMaximum (hlow : 0 ≤ c) (hhigh : c ≤ 1000000) :
    maximumPowerKw briefSession 0 (briefTable c) .ac = some 11 ∧
      maximumPowerKw briefSession 0 (briefTable c) .dc = none := by
  have hend : c ≤ 2000000 := by omega
  constructor
  · simp [maximumPowerKw,briefTable,briefSession,isJoined,meter,EnergyKind.powerField,hlow,hend]
    norm_num
  · simp [maximumPowerKw,briefTable,briefSession,isJoined,meter,EnergyKind.powerField,hlow,hend]

theorem briefApplicable (hlow : 0 ≤ c) (hhigh : c ≤ 1000000) :
    holds ((tailSpec briefSession 0 (briefTable c)).powerIsApplicable .ac) = true := by
  obtain ⟨hac,hdc⟩ := briefMaximum hlow hhigh
  simp [TailSpec.powerIsApplicable,tailSpec,hac,hdc]

theorem briefAnomalies (hlow : 0 ≤ c) (hhigh : c ≤ 1000000) :
    counterAnomalies briefSession (briefTable c) .ac = some 0 := by
  have hrows : counterObservations briefSession .ac (briefTable c) =
      [meter c "m2" "ACChargingEnergyIn" 3] := by
    have hin : holds (isBetween (some c) (some 0) (some 2000000)) = true :=
      holds_isBetween.mpr ⟨c,0,2000000,rfl,rfl,rfl,hlow,by omega⟩
    simp [counterObservations,briefTable,briefSession,isReading,meter,EnergyKind.counterField,hin]
  simp [counterAnomalies,hrows,countAnomalies,over_lag,isAnomaly,greater]

/-- The tail of the session covers its whole rest. -/
theorem briefIntegrated (hlow : 0 ≤ c) (hhigh : c ≤ 1000000) :
    TailIntegrated (tailSpec briefSession 0 (briefTable c)) .ac (briefTable c) c 2000000 := by
  have hlong : 1000000 ≤ 2000000 - c := by omega
  refine ⟨?_,rfl,briefAnomalies hlow hhigh,rfl,?_,?_,?_⟩
  · simp only [tailSpec,briefCounter hlow hhigh,Option.map_some,meter]
  · unfold timestampDiff second
    rw [Int.tdiv_eq_ediv_of_nonneg (by omega)]
    omega
  · unfold timestampDiff second
    rw [Int.tdiv_eq_ediv_of_nonneg (by omega)]
    omega
  · refine covered_iff.mpr ?_
    rw [applicable_candidates (briefApplicable hlow hhigh),briefPower]
    exact ⟨_,List.mem_cons_self,hlow⟩

theorem briefTail (hlow : 0 ≤ c) (hhigh : c ≤ 1000000) :
    ∃ t, energyTailKwh (tailSpec briefSession 0 (briefTable c)) .ac (briefTable c) = some t :=
  ⟨_,energyTail_eq_some_iff.mpr (Or.inr ⟨c,2000000,briefIntegrated hlow hhigh,rfl⟩)⟩

end Brief

end Woodhouse.Charging
