import Woodhouse.Charging.Energy
import Woodhouse.Intervals.Steps

namespace Woodhouse.Charging
open Sql Intervals

section Points
variable {counterAt ended : Int} {candidates : List PowerReading} {r : PowerReading}

/-- The carried reading is the latest one not after the counter. -/
theorem priorPower_latest (h : priorPower counterAt candidates = some r) :
    r ∈ candidates ∧ r.sourceTimestamp ≤ counterAt ∧
      ∀ q ∈ candidates, q.sourceTimestamp ≤ counterAt → q.sourceTimestamp ≤ r.sourceTimestamp := by
  obtain ⟨hr,hfirst⟩ := head?_orderBy h
  obtain ⟨hmem,hle⟩ := List.mem_filter.mp hr
  refine ⟨hmem,of_decide_eq_true hle,?_⟩
  intro q hq hqle
  have hkey := hfirst q (List.mem_filter.mpr ⟨hq,decide_eq_true hqle⟩)
  exact OrderDual.toDual_le_toDual.mp (Prod.Lex.monotone_fst _ _ hkey)

theorem exists_priorPower (hr : r ∈ candidates) (hle : r.sourceTimestamp ≤ counterAt) :
    ∃ q, priorPower counterAt candidates = some q := by
  have hmem : r ∈ orderBy PowerReading.priorKey
      (candidates.filter (fun q => q.sourceTimestamp ≤ counterAt)) :=
    mem_orderBy.mpr (List.mem_filter.mpr ⟨hr,decide_eq_true hle⟩)
  exact ⟨_,List.head?_eq_some_head (List.ne_nil_of_mem hmem)⟩

/-- The readings that give points: the carried one and those after the counter. -/
def pointReadings (counterAt : Int) (candidates : List PowerReading) : List PowerReading :=
  (priorPower counterAt candidates).toList ++
    candidates.filter (fun r => counterAt < r.sourceTimestamp)

theorem mem_pointReadings : r ∈ pointReadings counterAt candidates ↔
    priorPower counterAt candidates = some r ∨
      (r ∈ candidates ∧ counterAt < r.sourceTimestamp) := by
  unfold pointReadings
  rw [List.mem_append,Option.mem_toList,List.mem_filter,decide_eq_true_iff]

theorem mem_of_pointReadings (h : r ∈ pointReadings counterAt candidates) : r ∈ candidates := by
  rcases mem_pointReadings.mp h with hprior | hlater
  · exact (priorPower_latest hprior).1
  · exact hlater.1

theorem pointAt_of_later (h : counterAt < r.sourceTimestamp) :
    (powerPoint counterAt r).pointAt = r.sourceTimestamp := max_eq_left h.le

theorem pointAt_of_prior (h : priorPower counterAt candidates = some r) :
    (powerPoint counterAt r).pointAt = counterAt := max_eq_right (priorPower_latest h).2.1

theorem exists_of_tailPowerPoints {p : PowerPoint} (h : p ∈ tailPowerPoints counterAt candidates) :
    ∃ r ∈ pointReadings counterAt candidates, p = powerPoint counterAt r := by
  obtain ⟨r,hr,rfl⟩ := List.mem_map.mp h
  exact ⟨r,mem_orderBy.mp (mem_of_firstRows hr),rfl⟩

/-- Each instant that a reading gives has a point. -/
theorem exists_tailPowerPoint (h : r ∈ pointReadings counterAt candidates) :
    ∃ p ∈ tailPowerPoints counterAt candidates,
      p.pointAt = (powerPoint counterAt r).pointAt := by
  have hmem : r ∈ orderBy (fun r => OrderDual.toDual r.sourceTimestamp)
      (pointReadings counterAt candidates) := mem_orderBy.mpr h
  obtain ⟨q,hq,hkey⟩ : ∃ q ∈ firstRows (fun r => (powerPoint counterAt r).pointAt)
      (orderBy (fun r => OrderDual.toDual r.sourceTimestamp) (pointReadings counterAt candidates)),
      (powerPoint counterAt q).pointAt = (powerPoint counterAt r).pointAt := exists_firstRows hmem
  exact ⟨powerPoint counterAt q,List.mem_map.mpr ⟨q,hq,rfl⟩,hkey⟩

/-- The reading whose power counts from an instant on: at the counter the carried one, later the
first one of the instant. -/
def readingAt (counterAt : Int) (candidates : List PowerReading) (t : Int) : Option PowerReading :=
  if t = counterAt then priorPower counterAt candidates
  else (candidates.filter (fun r => r.sourceTimestamp = t)).head?

/-- The readings of the carried instant. -/
theorem filter_pointReadings_prior : (pointReadings counterAt candidates).filter
    (fun r => (powerPoint counterAt r).pointAt = counterAt) =
      (priorPower counterAt candidates).toList := by
  have hlater : (candidates.filter (fun r => counterAt < r.sourceTimestamp)).filter
      (fun r => (powerPoint counterAt r).pointAt = counterAt) = [] := by
    refine List.filter_eq_nil_iff.mpr ?_
    intro r hr hat
    have hlt : counterAt < r.sourceTimestamp := of_decide_eq_true (List.mem_filter.mp hr).2
    have hsame := of_decide_eq_true hat
    rw [pointAt_of_later hlt] at hsame
    omega
  unfold pointReadings
  rw [List.filter_append,hlater,List.append_nil,List.filter_eq_self]
  intro r hr
  exact decide_eq_true (pointAt_of_prior (Option.mem_toList.mp hr))

/-- The readings of a later instant. -/
theorem filter_pointReadings_later {t : Int} (ht : counterAt < t) :
    (pointReadings counterAt candidates).filter (fun r => r.sourceTimestamp = t) =
      candidates.filter (fun r => r.sourceTimestamp = t) := by
  have hprior : (priorPower counterAt candidates).toList.filter
      (fun r => r.sourceTimestamp = t) = [] := by
    refine List.filter_eq_nil_iff.mpr ?_
    intro r hr hat
    have hle := (priorPower_latest (Option.mem_toList.mp hr)).2.1
    have hsame := of_decide_eq_true hat
    omega
  unfold pointReadings
  rw [List.filter_append,hprior,List.nil_append,List.filter_filter]
  refine List.filter_congr ?_
  intro r _
  by_cases hat : r.sourceTimestamp = t
  · simp [hat,ht]
  · simp [hat]

/-- A reading gives the point of its instant where its power counts. -/
theorem head_of_instant {t : Int} (ht : counterAt ≤ t) :
    ((orderBy (fun r => OrderDual.toDual r.sourceTimestamp)
      (pointReadings counterAt candidates)).filter
        (fun r => (powerPoint counterAt r).pointAt = t)).head? = readingAt counterAt candidates t := by
  unfold readingAt
  rcases ht.eq_or_lt with rfl | hlt
  · have hperm := (orderBy_perm (fun r : PowerReading => OrderDual.toDual r.sourceTimestamp)
      (pointReadings counterAt candidates)).filter
        (fun r => decide ((powerPoint counterAt r).pointAt = counterAt))
    rw [filter_pointReadings_prior] at hperm
    rw [if_pos rfl]
    cases hprior : priorPower counterAt candidates with
    | none =>
      rw [hprior] at hperm
      rw [List.perm_nil.mp hperm]
      rfl
    | some r =>
      rw [hprior] at hperm
      rw [List.perm_singleton.mp hperm]
      rfl
  · have hinstant : ∀ r : PowerReading, decide ((powerPoint counterAt r).pointAt = t) =
        decide (OrderDual.toDual r.sourceTimestamp = OrderDual.toDual t) := by
      intro r
      refine decide_eq_decide.mpr ?_
      rw [OrderDual.toDual_inj]
      change max r.sourceTimestamp counterAt = t ↔ r.sourceTimestamp = t
      omega
    have hlater := orderBy_filter (fun r : PowerReading => OrderDual.toDual r.sourceTimestamp)
      (pointReadings counterAt candidates) (OrderDual.toDual t)
    rw [if_neg hlt.ne',List.filter_congr (fun r _ => hinstant r),hlater]
    simp only [OrderDual.toDual_inj]
    rw [filter_pointReadings_later hlt]

/-- The points: each instant from the counter on with the power that counts from there. -/
theorem mem_tailPowerPoints {p : PowerPoint} : p ∈ tailPowerPoints counterAt candidates ↔
    counterAt ≤ p.pointAt ∧
      ∃ r, readingAt counterAt candidates p.pointAt = some r ∧ r.numericValue = p.numericValue := by
  constructor
  · intro hp
    obtain ⟨r,hr,rfl⟩ := List.mem_map.mp hp
    have hle : counterAt ≤ (powerPoint counterAt r).pointAt := le_max_right _ _
    refine ⟨hle,r,?_,rfl⟩
    rw [← head_of_instant hle]
    exact mem_firstRows.mp hr
  · rintro ⟨hle,r,hr,hvalue⟩
    have hfirst := @head_of_instant counterAt candidates p.pointAt hle
    rw [hr] at hfirst
    have hat : (powerPoint counterAt r).pointAt = p.pointAt :=
      of_decide_eq_true (List.mem_filter.mp (List.mem_of_head? hfirst)).2
    rw [← hat] at hfirst
    have hpoint : powerPoint counterAt r = p := by
      cases p
      exact PowerPoint.mk.injEq .. ▸ ⟨hat,hvalue⟩
    rw [← hpoint]
    exact List.mem_map.mpr ⟨r,mem_firstRows.mpr hfirst,rfl⟩

theorem tailPowerPoints_nodup (counterAt : Int) (candidates : List PowerReading) :
    ((tailPowerPoints counterAt candidates).map PowerPoint.pointAt).Nodup := by
  unfold tailPowerPoints
  rw [List.map_map]
  exact firstRows_keys_nodup _ _

/-- The points in time order, as instants with their power. -/
def powerMarks (counterAt : Int) (candidates : List PowerReading) : List (Int × ℚ) :=
  (orderBy PowerPoint.pointAt (tailPowerPoints counterAt candidates)).map
    (fun p => (p.pointAt,p.numericValue))

theorem mem_powerMarks {m : Int × ℚ} : m ∈ powerMarks counterAt candidates ↔
    ∃ p ∈ tailPowerPoints counterAt candidates, m = (p.pointAt,p.numericValue) := by
  unfold powerMarks
  rw [List.mem_map]
  constructor
  · rintro ⟨p,hp,rfl⟩
    exact ⟨p,mem_orderBy.mp hp,rfl⟩
  · rintro ⟨p,hp,rfl⟩
    exact ⟨p,mem_orderBy.mpr hp,rfl⟩

theorem reading_of_powerMarks {m : Int × ℚ} (h : m ∈ powerMarks counterAt candidates) :
    ∃ r ∈ pointReadings counterAt candidates,
      m = ((powerPoint counterAt r).pointAt,r.numericValue) := by
  obtain ⟨p,hp,rfl⟩ := mem_powerMarks.mp h
  obtain ⟨r,hr,rfl⟩ := exists_of_tailPowerPoints hp
  exact ⟨r,hr,rfl⟩

/-- The points are at increasing instants from the counter to the session's end. -/
theorem powerMarks_marked (hcounter : counterAt ≤ ended)
    (hended : ∀ r ∈ candidates, r.sourceTimestamp ≤ ended) :
    Marked (powerMarks counterAt candidates) ended := by
  constructor
  · apply List.pairwise_map.mpr
    exact orderBy_strict (tailPowerPoints_nodup counterAt candidates)
  · intro m hm
    obtain ⟨r,hr,rfl⟩ := reading_of_powerMarks hm
    exact max_le (hended r (mem_of_pointReadings hr)) hcounter

/-- The marks: each instant from the counter on with the power that counts from there. -/
theorem mem_powerMarks_iff {m : Int × ℚ} : m ∈ powerMarks counterAt candidates ↔
    counterAt ≤ m.1 ∧ ∃ r, readingAt counterAt candidates m.1 = some r ∧ r.numericValue = m.2 := by
  rw [mem_powerMarks]
  constructor
  · rintro ⟨p,hp,rfl⟩
    exact mem_tailPowerPoints.mp hp
  · intro h
    exact ⟨⟨m.1,m.2⟩,mem_tailPowerPoints.mpr h,rfl⟩

/-- The marks after an instant are at the readings after it. -/
theorem later_powerMarks {t x : Int} (ht : counterAt ≤ t) :
    (∀ m ∈ powerMarks counterAt candidates, t < m.1 → x ≤ m.1) ↔
      ∀ q ∈ candidates, t < q.sourceTimestamp → x ≤ q.sourceTimestamp := by
  constructor
  · intro h q hq hlt
    have hlater : counterAt < q.sourceTimestamp := lt_of_le_of_lt ht hlt
    obtain ⟨p,hp,hat⟩ := exists_tailPowerPoint (mem_pointReadings.mpr (.inr ⟨hq,hlater⟩))
    rw [pointAt_of_later hlater] at hat
    have hle := h _ (mem_powerMarks.mpr ⟨p,hp,rfl⟩) (hat ▸ hlt)
    exact hat ▸ hle
  · intro h m hm hlt
    obtain ⟨r,hr,rfl⟩ := reading_of_powerMarks hm
    rcases mem_pointReadings.mp hr with hprior | hlater
    · rw [pointAt_of_prior hprior] at hlt
      exact absurd hlt (not_lt.mpr ht)
    · rw [pointAt_of_later hlater.2] at hlt ⊢
      exact h r hlater.1 hlt

theorem counterAt_le_powerMarks {m : Int × ℚ} (h : m ∈ powerMarks counterAt candidates) :
    counterAt ≤ m.1 := by
  obtain ⟨r,_,rfl⟩ := reading_of_powerMarks h
  exact le_max_right _ _

/-- A piece of the step function as a row of `tail_power_segments`. -/
def pieceSegment (p : Span Int × ℚ) : PowerSegment :=
  { pointAt := p.1.1, numericValue := p.2, until_ := p.1.2 }

theorem tailPowerSegments_pieces (ended : Int) (points : List PowerPoint) :
    tailPowerSegments ended points =
      (pieces ended ((orderBy PowerPoint.pointAt points).map
        (fun p => (p.pointAt,p.numericValue)))).map pieceSegment := by
  unfold tailPowerSegments
  generalize orderBy PowerPoint.pointAt points = rows
  induction rows with
  | nil => rfl
  | cons p rest ih =>
    rw [overLead_cons,List.map_cons,List.map_cons,pieces,List.map_cons,ih,List.head?_map,
      Option.map_map]
    rfl

end Points

section Emission
variable {spec : TailSpec} {kind : EnergyKind} {table : List Reading} {counterAt ended : Int}

theorem mem_sessionPower {r : PowerReading} (h : r ∈ sessionPower spec kind table) :
    ∃ o ∈ table, powerReading spec kind o = some r := List.mem_filterMap.mp h

theorem powerReading_some {o : Reading} {r : PowerReading}
    (h : powerReading spec kind o = some r) :
    isReading spec.vehicleId kind.powerField o = true ∧ o.numericValue = some r.numericValue ∧
      o.sourceTimestamp = r.sourceTimestamp ∧ 0 ≤ r.numericValue ∧
      spec.startedAt ≤ r.sourceTimestamp ∧
      ∃ e, spec.endedAt = some e ∧ r.sourceTimestamp ≤ e := by
  unfold powerReading at h
  cases hpower : o.numericValue with
  | none => simp [hpower] at h
  | some power =>
    simp only [hpower] at h
    split at h
    · rename_i hcond
      obtain ⟨hreading,hnonneg,hbetween⟩ := hcond
      obtain ⟨x,l,e,hx,hl,he,hlx,hxe⟩ := holds_isBetween.mp hbetween
      cases hx
      cases hl
      cases h
      exact ⟨hreading,rfl,rfl,hnonneg,hlx,e,he,hxe⟩
    · cases h

theorem mem_tailPowerCandidates {r : PowerReading}
    (h : r ∈ tailPowerCandidates spec kind table) : r ∈ sessionPower spec kind table := by
  unfold tailPowerCandidates at h
  split at h
  · exact h
  · cases h

theorem candidate_within (hend : spec.endedAt = some ended) {r : PowerReading}
    (h : r ∈ tailPowerCandidates spec kind table) : r.sourceTimestamp ≤ ended := by
  obtain ⟨o,_,ho⟩ := mem_sessionPower (mem_tailPowerCandidates h)
  obtain ⟨_,_,_,_,_,e,he,hle⟩ := powerReading_some ho
  rw [hend,Option.some.injEq] at he
  exact he ▸ hle

theorem candidate_nonneg {r : PowerReading} (h : r ∈ tailPowerCandidates spec kind table) :
    0 ≤ r.numericValue := by
  obtain ⟨o,_,ho⟩ := mem_sessionPower (mem_tailPowerCandidates h)
  exact (powerReading_some ho).2.2.2.1

/-- The power marks of a tail. -/
def tailMarks (spec : TailSpec) (kind : EnergyKind) (table : List Reading) (counterAt : Int) :
    List (Int × ℚ) :=
  powerMarks counterAt (tailPowerCandidates spec kind table)

theorem tailSegments_pieces (counterAt ended : Int) :
    tailSegments spec kind table counterAt ended =
      (pieces ended (tailMarks spec kind table counterAt)).map pieceSegment :=
  tailPowerSegments_pieces ended _

theorem tailSegments_starts (counterAt ended : Int) :
    (tailSegments spec kind table counterAt ended).map (fun s => s.pointAt) =
      (tailMarks spec kind table counterAt).map Prod.fst := by
  rw [tailSegments_pieces,List.map_map]
  exact pieces_starts ended _

theorem tailMarks_marked (hend : spec.endedAt = some ended) (hle : counterAt ≤ ended) :
    Marked (tailMarks spec kind table counterAt) ended :=
  powerMarks_marked hle (fun _ hr => candidate_within hend hr)

theorem milliseconds_nonneg {s t : Int} (h : t ≤ s) : 0 ≤ timestampDiff millisecond s t :=
  Int.tdiv_nonneg (sub_nonneg.mpr h) (by decide)

theorem segment_nonneg (hend : spec.endedAt = some ended) (hle : counterAt ≤ ended)
    {s : PowerSegment} (hs : s ∈ tailSegments spec kind table counterAt ended) :
    0 ≤ s.numericValue ∧ 0 ≤ s.milliseconds := by
  rw [tailSegments_pieces] at hs
  obtain ⟨p,hp,rfl⟩ := List.mem_map.mp hs
  refine ⟨?_,milliseconds_nonneg ((tailMarks_marked hend hle).ordered hp)⟩
  obtain ⟨front,m,back,hmarks,rfl⟩ := mem_pieces hp
  have hm : m ∈ tailMarks spec kind table counterAt := by
    rw [hmarks]
    exact List.mem_append_right _ List.mem_cons_self
  obtain ⟨r,hr,rfl⟩ := reading_of_powerMarks hm
  exact candidate_nonneg (mem_of_pointReadings hr)

theorem kwh_nonneg {s : PowerSegment} (hpower : 0 ≤ s.numericValue) (hlong : 0 ≤ s.milliseconds) :
    0 ≤ s.kwh := by
  have hms : (0 : ℚ) ≤ s.milliseconds := by exact_mod_cast hlong
  exact div_nonneg (mul_nonneg hpower hms) (by norm_num)

/-- The conditions under which a tail is the integral of the power points. -/
structure TailIntegrated (spec : TailSpec) (kind : EnergyKind) (table : List Reading)
    (counterAt ended : Int) : Prop where
  counter : spec.counterObservedAt kind = some counterAt
  ends : spec.endedAt = some ended
  noAnomaly : spec.counterAnomalies kind = some 0
  valid : invalidTailObservations spec kind table = 0
  long : 1 ≤ timestampDiff second ended counterAt
  short : timestampDiff second ended counterAt ≤ 300
  covered : ((tailSegments spec kind table counterAt ended).map (fun s => s.pointAt)).min? =
    some counterAt

theorem le_of_seconds {s t : Int} (h : 1 ≤ timestampDiff second s t) : t ≤ s := by
  by_contra hlt
  have hneg : 0 ≤ (t - s).tdiv second := Int.tdiv_nonneg (by omega) (by decide)
  unfold timestampDiff at h
  rw [← neg_sub,Int.neg_tdiv] at h
  omega

theorem holds_equals {α : Type} [DecidableEq α] {a b : Option α} :
    holds (equals a b) = true ↔ ∃ x, a = some x ∧ b = some x := by
  cases a with
  | none => simp [equals]
  | some x =>
    cases b with
    | none => simp [equals]
    | some y => simp [equals,eq_comm]

theorem equals_some {α : Type} [DecidableEq α] {a : Option α} {b : α} :
    holds (equals a (some b)) = true ↔ a = some b := by
  rw [holds_equals]
  constructor
  · rintro ⟨x,rfl,hx⟩
    exact hx.symm
  · intro h
    exact ⟨b,h,rfl⟩

theorem tailSeconds_some {n : Int} : spec.tailSeconds kind = some n ↔
    ∃ e c, spec.endedAt = some e ∧ spec.counterObservedAt kind = some c ∧
      timestampDiff second e c = n := by
  unfold TailSpec.tailSeconds
  rw [Option.map₂_eq_some_iff]
  rfl

theorem integratedTails_some (hcounter : spec.counterObservedAt kind = some counterAt)
    (hend : spec.endedAt = some ended) : integratedTails spec kind table =
      (((tailSegments spec kind table counterAt ended).map (fun s => s.pointAt)).min?).map
        (fun coverage => ⟨coverage,
          ((tailSegments spec kind table counterAt ended).map PowerSegment.kwh).sum⟩) := by
  unfold integratedTails
  simp only [hcounter,hend]
  rfl

/-- The condition of the inner `IF`. -/
theorem tailIntegrated_iff :
    holds (truthAnd (truthAnd (truthAnd (spec.noAnomaly kind)
      (some (decide (invalidTailObservations spec kind table = 0))))
      (isBetween (spec.tailSeconds kind) (some 1) (some 300)))
      (equals ((integratedTails spec kind table).map IntegratedTail.coverageStartedAt)
        (spec.counterObservedAt kind))) = true ↔
      ∃ c e, TailIntegrated spec kind table c e := by
  rw [holds_truthAnd,holds_truthAnd,holds_truthAnd,holds_some,decide_eq_true_iff,TailSpec.noAnomaly,
    equals_some]
  constructor
  · rintro ⟨⟨⟨hanomaly,hvalid⟩,hbetween⟩,hcover⟩
    obtain ⟨n,l,u,hn,hl,hu,hln,hnu⟩ := holds_isBetween.mp hbetween
    cases hl
    cases hu
    obtain ⟨e,c,he,hc,rfl⟩ := tailSeconds_some.mp hn
    refine ⟨c,e,hc,he,hanomaly,hvalid,hln,hnu,?_⟩
    rw [hc,equals_some,integratedTails_some hc he,Option.map_map] at hcover
    simpa [Function.comp_def] using hcover
  · rintro ⟨c,e,h⟩
    refine ⟨⟨⟨h.noAnomaly,h.valid⟩,?_⟩,?_⟩
    · exact holds_isBetween.mpr ⟨_,1,300,tailSeconds_some.mpr ⟨e,c,h.ends,h.counter,rfl⟩,rfl,rfl,
        h.long,h.short⟩
    · rw [h.counter,equals_some,integratedTails_some h.counter h.ends,h.covered]
      rfl

theorem TailIntegrated.tailKwh (h : TailIntegrated spec kind table counterAt ended) :
    (integratedTails spec kind table).map IntegratedTail.tailKwh =
      some ((tailSegments spec kind table counterAt ended).map PowerSegment.kwh).sum := by
  rw [integratedTails_some h.counter h.ends,h.covered]
  rfl

theorem TailIntegrated.seconds (h : TailIntegrated spec kind table counterAt ended) :
    spec.tailSeconds kind ≠ some 0 := by
  intro hzero
  obtain ⟨e,c,he,hc,hn⟩ := tailSeconds_some.mp hzero
  have hlong := h.long
  rw [h.ends,Option.some.injEq] at he
  rw [h.counter,Option.some.injEq] at hc
  rw [he,hc,hn] at hlong
  omega

/-- When a tail is emitted, and which. -/
theorem energyTail_eq_some_iff {t : ℚ} : energyTailKwh spec kind table = some t ↔
    (spec.counterAnomalies kind = some 0 ∧ spec.tailSeconds kind = some 0 ∧ t = 0) ∨
      ∃ c e, TailIntegrated spec kind table c e ∧
        t = ((tailSegments spec kind table c e).map PowerSegment.kwh).sum := by
  have hzero : holds (truthAnd (spec.noAnomaly kind) (equals (spec.tailSeconds kind) (some 0))) =
      true ↔ spec.counterAnomalies kind = some 0 ∧ spec.tailSeconds kind = some 0 := by
    rw [holds_truthAnd,TailSpec.noAnomaly,equals_some,equals_some]
  unfold energyTailKwh
  by_cases h : spec.counterAnomalies kind = some 0 ∧ spec.tailSeconds kind = some 0
  · rw [if_pos (hzero.mpr h),Option.some.injEq]
    constructor
    · intro ht
      exact Or.inl ⟨h.1,h.2,ht.symm⟩
    · rintro (⟨_,_,ht⟩ | ⟨c,e,hint,_⟩)
      · exact ht.symm
      · exact absurd h.2 hint.seconds
  · rw [if_neg (fun hcond => h (hzero.mp hcond))]
    by_cases hint : ∃ c e, TailIntegrated spec kind table c e
    · rw [if_pos (tailIntegrated_iff.mpr hint)]
      obtain ⟨c,e,hint⟩ := hint
      rw [hint.tailKwh,Option.some.injEq]
      constructor
      · intro ht
        exact Or.inr ⟨c,e,hint,ht.symm⟩
      · rintro (⟨hanomaly,hseconds,_⟩ | ⟨c',e',hint',ht⟩)
        · exact absurd ⟨hanomaly,hseconds⟩ h
        · have hkwh := hint'.tailKwh
          rw [hint.tailKwh,Option.some.injEq] at hkwh
          rw [hkwh,ht]
    · rw [if_neg (fun hcond => hint (tailIntegrated_iff.mp hcond))]
      constructor
      · intro ht
        cases ht
      · rintro (⟨hanomaly,hseconds,_⟩ | ⟨c,e,hint',_⟩)
        · exact absurd ⟨hanomaly,hseconds⟩ h
        · exact absurd ⟨c,e,hint'⟩ hint

theorem TailIntegrated.le (h : TailIntegrated spec kind table counterAt ended) :
    counterAt ≤ ended := le_of_seconds h.long

/-- The kWh of a tail are those of power that flows. -/
theorem TailIntegrated.kwh_nonneg (h : TailIntegrated spec kind table counterAt ended) :
    ∀ x ∈ (tailSegments spec kind table counterAt ended).map PowerSegment.kwh, 0 ≤ x := by
  intro x hx
  obtain ⟨s,hs,rfl⟩ := List.mem_map.mp hx
  obtain ⟨hpower,hlong⟩ := segment_nonneg h.ends h.le hs
  exact Charging.kwh_nonneg hpower hlong

theorem energyTail_nonneg {t : ℚ} (h : energyTailKwh spec kind table = some t) : 0 ≤ t := by
  rcases energyTail_eq_some_iff.mp h with ⟨_,_,rfl⟩ | ⟨c,e,hint,rfl⟩
  · exact le_refl 0
  · exact List.sum_nonneg hint.kwh_nonneg

/-- The tail begins with a power observation at or before the counter. -/
theorem covered_iff :
    ((tailSegments spec kind table counterAt ended).map (fun s => s.pointAt)).min? =
      some counterAt ↔
    ∃ r ∈ tailPowerCandidates spec kind table, r.sourceTimestamp ≤ counterAt := by
  rw [tailSegments_starts,List.min?_eq_some_iff]
  constructor
  · rintro ⟨hmem,_⟩
    obtain ⟨m,hm,hmat⟩ := List.mem_map.mp hmem
    obtain ⟨r,hr,rfl⟩ := reading_of_powerMarks hm
    rcases mem_pointReadings.mp hr with hprior | hlater
    · exact ⟨r,(priorPower_latest hprior).1,(priorPower_latest hprior).2.1⟩
    · have hat := pointAt_of_later hlater.2
      have hlt := hlater.2
      simp only at hmat
      omega
  · rintro ⟨r,hr,hle⟩
    obtain ⟨q,hq⟩ := exists_priorPower hr hle
    obtain ⟨p,hp,hat⟩ := exists_tailPowerPoint (mem_pointReadings.mpr (Or.inl hq))
    refine ⟨?_,?_⟩
    · rw [pointAt_of_prior hq] at hat
      exact List.mem_map.mpr ⟨_,mem_powerMarks.mpr ⟨p,hp,rfl⟩,hat⟩
    · intro t ht
      obtain ⟨m,hm,rfl⟩ := List.mem_map.mp ht
      exact counterAt_le_powerMarks hm

theorem milliseconds_pos {t u : Int} :
    0 < timestampDiff millisecond u t ↔ t + millisecond ≤ u := by
  unfold timestampDiff millisecond
  rcases le_total t u with hle | hle
  · rw [Int.tdiv_eq_ediv_of_nonneg (sub_nonneg.mpr hle)]
    omega
  · have hneg : 0 ≤ (t - u).tdiv 1000 := Int.tdiv_nonneg (sub_nonneg.mpr hle) (by decide)
    rw [← neg_sub,Int.neg_tdiv]
    omega

/-- Some power flows for a millisecond: from the counter or from a later reading on, with no other
reading and no end within it. -/
def PowerFlows (counterAt ended : Int) (candidates : List PowerReading) : Prop :=
  ∃ t r, counterAt ≤ t ∧ readingAt counterAt candidates t = some r ∧ 0 < r.numericValue ∧
    t + millisecond ≤ ended ∧
    ∀ q ∈ candidates, t < q.sourceTimestamp → t + millisecond ≤ q.sourceTimestamp

theorem powerFlows_iff (hend : spec.endedAt = some ended) (hle : counterAt ≤ ended) :
    (∃ p ∈ tailSegments spec kind table counterAt ended, 0 < p.numericValue ∧ 0 < p.milliseconds) ↔
      PowerFlows counterAt ended (tailPowerCandidates spec kind table) := by
  have hmarked : Marked (tailMarks spec kind table counterAt) ended := tailMarks_marked hend hle
  rw [tailSegments_pieces]
  constructor
  · rintro ⟨s,hs,hpower,hlong⟩
    obtain ⟨p,hp,rfl⟩ := List.mem_map.mp hs
    obtain ⟨hended,hlater⟩ := (hmarked.le_end_iff hp).mp (milliseconds_pos.mp hlong)
    obtain ⟨front,m,back,hmarks,rfl⟩ := mem_pieces hp
    have hm : m ∈ tailMarks spec kind table counterAt := by
      rw [hmarks]
      exact List.mem_append_right _ List.mem_cons_self
    obtain ⟨hfrom,r,hr,hvalue⟩ := mem_powerMarks_iff.mp hm
    exact ⟨m.1,r,hfrom,hr,hvalue ▸ hpower,hended,(later_powerMarks hfrom).mp hlater⟩
  · rintro ⟨t,r,hfrom,hr,hpower,hended,hlater⟩
    have hm : (t,r.numericValue) ∈ tailMarks spec kind table counterAt :=
      mem_powerMarks_iff.mpr ⟨hfrom,r,hr,rfl⟩
    obtain ⟨p,hp,hstart,hvalue⟩ : ∃ p ∈ pieces ended (tailMarks spec kind table counterAt),
        p.1.1 = t ∧ p.2 = r.numericValue := exists_piece hm
    rw [← hvalue] at hpower
    rw [← hstart] at hended hlater hfrom
    exact ⟨pieceSegment p,List.mem_map.mpr ⟨p,hp,rfl⟩,hpower,milliseconds_pos.mpr
      ((hmarked.le_end_iff hp).mpr ⟨hended,(later_powerMarks hfrom).mpr hlater⟩)⟩

theorem applicable_candidates (h : holds (spec.powerIsApplicable kind) = true) :
    tailPowerCandidates spec kind table = sessionPower spec kind table := if_pos h

end Emission

/-- A valid observation of a number. -/
def meter (t : Int) (messageId fieldName : String) (value : ℚ) : Reading :=
  { sourceTimestamp := t, vehicleId := "v", pubsubMessageId := messageId, fieldName
    stringValue := none, isInvalid := false, numericValue := some value }

/-- A valid observation of a text. -/
def state (t : Int) (messageId fieldName value : String) : Reading :=
  { sourceTimestamp := t, vehicleId := "v", pubsubMessageId := messageId, fieldName
    stringValue := some value, isInvalid := false, numericValue := none }

end Woodhouse.Charging
