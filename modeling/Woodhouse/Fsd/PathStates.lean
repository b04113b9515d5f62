import Mathlib.Order.WithBot
import Woodhouse.Drives.Paths
import Woodhouse.Drives.Refinement
import Woodhouse.Fsd.Partition
import Woodhouse.Sql.Join

namespace Woodhouse.Fsd
open Python Sql Ingest

section View

/-- A row of `drive_path_points` with its drive. -/
structure DrivePathPoint extends PathPoint where
  driveId : Option Str
  vehicleId : Option Str
  deriving DecidableEq

/-- A row of `drive_path`. -/
structure PathState extends DrivePathPoint where
  fsdState : State
  fsdConfidence : ℚ
  fsdInferenceMethod : InferenceMethod
  deriving DecidableEq

/-- The condition of the join with `drive_fsd_segments`, whose rows stand with their drive. -/
def isAlong (p : DrivePathPoint) (s : Option Str × FsdSegment) : Bool :=
  holds (equals s.1 p.driveId) && decide (s.2.startDistanceMiles ≤ p.distanceIntoDriveMiles) &&
    decide (p.distanceIntoDriveMiles ≤ s.2.endDistanceMiles)

/-- `ORDER BY start_distance_miles DESC, segment_index DESC`, where `NULL` comes last. -/
def segmentRank (r : DrivePathPoint × Option (Option Str × FsdSegment)) :
    (WithBot ℚ)ᵒᵈ ×ₗ (WithBot Nat)ᵒᵈ :=
  let start : WithBot ℚ := r.2.map (fun s => s.2.startDistanceMiles)
  let index : WithBot Nat := r.2.map (fun s => s.2.segmentIndex)
  toLex (OrderDual.toDual start,OrderDual.toDual index)

def pathState (r : DrivePathPoint × Option (Option Str × FsdSegment)) : PathState :=
  { toDrivePathPoint := r.1
    fsdState := (r.2.map (fun s => s.2.state)).getD .uncertain
    fsdConfidence := (r.2.map (fun s => s.2.confidence)).getD 0
    fsdInferenceMethod :=
      (r.2.map (fun s => s.2.inferenceMethod)).getD .insufficientCounterEvidence }

/-- `PARTITION BY drive_id, source_timestamp`. -/
def DrivePathPoint.key (p : DrivePathPoint) : Option Str × Int := (p.driveId,p.sourceTimestamp)

def drivePath (points : List DrivePathPoint) (segments : List (Option Str × FsdSegment)) :
    List PathState :=
  (firstRows (fun r => r.1.key) (orderBy segmentRank (leftJoin isAlong points segments))).map
    pathState

end View

/-- A row shows what a segment says. -/
def PathState.Shows (r : PathState) (s : Segment) : Prop :=
  r.fsdState = s.state ∧ r.fsdConfidence = s.confidence ∧
    r.fsdInferenceMethod = s.inferenceMethod

/-- Every point of a path has one row. It shows the segment that the point lies in, at the end
of a segment the one that starts there, if one does, and no certainty outside all of them. -/
structure PathStates (path : List PathPoint) (segments : List FsdSegment)
    (rows : List PathState) : Prop where
  once : (rows.map (fun r => r.toPathPoint)).Perm path
  within : ∀ r ∈ rows, ∀ s ∈ segments, s.startDistanceMiles ≤ r.distanceIntoDriveMiles →
    r.distanceIntoDriveMiles < s.endDistanceMiles → r.Shows s.toSegment
  ends : ∀ r ∈ rows, ∀ s ∈ segments, r.distanceIntoDriveMiles = s.endDistanceMiles →
    (∀ s' ∈ segments, s'.startDistanceMiles ≠ s.endDistanceMiles) → r.Shows s.toSegment
  outside : ∀ r ∈ rows, (∀ s ∈ segments, ¬ (s.startDistanceMiles ≤ r.distanceIntoDriveMiles ∧
    r.distanceIntoDriveMiles ≤ s.endDistanceMiles)) →
      r.fsdState = .uncertain ∧ r.fsdConfidence = 0 ∧
        r.fsdInferenceMethod = .insufficientCounterEvidence

section Rows
variable {points : List DrivePathPoint} {segments : List (Option Str × FsdSegment)}
  {r : PathState}

theorem isAlong_iff {p : DrivePathPoint} {id : Option Str} {s : FsdSegment} :
    isAlong p (id,s) = true ↔ (∃ v, id = some v ∧ p.driveId = some v) ∧
      s.startDistanceMiles ≤ p.distanceIntoDriveMiles ∧
      p.distanceIntoDriveMiles ≤ s.endDistanceMiles := by
  unfold isAlong
  rw [Bool.and_eq_true,Bool.and_eq_true,decide_eq_true_eq,decide_eq_true_eq,and_assoc]
  refine and_congr_left' ?_
  cases id with
  | none => simp [equals,holds]
  | some v =>
    cases hp : p.driveId with
    | none => simp [equals,holds]
    | some w => simp [equals,eq_comm]

/-- The row of a point is ranked first among the rows the join makes of it. -/
theorem mem_drivePath (h : r ∈ drivePath points segments) : ∃ s,
    r = pathState (r.toDrivePathPoint,s) ∧
    (r.toDrivePathPoint,s) ∈ leftJoin isAlong points segments ∧
    ∀ s', (r.toDrivePathPoint,s') ∈ leftJoin isAlong points segments →
      segmentRank (r.toDrivePathPoint,s) ≤ segmentRank (r.toDrivePathPoint,s') := by
  obtain ⟨⟨p,s⟩,hrow,rfl⟩ := List.mem_map.mp h
  obtain ⟨hmem,hleast⟩ := firstRows_least hrow
  exact ⟨s,rfl,hmem,fun s' hs' => hleast _ hs' rfl⟩

/-- Of the segments along a point, its row shows the last. -/
theorem shows_last {id : Option Str} {s : FsdSegment} (h : r ∈ drivePath points segments)
    (hs : (id,s) ∈ segments) (halong : isAlong r.toDrivePathPoint (id,s) = true)
    (hlast : ∀ id' s', (id',s') ∈ segments → isAlong r.toDrivePathPoint (id',s') = true →
      s' = s ∨ s'.startDistanceMiles < s.startDistanceMiles) : r.Shows s.toSegment := by
  obtain ⟨found,hr,hmem,hleast⟩ := mem_drivePath h
  have hpoint := mem_left_of_leftJoin hmem
  have hrank := hleast _ (mem_leftJoin_some.mpr ⟨hpoint,hs,halong⟩)
  cases found with
  | none => exact absurd halong ((mem_leftJoin_none.mp hmem).2 _ hs)
  | some t =>
    obtain ⟨_,ht,htalong⟩ := mem_leftJoin_some.mp hmem
    have hsame : t.2 = s := by
      rcases hlast t.1 t.2 ht htalong with heq | hlt
      · exact heq
      · have hle : s.startDistanceMiles ≤ t.2.startDistanceMiles := by
          rcases Prod.Lex.le_iff.mp hrank with hfirst | ⟨heq,_⟩
          · exact WithBot.coe_le_coe.mp hfirst.le
          · exact WithBot.coe_le_coe.mp heq.le
        exact absurd hle (not_le.mpr hlt)
    rw [hr,← hsame]
    exact ⟨rfl,rfl,rfl⟩

theorem shows_none (h : r ∈ drivePath points segments)
    (hnone : ∀ s ∈ segments, ¬ isAlong r.toDrivePathPoint s = true) :
    r.fsdState = .uncertain ∧ r.fsdConfidence = 0 ∧
      r.fsdInferenceMethod = .insufficientCounterEvidence := by
  obtain ⟨found,hr,hmem,_⟩ := mem_drivePath h
  cases found with
  | none =>
    rw [hr]
    exact ⟨rfl,rfl,rfl⟩
  | some t =>
    obtain ⟨_,ht,htalong⟩ := mem_leftJoin_some.mp hmem
    exact absurd htalong (hnone t ht)

end Rows

section OneDrive
variable {points : List DrivePathPoint} {segments : List (Option Str × FsdSegment)}
  {path : List PathPoint} {fsd : List FsdSegment} {id : Str}

/-- Of two points of a path one is the earlier. -/
theorem timesApart (htimes : path.Pairwise (fun p q => p.sourceTimestamp < q.sourceTimestamp))
    {p q : PathPoint} (hp : p ∈ path) (hq : q ∈ path)
    (ht : p.sourceTimestamp = q.sourceTimestamp) : p = q := by
  have : Std.Symm (fun a b : PathPoint => a.sourceTimestamp ≠ b.sourceTimestamp) :=
    ⟨fun _ _ h => h.symm⟩
  by_contra hne
  exact (htimes.imp ne_of_lt).forall hp hq hne ht

/-- Of two segments one ends before the other starts. -/
theorem segmentsApart
    (hordered : fsd.Pairwise (fun s s' => s.endDistanceMiles ≤ s'.startDistanceMiles))
    {s s' : FsdSegment} (hs : s ∈ fsd) (hs' : s' ∈ fsd) (hne : s' ≠ s) :
    s.endDistanceMiles ≤ s'.startDistanceMiles ∨ s'.endDistanceMiles ≤ s.startDistanceMiles := by
  have hsymm : Std.Symm (fun a b : FsdSegment => a.endDistanceMiles ≤ b.startDistanceMiles ∨
      b.endDistanceMiles ≤ a.startDistanceMiles) := ⟨fun _ _ h => h.symm⟩
  have hpairs : fsd.Pairwise (fun a b => a.endDistanceMiles ≤ b.startDistanceMiles ∨
      b.endDistanceMiles ≤ a.startDistanceMiles) := hordered.imp (fun h => .inl h)
  exact hpairs.forall hs hs' (Ne.symm hne)

variable {r : PathState}

theorem mem_path_of_row (hpoints : ∀ q ∈ points, q.driveId = some id → q.toPathPoint ∈ path)
    (hr : r ∈ drivePath points segments) (hid : r.driveId = some id) : r.toPathPoint ∈ path := by
  obtain ⟨_,_,hmem,_⟩ := mem_drivePath hr
  exact hpoints _ (mem_left_of_leftJoin hmem) hid

/-- The rows of a drive stand for its points, each once. -/
theorem rows_once (hpoints : ∀ q ∈ points, q.driveId = some id → q.toPathPoint ∈ path)
    (hpath : ∀ p ∈ path, ∃ q ∈ points, q.driveId = some id ∧ q.toPathPoint = p)
    (htimes : path.Pairwise (fun p q => p.sourceTimestamp < q.sourceTimestamp)) :
    (((drivePath points segments).filter (fun r => r.driveId = some id)).map
      (fun r => r.toPathPoint)).Perm path := by
  have hkeys : (drivePath points segments).Pairwise
      (fun r r' => r.toDrivePathPoint.key ≠ r'.toDrivePathPoint.key) := by
    have hnodup := firstRows_keys_nodup (fun r => DrivePathPoint.key (Prod.fst r))
      (orderBy segmentRank (leftJoin isAlong points segments))
    exact List.pairwise_map.mpr (List.pairwise_map.mp hnodup)
  have hrows : (((drivePath points segments).filter (fun r => r.driveId = some id)).map
      (fun r => r.toPathPoint)).Nodup := by
    refine List.pairwise_map.mpr ((hkeys.filter _).imp_of_mem ?_)
    intro r r' hr hr' hne heq
    have hid := of_decide_eq_true (List.mem_filter.mp hr).2
    have hid' := of_decide_eq_true (List.mem_filter.mp hr').2
    exact hne (Prod.ext (hid.trans hid'.symm) (congrArg PathPoint.sourceTimestamp heq))
  have hnodup : path.Nodup := by
    refine htimes.imp ?_
    rintro p q hlt rfl
    exact lt_irrefl _ hlt
  refine (List.perm_ext_iff_of_nodup hrows hnodup).mpr ?_
  intro p
  constructor
  · intro hp
    obtain ⟨r,hr,rfl⟩ := List.mem_map.mp hp
    obtain ⟨hr,hid⟩ := List.mem_filter.mp hr
    exact mem_path_of_row hpoints hr (of_decide_eq_true hid)
  · intro hp
    obtain ⟨q,hq,hid,rfl⟩ := hpath p hp
    obtain ⟨b,hb⟩ := leftJoin_keeps isAlong segments hq
    have hjoined : (q,b) ∈ orderBy segmentRank (leftJoin isAlong points segments) :=
      mem_orderBy.mpr hb
    obtain ⟨c,hc,hkey⟩ : ∃ c ∈ firstRows (fun r => r.1.key)
        (orderBy segmentRank (leftJoin isAlong points segments)), c.1.key = q.key :=
      exists_firstRows hjoined
    obtain ⟨hdrive,htime⟩ := Prod.mk.inj hkey
    have hrow : pathState c ∈ drivePath points segments := List.mem_map.mpr ⟨c,hc,rfl⟩
    have hcid : (pathState c).driveId = some id := hdrive.trans hid
    refine List.mem_map.mpr ⟨_,List.mem_filter.mpr ⟨hrow,decide_eq_true hcid⟩,?_⟩
    exact timesApart htimes (mem_path_of_row hpoints hrow hcid) hp htime

/-- Over segments in order, the rows of a drive show the segments that its points lie in. -/
theorem pathStates_of_ordered
    (hpoints : ∀ q ∈ points, q.driveId = some id → q.toPathPoint ∈ path)
    (hpath : ∀ p ∈ path, ∃ q ∈ points, q.driveId = some id ∧ q.toPathPoint = p)
    (hsegments : ∀ s, (some id,s) ∈ segments ↔ s ∈ fsd)
    (htimes : path.Pairwise (fun p q => p.sourceTimestamp < q.sourceTimestamp))
    (hordered : fsd.Pairwise (fun s s' => s.endDistanceMiles ≤ s'.startDistanceMiles))
    (hlength : ∀ s ∈ fsd, s.startDistanceMiles < s.endDistanceMiles) :
    PathStates path fsd ((drivePath points segments).filter (fun r => r.driveId = some id)) := by
  have hdrive : ∀ {r : PathState}, r.driveId = some id → ∀ id' s',
      (id',s') ∈ segments → isAlong r.toDrivePathPoint (id',s') = true →
      s' ∈ fsd ∧ s'.startDistanceMiles ≤ r.distanceIntoDriveMiles ∧
        r.distanceIntoDriveMiles ≤ s'.endDistanceMiles := by
    intro r hid id' s' hs' halong
    obtain ⟨⟨v,rfl,hv⟩,hbounds⟩ := isAlong_iff.mp halong
    rw [hid] at hv
    exact ⟨(hsegments s').mp (hv ▸ hs'),hbounds⟩
  refine ⟨rows_once hpoints hpath htimes,?_,?_,?_⟩
  · intro r hr s hs hstart hend
    obtain ⟨hr,hid⟩ := List.mem_filter.mp hr
    have hid := of_decide_eq_true hid
    refine shows_last hr ((hsegments s).mpr hs)
      (isAlong_iff.mpr ⟨⟨id,rfl,hid⟩,hstart,hend.le⟩) ?_
    intro id' s' hs' halong
    obtain ⟨hmem,hbefore,_⟩ := hdrive hid id' s' hs' halong
    by_cases heq : s' = s
    · exact .inl heq
    · rcases segmentsApart hordered hs hmem heq with hlater | hearlier
      · exact absurd (hend.trans_le hlater) (not_lt.mpr hbefore)
      · exact .inr ((hlength s' hmem).trans_le hearlier)
  · intro r hr s hs hend hnone
    obtain ⟨hr,hid⟩ := List.mem_filter.mp hr
    have hid := of_decide_eq_true hid
    refine shows_last hr ((hsegments s).mpr hs)
      (isAlong_iff.mpr ⟨⟨id,rfl,hid⟩,hend ▸ (hlength s hs).le,hend.le⟩) ?_
    intro id' s' hs' halong
    obtain ⟨hmem,hbefore,_⟩ := hdrive hid id' s' hs' halong
    by_cases heq : s' = s
    · exact .inl heq
    · rcases segmentsApart hordered hs hmem heq with hlater | hearlier
      · exact absurd (le_antisymm (hend ▸ hbefore) hlater) (hnone s' hmem)
      · exact .inr ((hlength s' hmem).trans_le hearlier)
  · intro r hr hnone
    obtain ⟨hr,hid⟩ := List.mem_filter.mp hr
    have hid := of_decide_eq_true hid
    refine shows_none hr ?_
    intro s hs halong
    obtain ⟨hmem,hbounds⟩ := hdrive hid s.1 s.2 hs halong
    exact hnone s.2 hmem hbounds

end OneDrive

section Drives
variable {J : Type} (stDistance : Drives.GeogPoint → Drives.GeogPoint → ℚ) (now : Int)
  (ids : Drives.IdFunctions) (texts : Drives.JsonTexts J) (table : List (Observation J ℚ))
  (counters : Option Str → List CounterSnapshot)

/-- A row of `drive_path_points`, whose columns here are never `NULL`. -/
def pathPoint (p : Drives.DrivePathPoint) : Option PathPoint :=
  Option.map₂ (fun g x =>
    { sourceTimestamp := p.sourceTimestamp
      latitude := g.latitude
      longitude := g.longitude
      distanceIntoDriveMiles := x }) p.point p.distanceIntoDriveMiles

/-- The path of a drive. -/
def pathPoints (d : Drives.Drive) : List PathPoint :=
  (Drives.drivePath stDistance d now (Drives.driveMetricBoundaries ids texts table) table).filterMap
    pathPoint

def drivenMetrics (d : Drives.Drive) : Drives.DriveMetrics :=
  Drives.driveMetrics stDistance d now (Drives.driveMetricBoundaries ids texts table) table

/-- The segments of a drive, from the counter snapshots of its vehicle. -/
def drivenSegments (d : Drives.Drive) : List FsdSegment :=
  driveFsdSegments
    { startedAt := d.startedAt
      endedAt := d.endedAt
      bestAvailableDistanceMiles :=
        (drivenMetrics stDistance now ids texts table d).bestAvailableDistanceMiles }
    (pathPoints stDistance now ids texts table d) now (counters d.vehicleId)

/-- The rows of `drive_path` over one table of observations. -/
def drivePathView : List PathState :=
  let drives := Drives.drives ids (Drives.gearEvents texts table)
  drivePath
    (drives.flatMap (fun d => (pathPoints stDistance now ids texts table d).map (fun p =>
      { toPathPoint := p, driveId := d.driveId, vehicleId := d.vehicleId })))
    (drives.flatMap (fun d =>
      (drivenSegments stDistance now ids texts table counters d).map (fun s => (d.driveId,s))))

variable {stDistance now ids texts table counters} {d : Drives.Drive} {distance : ℚ}

theorem pathPoint_distance {row : Drives.DrivePathPoint} {p : PathPoint}
    (h : pathPoint row = some p) : p.sourceTimestamp = row.sourceTimestamp ∧
      row.distanceIntoDriveMiles = some p.distanceIntoDriveMiles := by
  obtain ⟨g,x,_,hx,rfl⟩ := Option.map₂_eq_some_iff.mp h
  exact ⟨rfl,hx⟩

/-- The distances of a path run in time from 0 to at most the distance of its drive. -/
theorem pathPoints_run (hdist : ∀ p q, 0 ≤ stDistance p q)
    (hbest : (drivenMetrics stDistance now ids texts table d).bestAvailableDistanceMiles =
      some distance) :
    (pathPoints stDistance now ids texts table d).Pairwise (fun p q =>
        p.sourceTimestamp < q.sourceTimestamp ∧
          p.distanceIntoDriveMiles ≤ q.distanceIntoDriveMiles) ∧
      ∀ p ∈ pathPoints stDistance now ids texts table d,
        0 ≤ p.distanceIntoDriveMiles ∧ p.distanceIntoDriveMiles ≤ distance := by
  let points := Drives.locationPoints d now table
  by_cases hnil : Drives.routeSegments points = []
  · have hnone : pathPoints stDistance now ids texts table d = [] := by
      unfold pathPoints Drives.drivePath Drives.drivePathPoints Drives.cumulative
      rw [hnil]
      rfl
    rw [hnone]
    exact ⟨List.Pairwise.nil,fun p hp => nomatch hp⟩
  have hrows : pathPoints stDistance now ids texts table d =
      ((Drives.cumulative stDistance points).map (Drives.drivePathPoint stDistance
        (some (Drives.routeLength stDistance points)) (some distance))).filterMap pathPoint := by
    unfold pathPoints Drives.drivePath Drives.drivePathPoints
    rw [Drives.cumulative_max hdist hnil]
    unfold drivenMetrics at hbest
    rw [hbest]
  have hpos : 0 ≤ distance :=
    Drives.bestDistance_nonneg (fun x hx => Drives.distanceMiles_nonneg hx) hbest
  obtain ⟨factor,hfactor,hscale,htotal⟩ := Drives.scaledDistance_factor
    (Drives.routeLength_nonneg hdist points) (fun b (hb : some distance = some b) =>
      Option.some.inj hb ▸ hpos)
  have hscaled : ∀ row ∈ Drives.cumulative stDistance points, ∀ x, row.2 = some x → ∀ p,
      pathPoint (Drives.drivePathPoint stDistance (some (Drives.routeLength stDistance points))
        (some distance) row) = some p → p.distanceIntoDriveMiles = x * factor := by
    intro row _ x hx p hp
    have hdistance := (pathPoint_distance hp).2
    unfold Drives.drivePathPoint at hdistance
    rw [hx,hscale] at hdistance
    exact (Option.some.inj hdistance).symm
  rw [hrows]
  constructor
  · refine List.pairwise_filterMap.mpr (List.pairwise_map.mpr ?_)
    refine ((Drives.cumulative_times Drives.locationPoints_nodup).and
      (Drives.cumulative_mono hdist)).imp_of_mem ?_
    rintro a b ha hb ⟨htime,x,y,hx,hy,hle⟩ p hp q hq
    rw [(pathPoint_distance hp).1,(pathPoint_distance hq).1,hscaled a ha x hx p hp,
      hscaled b hb y hy q hq]
    exact ⟨htime,mul_le_mul_of_nonneg_right hle hfactor⟩
  · intro p hp
    obtain ⟨row,hrow,hp⟩ := List.mem_filterMap.mp hp
    obtain ⟨a,ha,rfl⟩ := List.mem_map.mp hrow
    obtain ⟨x,hx,hval⟩ := Drives.cumulative_snd ha
    obtain ⟨hlow,hhigh⟩ := runningTotals_bounds
      (fun p _ => Drives.segmentLength_nonneg hdist p) x hx
    rw [hscaled a ha x hval p hp]
    refine ⟨mul_nonneg hlow hfactor,?_⟩
    exact (mul_le_mul_of_nonneg_right hhigh hfactor).trans (htotal distance rfl).1

theorem pathPoints_within (hdist : ∀ p q, 0 ≤ stDistance p q)
    (hbest : (drivenMetrics stDistance now ids texts table d).bestAvailableDistanceMiles =
      some distance) : PathWithin distance (pathPoints stDistance now ids texts table d) := by
  obtain ⟨hrun,hwithin⟩ := pathPoints_run hdist hbest
  refine ⟨?_,hwithin⟩
  intro p hp q hq hle
  by_cases heq : p = q
  · rw [heq]
  have hsymm : Std.Symm (fun a b : PathPoint =>
      (a.sourceTimestamp ≤ b.sourceTimestamp → a.distanceIntoDriveMiles ≤ b.distanceIntoDriveMiles) ∧
      (b.sourceTimestamp ≤ a.sourceTimestamp → b.distanceIntoDriveMiles ≤ a.distanceIntoDriveMiles)) :=
    ⟨fun _ _ h => h.symm⟩
  have hpairs : (pathPoints stDistance now ids texts table d).Pairwise (fun a b =>
      (a.sourceTimestamp ≤ b.sourceTimestamp → a.distanceIntoDriveMiles ≤ b.distanceIntoDriveMiles) ∧
      (b.sourceTimestamp ≤ a.sourceTimestamp →
        b.distanceIntoDriveMiles ≤ a.distanceIntoDriveMiles)) :=
    hrun.imp (fun h => ⟨fun _ => h.2,fun hback => absurd h.1 (not_lt.mpr hback)⟩)
  exact (hpairs.forall hp hq heq).1 hle

/-- The map of a drive: over one table of observations, every located point of a drive is shown
once, with the state of the segment of the drive that it lies in. -/
theorem drive_path_states {vehicleId : Str} (hdist : ∀ p q, 0 ≤ stDistance p q)
    (htext : Drives.ReadOffText texts table) (htimes : Drives.DistinctTimes (some vehicleId) table)
    (hids : Drives.IdsApart ids (Drives.drives ids (Drives.gearEvents texts table)))
    (hd : d ∈ Drives.drives ids (Drives.gearEvents texts table))
    (hv : d.vehicleId = some vehicleId)
    (hbest : (drivenMetrics stDistance now ids texts table d).bestAvailableDistanceMiles =
      some distance)
    (hspaced : ∀ p ∈ pathPoints stDistance now ids texts table d,
      ∀ q ∈ pathPoints stDistance now ids texts table d,
        p.sourceTimestamp < q.sourceTimestamp → p.sourceTimestamp + 1000 ≤ q.sourceTimestamp) :
    PathStates (pathPoints stDistance now ids texts table d)
      (drivenSegments stDistance now ids texts table counters d)
      ((drivePathView stDistance now ids texts table counters).filter
        (fun r => r.driveId = d.driveId)) := by
  have hsame : ∀ d' ∈ Drives.drives ids (Drives.gearEvents texts table),
      d'.driveId = d.driveId → d' = d := by
    intro d' hd' hid
    obtain ⟨hvehicle,hstart⟩ := hids.same hd hd' hv hid
    exact Drives.drive_of_start htext htimes hd hd' hv (hvehicle.trans hv) hstart
  obtain ⟨id,hid⟩ : ∃ id, d.driveId = some id := by
    rw [Drives.driveId_of_mem hd,hv]
    exact ⟨_,rfl⟩
  have hpos : 0 ≤ distance :=
    Drives.bestDistance_nonneg (fun x hx => Drives.distanceMiles_nonneg hx) hbest
  have hpath := pathPoints_within hdist hbest
  have hpartition : OrderedPartition distance _
      (drivenSegments stDistance now ids texts table counters d) :=
    orderedPartition_of_points _ hbest (mappedWithin hbest hpos hpath
      (fun s _ t _ hst => picksForward_of_spaced hspaced hst))
  rw [hid]
  refine pathStates_of_ordered ?_ ?_ ?_ ((pathPoints_run hdist hbest).1.imp And.left)
    hpartition.ordered (fun s hs => (hpartition.within s hs).2.1)
  · intro q hq hqid
    obtain ⟨d',hd',hq⟩ := List.mem_flatMap.mp hq
    obtain ⟨p,hp,rfl⟩ := List.mem_map.mp hq
    rw [hsame d' hd' (hqid.trans hid.symm)] at hp
    exact hp
  · intro p hp
    exact ⟨_,List.mem_flatMap.mpr ⟨d,hd,List.mem_map.mpr ⟨p,hp,rfl⟩⟩,hid,rfl⟩
  · intro s
    constructor
    · intro hs
      obtain ⟨d',hd',hs⟩ := List.mem_flatMap.mp hs
      obtain ⟨t,ht,heq⟩ := List.mem_map.mp hs
      obtain ⟨hid',rfl⟩ := Prod.mk.inj heq
      rw [hsame d' hd' (hid'.trans hid.symm)] at ht
      exact ht
    · intro hs
      exact List.mem_flatMap.mpr ⟨d,hd,List.mem_map.mpr ⟨s,hs,by rw [hid]⟩⟩

/-- The points of a path are observed. -/
theorem pathPoints_observed {p : PathPoint} (h : p ∈ pathPoints stDistance now ids texts table d) :
    ∃ o ∈ table, Drives.micros o.sourceTimestamp = p.sourceTimestamp := by
  obtain ⟨row,hrow,hp⟩ := List.mem_filterMap.mp h
  obtain ⟨a,ha,rfl⟩ := List.mem_map.mp hrow
  rw [(pathPoint_distance hp).1]
  have hfst : a.1.1 ∈ orderBy Drives.RoutePoint.observationTimestamp
      (Drives.locationPoints d now table) := by
    have hmem := List.mem_map_of_mem (f := Prod.fst) (List.mem_map_of_mem (f := Prod.fst) ha)
    unfold Drives.cumulative Drives.routeSegments at hmem
    rw [over_fst,over_fst] at hmem
    exact hmem
  obtain ⟨e,he,heq⟩ := List.mem_map.mp (mem_orderBy.mp hfst)
  obtain ⟨⟨k,g⟩,hg,rfl⟩ := List.mem_map.mp (List.mem_of_mem_filter he)
  obtain ⟨_,o,ho,hk⟩ := mem_groupBy.mp hg
  refine ⟨o,List.mem_of_mem_filter ho,?_⟩
  rw [hk]
  exact congrArg Drives.RoutePoint.observationTimestamp heq

end Drives

section Meridian
open Drives (newYear newYearIds plainTexts meridianDistance meridianPoint gearRow)

def tripObservation (t : Utc) (messageId field : String) (gear : Option Str)
    (latitude : Option ℚ) : Observation Str ℚ :=
  { sourceTimestamp := t, ingestedAt := t, processedAt := t, vehicleId := some (str "vehicle-1")
    recordType := str "V", fieldName := str field, isInvalid := false, numericValue := none
    stringValue := gear, booleanValue := none, latitude, longitude := latitude.map (fun _ => 0)
    valueJson := gear, telemetryConfigVersion := none, telemetryConfigHash := none
    transportMessageId := none, pubsubMessageId := str messageId
    telemetryClientVersion := none, telemetryReceiverVersion := str "v1"
    receiverRecordVersion := none }

/-- Two seconds of driving with three locations. -/
def mapTrip : List (Observation Str ℚ) :=
  [tripObservation newYear "m1" "Gear" (some (str "D")) none,
   tripObservation newYear "m2" "Location" none (some 0),
   tripObservation ⟨63839664001000000,by decide⟩ "m3" "Location" none (some (1 / 2000)),
   tripObservation ⟨63839664002000000,by decide⟩ "m4" "Gear" (some (str "P")) none,
   tripObservation ⟨63839664002000000,by decide⟩ "m4" "Location" none (some (1 / 1000))]

/-- The vehicle drives itself for the first second. -/
def mapCounters (_ : Option Str) : List CounterSnapshot :=
  [{ sourceTimestamp := 63839664000000000, pubsubMessageId := "m2", totalMiles := 100
     fsdMiles := 50, synchronizedPair := true, pairingGapSeconds := 0 },
   { sourceTimestamp := 63839664001000000, pubsubMessageId := "m3", totalMiles := 20007 / 200
     fsdMiles := 10007 / 200, synchronizedPair := true, pairingGapSeconds := 0 },
   { sourceTimestamp := 63839664002000000, pubsubMessageId := "m4", totalMiles := 10007 / 100
     fsdMiles := 10007 / 200, synchronizedPair := true, pairingGapSeconds := 0 }]

def mapDrive : Drives.Drive :=
  Drives.drive newYearIds
    { vehicleId := some (str "vehicle-1"), driveNumber := 1, startedAt := 63839664000000000
      startGearMessageId := some (str "m1"), endedAt := some 63839664002000000
      endGearMessageId := some (str "m4") } none none

theorem mapTrip_drives : Drives.drives newYearIds (Drives.gearEvents plainTexts mapTrip) =
    [mapDrive] := by
  have hsorted : orderBy Drives.fieldKey (mapTrip.filter (fun o => !o.isInvalid)) = mapTrip :=
    orderBy_of_pairwise (by decide)
  have hevents : Drives.gearEvents plainTexts mapTrip =
      [gearRow 63839664000000000 "m1" "D" true,gearRow 63839664002000000 "m4" "P" false] := by
    unfold Drives.gearEvents Drives.vehicleStateChanges Drives.ordered
    rw [hsorted]
    decide
  have hgears : Drives.vehicleGears (some (str "vehicle-1"))
      [gearRow 63839664000000000 "m1" "D" true,gearRow 63839664002000000 "m4" "P" false] =
      [gearRow 63839664000000000 "m1" "D" true,gearRow 63839664002000000 "m4" "P" false] :=
    orderBy_of_pairwise (by decide)
  rw [hevents]
  refine Drives.drives_single newYearIds (some (str "vehicle-1")) _ ?_ ?_
  · decide
  · rw [hgears]
    decide

theorem mapTrip_idsApart : Drives.IdsApart newYearIds
    (Drives.drives newYearIds (Drives.gearEvents plainTexts mapTrip)) :=
  Drives.single_drive mapTrip_drives

theorem mapTrip_readOff : Drives.ReadOffText plainTexts mapTrip := by
  refine Drives.plainTexts_readOff ?_
  intro o ho
  simp only [mapTrip,List.mem_cons,List.not_mem_nil,or_false] at ho
  rcases ho with rfl | rfl | rfl | rfl | rfl
  · rfl
  · rfl
  · rfl
  · rfl
  · rfl

theorem mapTrip_best (boundaries : List (Drives.MetricBoundary ℚ)) :
    (Drives.driveMetrics meridianDistance mapDrive 0 boundaries
      mapTrip).bestAvailableDistanceMiles.isSome = true := by
  have hpoints : Drives.routePoints mapDrive 0 mapTrip =
      [meridianPoint 63839664000000000 0,meridianPoint 63839664001000000 (1 / 2000),
        meridianPoint 63839664002000000 (1 / 1000)] := by
    decide +kernel
  have hsegments : Drives.routeSegments (Drives.routePoints mapDrive 0 mapTrip) =
      [(meridianPoint 63839664000000000 0,none),
        (meridianPoint 63839664001000000 (1 / 2000),some (meridianPoint 63839664000000000 0)),
        (meridianPoint 63839664002000000 (1 / 1000),
          some (meridianPoint 63839664001000000 (1 / 2000)))] := by
    unfold Drives.routeSegments
    rw [hpoints,orderBy_of_pairwise (by decide)]
    rfl
  have husable : (Drives.driveMetrics meridianDistance mapDrive 0 boundaries
      mapTrip).routeUsable = true := by
    have hroute : (Drives.routeSummary meridianDistance
        (Drives.routePoints mapDrive 0 mapTrip)).any (fun r =>
          holds (greater r.routeDistanceMiles (some 0)) && decide (2 ≤ r.routePointCount) &&
            decide (r.routeRejectedSegmentCount = 0)) = true := by
      unfold Drives.routeSummary
      rw [hsegments]
      decide +kernel
    obtain ⟨r,hr,hok⟩ := (Option.any_eq_true ..).mp hroute
    unfold Drives.DriveMetrics.routeUsable Drives.driveMetrics
    rw [hr]
    exact hok
  unfold Drives.DriveMetrics.bestAvailableDistanceMiles
  rw [if_pos husable]
  split
  · assumption
  · unfold Drives.DriveMetrics.routeUsable at husable
    rw [Bool.and_eq_true,Bool.and_eq_true] at husable
    obtain ⟨x,_,hx,_,_⟩ := holds_greater.mp husable.1.1
    rw [hx]
    rfl

theorem drive_path_states_mapTrip :
    PathStates (pathPoints meridianDistance 0 newYearIds plainTexts mapTrip mapDrive)
      (drivenSegments meridianDistance 0 newYearIds plainTexts mapTrip mapCounters mapDrive)
      ((drivePathView meridianDistance 0 newYearIds plainTexts mapTrip mapCounters).filter
        (fun r => r.driveId = mapDrive.driveId)) := by
  have hmem : mapDrive ∈ Drives.drives newYearIds (Drives.gearEvents plainTexts mapTrip) := by
    rw [mapTrip_drives]
    exact List.mem_cons_self
  obtain ⟨distance,hbest⟩ := Option.isSome_iff_exists.mp
    (mapTrip_best (Drives.driveMetricBoundaries newYearIds plainTexts mapTrip))
  refine drive_path_states Drives.meridianDistance_nonneg
    mapTrip_readOff (by decide) mapTrip_idsApart hmem rfl hbest ?_
  have hapart : ∀ o ∈ mapTrip, ∀ o' ∈ mapTrip,
      Drives.micros o.sourceTimestamp < Drives.micros o'.sourceTimestamp →
      Drives.micros o.sourceTimestamp + 1000 ≤ Drives.micros o'.sourceTimestamp := by
    decide
  intro p hp q hq hlt
  obtain ⟨o,ho,hot⟩ := pathPoints_observed hp
  obtain ⟨o',ho',hot'⟩ := pathPoints_observed hq
  rw [← hot,← hot'] at hlt ⊢
  exact hapart o ho o' ho' hlt

end Meridian

end Woodhouse.Fsd
