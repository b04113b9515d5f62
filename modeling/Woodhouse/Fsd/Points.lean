import Woodhouse.Fsd.Segments
import Woodhouse.Intervals.Tiling

namespace Woodhouse.Fsd
open Sql Intervals

def Segment.span (s : Segment) : Span ℚ := (s.startDistanceMiles,s.endDistanceMiles)

/-- The reset epochs of points in time order. -/
def EpochsInOrder (points : List MappedPoint) : Prop :=
  points.Pairwise (fun p q => p.resetEpoch ≤ q.resetEpoch)

section Epochs
variable {markers : List (CounterSnapshot × Nat)}

theorem numberEpochs_snoc (markers : List (CounterSnapshot × Nat)) (m : CounterSnapshot × Nat) :
    numberEpochs (markers ++ [m]) = numberEpochs markers ++
      [{ toCounterSnapshot := m.1, resetEpoch := sum Prod.snd markers + m.2 }] := by
  unfold numberEpochs
  rw [over_snoc,List.map_append,sum_snoc]
  rfl

/-- The epochs count the resets up to each row. -/
theorem numberEpochs_bound {c : PairedChange} (h : c ∈ numberEpochs markers) :
    c.resetEpoch ≤ sum Prod.snd markers ∧
      ∃ m ∈ markers, c.sourceTimestamp = m.1.sourceTimestamp := by
  induction markers using List.reverseRecOn with
  | nil => cases h
  | append_singleton markers m ih =>
    rw [numberEpochs_snoc] at h
    rw [sum_snoc]
    rcases List.mem_append.mp h with h | h
    · obtain ⟨hle,m',hm',ht⟩ := ih h
      exact ⟨hle.trans (Nat.le_add_right _ _),m',List.mem_append_left _ hm',ht⟩
    · rw [List.mem_singleton.mp h]
      exact ⟨le_refl _,m,by simp,rfl⟩

theorem numberEpochs_pairwise
    (h : markers.Pairwise (fun a b => a.1.sourceTimestamp ≤ b.1.sourceTimestamp)) :
    (numberEpochs markers).Pairwise
      (fun a b => a.sourceTimestamp ≤ b.sourceTimestamp ∧ a.resetEpoch ≤ b.resetEpoch) := by
  induction markers using List.reverseRecOn with
  | nil => exact List.Pairwise.nil
  | append_singleton markers m ih =>
    obtain ⟨hmarkers,_,hlast⟩ := List.pairwise_append.mp h
    rw [numberEpochs_snoc]
    refine List.pairwise_append.mpr ⟨ih hmarkers,List.pairwise_singleton _ _,?_⟩
    intro a ha b hb
    obtain ⟨hle,m',hm',ht⟩ := numberEpochs_bound ha
    rw [List.mem_singleton.mp hb]
    have htime := hlast m' hm' m List.mem_cons_self
    exact ⟨ht ▸ htime,hle.trans (Nat.le_add_right _ _)⟩

theorem pairedChanges_pairwise (snapshots : List CounterSnapshot) :
    (pairedChanges snapshots).Pairwise
      (fun a b => a.sourceTimestamp ≤ b.sourceTimestamp ∧ a.resetEpoch ≤ b.resetEpoch) := by
  refine numberEpochs_pairwise ?_
  unfold resetMarkers
  rw [List.pairwise_map]
  have hsorted := orderBy_pairwise CounterSnapshot.windowKey snapshots
  rw [← over_fst (lag some none) (orderBy _ _),List.pairwise_map] at hsorted
  refine hsorted.imp ?_
  intro a b hab
  rcases Prod.Lex.le_iff.mp hab with hlt | ⟨heq,_⟩
  · exact le_of_lt hlt
  · exact le_of_eq heq

/-- Of two changes at different times, the later one has the later epoch. -/
theorem epoch_of_time {changes : List PairedChange}
    (h : changes.Pairwise
      (fun a b => a.sourceTimestamp ≤ b.sourceTimestamp ∧ a.resetEpoch ≤ b.resetEpoch))
    {a b : PairedChange} (ha : a ∈ changes) (hb : b ∈ changes)
    (ht : a.sourceTimestamp < b.sourceTimestamp) : a.resetEpoch ≤ b.resetEpoch := by
  obtain ⟨before,after,rfl⟩ := List.append_of_mem ha
  obtain ⟨_,hafter,hcross⟩ := List.pairwise_append.mp h
  rcases List.mem_append.mp hb with hb | hb
  · have := (hcross b hb a List.mem_cons_self).1
    omega
  · rcases List.mem_cons.mp hb with rfl | hb
    · omega
    · exact ((List.pairwise_cons.mp hafter).1 b hb).2

/-- The points of a drive are in time order, and so are their epochs. -/
theorem selectedPoints_pairwise (drive : Drive) (now : Int) (snapshots : List CounterSnapshot) :
    (selectedPoints drive (driveCandidates drive now (pairedChanges snapshots))).Pairwise
      (fun a b => a.sourceTimestamp ≤ b.sourceTimestamp ∧ a.resetEpoch ≤ b.resetEpoch) := by
  have hcandidates := (pairedChanges_pairwise snapshots).sublist
    (List.filter_sublist (p := fun c => drive.startedAt - counterWindow ≤ c.sourceTimestamp ∧
      c.sourceTimestamp ≤ drive.endedAt.getD now))
  unfold selectedPoints
  refine List.pairwise_append.mpr ⟨?_,hcandidates.sublist List.filter_sublist,?_⟩
  · cases lastBefore drive (driveCandidates drive now (pairedChanges snapshots)) with
    | none => exact List.Pairwise.nil
    | some c => exact List.pairwise_singleton _ _
  · intro a ha b hb
    obtain ⟨hbefore,_⟩ := head?_orderBy (Option.mem_toList.mp ha)
    obtain ⟨hma,hta⟩ := List.mem_filter.mp hbefore
    obtain ⟨hmb,htb⟩ := List.mem_filter.mp hb
    have ht := lt_of_lt_of_le (of_decide_eq_true hta) (of_decide_eq_true htb)
    exact ⟨le_of_lt ht,epoch_of_time hcandidates hma hmb ht⟩

theorem mappedPoints_epochs (drive : Drive) (path : List PathPoint) (now : Int)
    (snapshots : List CounterSnapshot) :
    EpochsInOrder (mappedPoints drive path now snapshots) := by
  unfold EpochsInOrder mappedPoints
  rw [List.pairwise_map]
  exact (selectedPoints_pairwise drive now snapshots).imp (fun h => h.2)

theorem mappedPoints_times (drive : Drive) (path : List PathPoint) (now : Int)
    (snapshots : List CounterSnapshot) : (mappedPoints drive path now snapshots).Pairwise
      (fun p q => p.sourceTimestamp ≤ q.sourceTimestamp) := by
  unfold mappedPoints
  rw [List.pairwise_map]
  exact (selectedPoints_pairwise drive now snapshots).imp (fun h => h.1)

end Epochs

section Pairs

/-- What two consecutive points certify: the manual prefix and the FSD distance of their
bucket, unless a reset lies between them or the bucket is invalid. -/
def certifiedBy (previous point : MappedPoint) : List Segment :=
  if previous.resetEpoch = point.resetEpoch then
    ((bucket previous point).toList.filter Bucket.isValid).flatMap Bucket.segments
  else []

def certified (points : List MappedPoint) : List Segment :=
  (consecutive points).flatMap (fun p => certifiedBy p.1 p.2)

variable {points : List MappedPoint} {p : MappedPoint}

theorem certified_snoc (points : List MappedPoint) (p : MappedPoint) :
    certified (points ++ [p]) = certified points ++
      points.getLast?.toList.flatMap (fun previous => certifiedBy previous p) := by
  unfold certified
  rw [consecutive_snoc,List.flatMap_append]
  cases points.getLast? <;> simp

theorem deltas_snoc (h : EpochsInOrder (points ++ [p])) :
    deltas (points ++ [p]) = deltas points ++
      [(p,points.getLast?.filter (fun previous => previous.resetEpoch = p.resetEpoch))] := by
  unfold deltas
  rw [overPartition_snoc,lag_snoc,getLast?_filter_key h]
  cases points.getLast?.filter (fun previous => previous.resetEpoch = p.resetEpoch) <;> rfl

/-- The buckets of the windows are those of consecutive points. -/
theorem bucketSegments_eq (h : EpochsInOrder points) :
    bucketSegments points = certified points := by
  induction points using List.reverseRecOn with
  | nil => rfl
  | append_singleton points p ih =>
    have hpoints := (List.pairwise_append.mp h).1
    rw [certified_snoc,← ih hpoints]
    unfold bucketSegments buckets
    rw [deltas_snoc h,List.filterMap_append,List.filter_append,List.flatMap_append]
    congr 1
    cases points.getLast? with
    | none => rfl
    | some previous =>
      unfold certifiedBy
      by_cases he : previous.resetEpoch = p.resetEpoch
      · have hsame : (some previous).filter
            (fun q : MappedPoint => decide (q.resetEpoch = p.resetEpoch)) = some previous := by
          simp [he,Option.filter]
        rw [hsame,Option.toList_some,List.flatMap_singleton,if_pos he]
        cases hb : bucket previous p <;> simp [hb]
      · have hother : (some previous).filter
            (fun q : MappedPoint => decide (q.resetEpoch = p.resetEpoch)) = none := by
          simp [he,Option.filter]
        rw [hother,Option.toList_some,List.flatMap_singleton,if_neg he]
        rfl

theorem segments_state {b : Bucket} {s : Segment} (h : s ∈ b.segments) : s.state ≠ .uncertain := by
  unfold Bucket.segments at h
  rcases List.mem_append.mp h with h | h
  · split at h
    · rw [List.mem_singleton.mp h]
      exact fun hs => nomatch hs
    · cases h
  · split at h
    · rw [List.mem_singleton.mp h]
      exact fun hs => nomatch hs
    · cases h

theorem certified_state {s : Segment} (h : s ∈ certified points) : s.state ≠ .uncertain := by
  obtain ⟨p,_,hs⟩ := List.mem_flatMap.mp h
  unfold certifiedBy at hs
  split at hs
  · obtain ⟨b,_,hs⟩ := List.mem_flatMap.mp hs
    exact segments_state hs
  · cases hs

end Pairs

end Woodhouse.Fsd
