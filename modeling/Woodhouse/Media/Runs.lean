import Woodhouse.Media.History
import Woodhouse.Python.ReadBack

namespace Woodhouse.Media
open Python Sql Ingest Drives

section Points
variable {J F : Type}

/-- A valid observation of one of the vehicle's media fields. -/
def IsMediaOf (vehicleId : Option Str) (o : Observation J F) : Prop :=
  o.isInvalid = false ∧ str "Media" <+: o.fieldName ∧ o.vehicleId = vehicleId

instance (vehicleId : Option Str) (o : Observation J F) : Decidable (IsMediaOf vehicleId o) :=
  inferInstanceAs (Decidable (_ ∧ _ ∧ _))

/-- The times at which a vehicle's media was observed, in order. -/
def mediaTimes (vehicleId : Option Str) (table : List (Observation J F)) : List Int :=
  orderBy id ((table.filter (fun o => IsMediaOf vehicleId o)).map
    (fun o => micros o.sourceTimestamp)).dedup

/-- The greatest text among the valid rows of a vehicle's field at a time. -/
def greatestValue (vehicleId : Option Str) (table : List (Observation J F)) (t : Int)
    (fieldName : String) : Option Str :=
  ((table.filter (fun o => o.isInvalid = false ∧ o.vehicleId = vehicleId ∧
    micros o.sourceTimestamp = t ∧ o.fieldName = str fieldName)).filterMap
      Observation.stringValue).max?

/-- What was observed of a vehicle's media at a time. -/
def observedMedia (vehicleId : Option Str) (table : List (Observation J F)) (t : Int) : MediaState :=
  { title := greatestValue vehicleId table t "MediaNowPlayingTitle"
    artist := greatestValue vehicleId table t "MediaNowPlayingArtist"
    album := greatestValue vehicleId table t "MediaNowPlayingAlbum"
    station := greatestValue vehicleId table t "MediaNowPlayingStation"
    playbackSource := greatestValue vehicleId table t "MediaPlaybackSource"
    playbackStatus := greatestValue vehicleId table t "MediaPlaybackStatus" }

/-- Each value is carried on until another one is observed. -/
def carry (before update : MediaState) : MediaState :=
  { title := update.title.or before.title
    artist := update.artist.or before.artist
    album := update.album.or before.album
    station := update.station.or before.station
    playbackSource := update.playbackSource.or before.playbackSource
    playbackStatus := update.playbackStatus.or before.playbackStatus }

def carriedFrom : MediaState → List (Int × MediaState) → List (Int × MediaState)
  | _, [] => []
  | before, (t,update) :: rest => (t,carry before update) :: carriedFrom (carry before update) rest

def unknownMedia : MediaState := ⟨none,none,none,none,none,none⟩

/-- The state of a vehicle's media at each time of an observation. -/
def mediaPoints (vehicleId : Option Str) (table : List (Observation J F)) :
    List (Int × MediaState) :=
  carriedFrom unknownMedia
    ((mediaTimes vehicleId table).map (fun t => (t,observedMedia vehicleId table t)))

/-- From the first time on at which one of the values is known. -/
def knownPoints (vehicleId : Option Str) (table : List (Observation J F)) :
    List (Int × MediaState) :=
  (mediaPoints vehicleId table).dropWhile (fun p => p.2 = unknownMedia)

end Points

section Values
variable {J F : Type} {vehicleId : Option Str}

theorem filter_isMediaOf (vehicleId : Option Str) (table : List (Observation J F)) :
    table.filter (fun o => IsMediaOf vehicleId o) =
      (table.filter isMedia).filter (fun o => o.vehicleId = vehicleId) := by
  rw [List.filter_filter]
  refine List.filter_congr ?_
  intro o _
  refine Bool.eq_iff_iff.mpr ?_
  simp only [isMedia,decide_eq_true_eq,Bool.and_eq_true,Bool.not_eq_true',
    List.isPrefixOf_iff_prefix]
  unfold IsMediaOf
  tauto

/-- The view's maximum over the group of a time is the greatest text of the field. -/
theorem greatestText_group (table : List (Observation J F)) (t : Int) {name : String}
    (hname : str "Media" <+: str name) :
    greatestText name ((table.filter isMedia).filter (fun o => mediaKey o = (vehicleId,t))) =
      greatestValue vehicleId table t name := by
  unfold greatestText greatestValue maxOf
  rw [List.filterMap_map,Function.id_comp,List.filterMap_filter,List.filterMap_filter,
    List.filterMap_filter]
  refine congrArg List.max? (List.filterMap_congr ?_)
  intro o _
  unfold ifField
  by_cases hfield : o.fieldName = str name
  · have hmedia : isMedia o = !o.isInvalid := by
      unfold isMedia
      rw [hfield,List.isPrefixOf_iff_prefix.mpr hname,Bool.and_true]
    cases hinvalid : o.isInvalid with
    | true => simp [hmedia,hinvalid]
    | false => simp [hmedia,hinvalid,hfield,mediaKey]
  · simp [hfield]

theorem isKnown_eq (s : MediaState) : (!s.isKnown) = decide (s = unknownMedia) := by
  refine Bool.eq_iff_iff.mpr ?_
  cases s
  simp [MediaState.isKnown,unknownMedia]

end Values

section Signature
variable {s s' : MediaState}

def columnJson (value : Option Str) : Json := value.elim .null Json.str

theorem readsValue_column (limit depth : Nat) (value : Option Str) :
    ReadsValue limit depth (columnText value) (columnJson value) := by
  cases value with
  | none => exact readsValue_null limit depth
  | some text => exact (spells_escapeUtf8 limit text).readsValue depth

def columnMember (name : String) (value : Option Str) : Member :=
  ⟨dumpStrUtf8 (str name),str name,columnText value,columnJson value⟩

def signatureColumns (s : MediaState) : List Member :=
  [columnMember "title" s.title,columnMember "artist" s.artist,columnMember "album" s.album,
   columnMember "station" s.station,columnMember "playback_source" s.playbackSource,
   columnMember "playback_status" s.playbackStatus]

theorem signatureColumns_readable {m : Member} (h : m ∈ signatureColumns s) : m.Readable 1 0 := by
  obtain ⟨name,value,rfl⟩ : ∃ name value, m = columnMember name value := by
    simp only [signatureColumns,List.mem_cons,List.not_mem_nil,or_false] at h
    rcases h with rfl | rfl | rfl | rfl | rfl | rfl
    all_goals exact ⟨_,_,rfl⟩
  exact ⟨(spells_escapeUtf8 1 (str name)).readsKey,readsValue_column 1 0 value⟩

/-- The columns can be read off the signature. -/
theorem decode_mediaSignature (s : MediaState) : decodeFrom 1 {} (mediaSignature s) = .ok (.obj
    [(str "title",columnJson s.title),(str "artist",columnJson s.artist),
     (str "album",columnJson s.album),(str "station",columnJson s.station),
     (str "playback_source",columnJson s.playbackSource),
     (str "playback_status",columnJson s.playbackStatus)]) := by
  have hread := readsValue_object (by simp [signatureColumns])
    (fun m hm => signatureColumns_readable (s := s) hm)
  exact hread.decode (le_refl 1)

theorem columnJson_injective : Function.Injective columnJson := by
  intro a b h
  cases a with
  | none =>
    cases b with
    | none => rfl
    | some b => cases h
  | some a =>
    cases b with
    | none => cases h
    | some b => exact congrArg some (Json.str.inj h)

/-- Different states have different signatures. -/
theorem mediaSignature_injective : Function.Injective mediaSignature := by
  intro s s' h
  have hread := decode_mediaSignature s
  rw [h,decode_mediaSignature s'] at hread
  simp only [Except.ok.injEq,Json.obj.injEq,List.cons.injEq,Prod.mk.injEq,true_and,and_true,
    columnJson_injective.eq_iff] at hread
  cases s
  cases s'
  simp_all

end Signature

section States
variable {F : Type}

def Stateful.point (r : Stateful F) : Int × MediaState := (r.sourceTimestamp,r.media)

def MediaUpdate.point (u : MediaUpdate F) : Int × MediaState := (u.sourceTimestamp,u.media)

theorem carriedMedia_snoc (frame : List (MediaUpdate F)) (u : MediaUpdate F) :
    carriedMedia (frame ++ [u]) = carry (carriedMedia frame) u.media := by
  simp only [carriedMedia,carry,lastValue_snoc]

/-- The window carries each value on its own. -/
theorem stateful_points (updates : List (MediaUpdate F)) :
    (stateful updates).map Stateful.point = carriedFrom unknownMedia (updates.map MediaUpdate.point) := by
  have hrun : ∀ before : List (MediaUpdate F),
      ((overFrom carried before updates).map (fun p => p.2 p.1.sourceTimestamp)).map Stateful.point =
        carriedFrom (carriedMedia before) (updates.map MediaUpdate.point) := by
    induction updates with
    | nil => exact fun _ => rfl
    | cons u rest ih =>
      intro before
      have hrest := ih (before ++ [u])
      rw [carriedMedia_snoc] at hrest
      rw [overFrom,List.map_cons,List.map_cons,hrest,List.map_cons]
      simp only [MediaUpdate.point,carriedFrom,Stateful.point,carried,carriedMedia_snoc]
  exact hrun []

theorem carriedFrom_times (before : MediaState) (updates : List (Int × MediaState)) :
    (carriedFrom before updates).map Prod.fst = updates.map Prod.fst := by
  induction updates generalizing before with
  | nil => rfl
  | cons u rest ih => rw [carriedFrom,List.map_cons,List.map_cons,ih]

theorem stateful_times (updates : List (MediaUpdate F)) :
    (stateful updates).map Stateful.sourceTimestamp = updates.map MediaUpdate.sourceTimestamp := by
  have htimes := congrArg (List.map Prod.fst) (stateful_points updates)
  rw [carriedFrom_times,List.map_map,List.map_map] at htimes
  exact htimes

/-- What is known of the media stays known. -/
theorem isKnown_carry {before : MediaState} (h : before.isKnown = true) (update : MediaState) :
    (carry before update).isKnown = true := by
  simp only [MediaState.isKnown,carry,Option.isSome_or,Bool.or_eq_true] at h ⊢
  tauto

theorem carriedFrom_known {before : MediaState} {updates : List (Int × MediaState)}
    (h : before.isKnown = true) : ∀ p ∈ carriedFrom before updates, p.2.isKnown = true := by
  induction updates generalizing before with
  | nil => intro p hp; cases hp
  | cons u rest ih =>
    have hu := isKnown_carry h u.2
    intro p hp
    rcases List.mem_cons.mp hp with rfl | hp
    · exact hu
    · exact ih hu p hp

theorem carriedFrom_pairwise (before : MediaState) (updates : List (Int × MediaState)) :
    (carriedFrom before updates).Pairwise (fun p q => p.2.isKnown = true → q.2.isKnown = true) := by
  induction updates generalizing before with
  | nil => exact List.Pairwise.nil
  | cons u rest ih =>
    refine List.pairwise_cons.mpr ⟨?_,ih _⟩
    intro q hq hknown
    exact carriedFrom_known hknown q hq

end States

section Updates
variable {J F : Type} [Max F] {vehicleId : Option Str} {table : List (Observation J F)}

theorem mem_mediaUpdates {u : MediaUpdate F} (h : u ∈ mediaUpdates table) :
    u.media = observedMedia u.vehicleId table u.sourceTimestamp := by
  obtain ⟨g,hg,rfl⟩ := List.mem_map.mp h
  have hrows := groupBy_rows hg
  have hvalue : ∀ name, str "Media" <+: str name →
      greatestText name g.2 = greatestValue g.1.1 table g.1.2 name := by
    intro name hname
    rw [hrows]
    exact greatestText_group table g.1.2 hname
  unfold mediaUpdate mediaOf observedMedia
  dsimp only
  rw [hvalue _ (by decide),hvalue _ (by decide),hvalue _ (by decide),hvalue _ (by decide),
    hvalue _ (by decide),hvalue _ (by decide)]

theorem mediaUpdates_keys : (mediaUpdates table).map (fun u => (u.vehicleId,u.sourceTimestamp)) =
    (groupBy mediaKey (table.filter isMedia)).map Prod.fst := by
  unfold mediaUpdates
  rw [List.map_map]
  rfl

theorem vehicleUpdates_times_nodup (vehicleId : Option Str) (table : List (Observation J F)) :
    (((mediaUpdates table).filter (fun u => u.vehicleId = vehicleId)).map
      MediaUpdate.sourceTimestamp).Nodup := by
  have hkeys : ((mediaUpdates table).map (fun u => (u.vehicleId,u.sourceTimestamp))).Nodup := by
    rw [mediaUpdates_keys]
    exact groupBy_keys_nodup _ _
  have hpair := (List.pairwise_map.mp hkeys).filter (fun u => u.vehicleId = vehicleId)
  refine List.pairwise_map.mpr (hpair.imp_of_mem ?_)
  intro a b ha hb hne heq
  have hva := of_decide_eq_true (List.mem_filter.mp ha).2
  have hvb := of_decide_eq_true (List.mem_filter.mp hb).2
  exact hne (Prod.ext (hva.trans hvb.symm) heq)

theorem vehicleUpdates_sorted (vehicleId : Option Str) (table : List (Observation J F)) :
    (vehicleUpdates vehicleId table).Pairwise (fun a b => a.sourceTimestamp < b.sourceTimestamp) :=
  orderBy_strict (vehicleUpdates_times_nodup vehicleId table)

/-- There is one update for each time of an observation. -/
theorem vehicleUpdates_times (vehicleId : Option Str) (table : List (Observation J F)) :
    (vehicleUpdates vehicleId table).map MediaUpdate.sourceTimestamp = mediaTimes vehicleId table := by
  have hperm := (orderBy_perm MediaUpdate.sourceTimestamp
    ((mediaUpdates table).filter (fun u => u.vehicleId = vehicleId))).map MediaUpdate.sourceTimestamp
  have hsorted : ((vehicleUpdates vehicleId table).map MediaUpdate.sourceTimestamp).Pairwise
      (fun a b => id a < id b) := List.pairwise_map.mpr (vehicleUpdates_sorted vehicleId table)
  unfold mediaTimes
  rw [filter_isMediaOf]
  refine (orderBy_eq (List.Perm.trans ?_ hperm.symm) hsorted).symm
  refine (List.perm_ext_iff_of_nodup (List.nodup_dedup _)
    (vehicleUpdates_times_nodup vehicleId table)).mpr ?_
  intro t
  have hkey : (vehicleId,t) ∈ (mediaUpdates table).map (fun u => (u.vehicleId,u.sourceTimestamp)) ↔
      ∃ o ∈ table.filter isMedia, mediaKey o = (vehicleId,t) := by
    rw [mediaUpdates_keys]
    exact mem_groupBy_keys
  rw [List.mem_dedup]
  constructor
  · intro ht
    obtain ⟨o,ho,rfl⟩ := List.mem_map.mp ht
    obtain ⟨ho,hv⟩ := List.mem_filter.mp ho
    have hv := of_decide_eq_true hv
    obtain ⟨u,hu,heq⟩ := List.mem_map.mp (hkey.mpr ⟨o,ho,by rw [← hv]; rfl⟩)
    have heq := Prod.mk.inj heq
    exact List.mem_map.mpr ⟨u,List.mem_filter.mpr ⟨hu,by simpa using heq.1⟩,heq.2⟩
  · intro ht
    obtain ⟨u,hu,rfl⟩ := List.mem_map.mp ht
    obtain ⟨hu,hv⟩ := List.mem_filter.mp hu
    have hv := of_decide_eq_true hv
    obtain ⟨o,ho,heq⟩ := hkey.mp (List.mem_map.mpr ⟨u,hu,by rw [hv]⟩)
    have heq := Prod.mk.inj heq
    exact List.mem_map.mpr ⟨o,List.mem_filter.mpr ⟨ho,by simpa using heq.1⟩,heq.2⟩

/-- The updates are what was observed at the times. -/
theorem vehicleUpdates_points (vehicleId : Option Str) (table : List (Observation J F)) :
    (vehicleUpdates vehicleId table).map MediaUpdate.point =
      (mediaTimes vehicleId table).map (fun t => (t,observedMedia vehicleId table t)) := by
  rw [← vehicleUpdates_times,List.map_map]
  refine List.map_congr_left ?_
  intro u hu
  obtain ⟨hu,hv⟩ := List.mem_filter.mp (mem_orderBy.mp hu)
  have hv := of_decide_eq_true hv
  simp only [MediaUpdate.point,Function.comp_apply,mem_mediaUpdates hu,hv]

end Updates

section Intervals
variable {F : Type} {r : Stateful F} {run : List (Stateful F)}

theorem min_times (h : (r :: run).Pairwise (fun a b => a.sourceTimestamp < b.sourceTimestamp)) :
    ((r :: run).map Stateful.sourceTimestamp).min? = some r.sourceTimestamp := by
  refine List.min?_eq_some_iff.mpr ⟨by simp,?_⟩
  intro t ht
  rw [List.map_cons] at ht
  rcases List.mem_cons.mp ht with rfl | ht
  · exact le_refl _
  · obtain ⟨b,hb,rfl⟩ := List.mem_map.mp ht
    exact ((List.pairwise_cons.mp h).1 b hb).le

/-- In time order the first row of a run is the one of the least time. -/
theorem anyValueHavingMin_cons {β : Type} (f : Stateful F → Option β)
    (h : (r :: run).Pairwise (fun a b => a.sourceTimestamp < b.sourceTimestamp)) :
    anyValueHavingMin f (r :: run) = f r := by
  have hrest : run.filter (fun b => some r.sourceTimestamp = some b.sourceTimestamp) = [] := by
    refine List.filter_eq_nil_iff.mpr ?_
    intro b hb heq
    have hlt := (List.pairwise_cons.mp h).1 b hb
    rw [Option.some.inj (of_decide_eq_true heq)] at hlt
    exact absurd hlt (lt_irrefl _)
  unfold anyValueHavingMin
  rw [min_times h,List.filter_cons_of_pos (by simp),hrest,List.findSome?_singleton]

variable [Max F] {castInt64 : F → Except CastFailure Int} {ids : IdFunctions}
  {vehicleId : Option Str}

/-- What an interval says of its run. -/
theorem interval_run (h : (r :: run).Pairwise (fun a b => a.sourceTimestamp < b.sourceTimestamp)) :
    ∃ i, interval castInt64 vehicleId (r :: run) = some i ∧ i.vehicleId = vehicleId ∧
      i.startedAt = r.sourceTimestamp ∧ i.media = r.media ∧
      i.observationCount = (r :: run).length := by
  unfold interval
  rw [min_times h,Option.map_some]
  refine ⟨_,rfl,rfl,rfl,?_,rfl⟩
  simp only [anyValueHavingMin_cons _ h]

/-- What a run says of its interval. -/
def runSummary (run : List (Int × MediaState)) : Option (Int × MediaState × Nat) :=
  run.head?.map (fun p => (p.1,p.2,run.length))

def Interval.summary (i : Interval F) : Int × MediaState × Nat :=
  (i.startedAt,i.media,i.observationCount)

def MediaInterval.summary (i : MediaInterval F) : Int × MediaState × Nat :=
  (i.startedAt,i.media,i.observationCount)

theorem summary_interval {run : List (Stateful F)}
    (h : run.Pairwise (fun a b => a.sourceTimestamp < b.sourceTimestamp)) :
    (interval castInt64 vehicleId run).map Interval.summary =
      runSummary (run.map Stateful.point) := by
  cases run with
  | nil => rfl
  | cons r run =>
    obtain ⟨i,hi,_,hstart,hmedia,hcount⟩ := @interval_run _ _ _ _ castInt64 vehicleId h
    rw [hi]
    simp [runSummary,Interval.summary,Stateful.point,hstart,hmedia,hcount]

variable {rows : List (Stateful F)}

omit [Max F] in
/-- The state runs are stretches of the rows, so that they are in time order. -/
theorem run_sorted (h : rows.Pairwise (fun a b => a.sourceTimestamp < b.sourceTimestamp))
    {run : List (Stateful F)} (hrun : run ∈ stateRuns Stateful.media rows) :
    run.Pairwise (fun a b => a.sourceTimestamp < b.sourceTimestamp) := by
  rw [← (stateRuns_maximal Stateful.media rows).whole] at h
  exact (List.pairwise_flatten.mp h).1 run hrun

/-- The intervals of some known state are those of the runs from the first known time on. -/
theorem intervals_known (h : rows.Pairwise (fun a b => a.sourceTimestamp < b.sourceTimestamp))
    (hknown : rows.Pairwise (fun a b => a.media.isKnown = true → b.media.isKnown = true)) :
    (intervals castInt64 vehicleId rows).filter (fun i => i.media.isKnown) =
      (stateRuns Stateful.media (rows.dropWhile (fun r => !r.media.isKnown))).filterMap
        (interval castInt64 vehicleId) := by
  unfold intervals grouped
  change ((groupBy Prod.snd _).filterMap
    (interval castInt64 vehicleId ∘ fun g => g.2.map Prod.fst)).filter _ = _
  rw [← List.filterMap_map,groupBy_changes,stateRuns_injective mediaSignature_injective,
    ← stateRuns_dropWhile hknown,List.filter_filterMap,List.filterMap_filter]
  refine List.filterMap_congr ?_
  intro run hrun
  have hsorted := run_sorted h hrun
  cases run with
  | nil => rfl
  | cons r run =>
    obtain ⟨i,hi,_,_,hmedia,_⟩ := @interval_run _ _ _ _ castInt64 vehicleId hsorted
    rw [hi]
    cases hk : r.media.isKnown with
    | true => simp [hmedia,hk,Option.filter]
    | false => simp [hmedia,hk,Option.filter]

/-- Of the rows from a known state on, the intervals are in the order of their starts. -/
theorem intervals_sorted (h : rows.Pairwise (fun a b => a.sourceTimestamp < b.sourceTimestamp)) :
    ((stateRuns Stateful.media rows).filterMap (interval castInt64 vehicleId)).Pairwise
      (fun a b => a.startedAt < b.startedAt) := by
  have hwhole := (stateRuns_maximal Stateful.media rows).whole
  have hruns : ∀ run ∈ stateRuns Stateful.media rows, ∀ i, interval castInt64 vehicleId run = some i →
      ∃ r ∈ run, i.startedAt = r.sourceTimestamp := by
    intro run hrun i hi
    cases run with
    | nil => cases hi
    | cons r run =>
      obtain ⟨j,hj,_,hstart,_,_⟩ := @interval_run _ _ _ _ castInt64 vehicleId (run_sorted h hrun)
      rw [hi] at hj
      cases hj
      exact ⟨r,List.mem_cons_self,hstart⟩
  have hordered := h
  rw [← hwhole] at hordered
  refine List.pairwise_filterMap.mpr ((List.pairwise_flatten.mp hordered).2.imp_of_mem ?_)
  intro run next hrun hnext hlt i hi j hj
  obtain ⟨r,hr,hi⟩ := hruns run hrun i hi
  obtain ⟨n,hn,hj⟩ := hruns next hnext j hj
  rw [hi,hj]
  exact hlt r hr n hn

end Intervals

section History
variable {J F : Type} [Max F] (ids : IdFunctions) (castInt64 : F → Except CastFailure Int)
  (vehicleId : Option Str) (table : List (Observation J F))

/-- A vehicle's rows of `media_history`. -/
def vehicleHistory : List (MediaInterval F) :=
  (mediaHistory ids castInt64 table).filter (fun i => i.vehicleId = vehicleId)

/-- The rows of `stateful` from the first known time on. -/
def knownRows : List (Stateful F) :=
  (stateful (vehicleUpdates vehicleId table)).dropWhile (fun r => !r.media.isKnown)

theorem stateful_sorted : (stateful (vehicleUpdates vehicleId table)).Pairwise
    (fun a b => a.sourceTimestamp < b.sourceTimestamp) := by
  have htimes := List.pairwise_map.mpr (vehicleUpdates_sorted vehicleId table)
  rw [← stateful_times] at htimes
  exact List.pairwise_map.mp htimes

theorem stateful_known : (stateful (vehicleUpdates vehicleId table)).Pairwise
    (fun a b => a.media.isKnown = true → b.media.isKnown = true) := by
  have hpoints := carriedFrom_pairwise unknownMedia
    ((vehicleUpdates vehicleId table).map MediaUpdate.point)
  rw [← stateful_points] at hpoints
  exact List.pairwise_map.mp hpoints

theorem knownRows_points : (knownRows vehicleId table).map Stateful.point =
    knownPoints vehicleId table := by
  unfold knownPoints mediaPoints knownRows
  rw [← vehicleUpdates_points,← stateful_points,List.dropWhile_map]
  simp only [isKnown_eq]
  rfl

theorem knownRows_sorted : (knownRows vehicleId table).Pairwise
    (fun a b => a.sourceTimestamp < b.sourceTimestamp) :=
  (stateful_sorted vehicleId table).sublist (List.dropWhile_sublist _)

theorem mem_vehicleIntervals {updates : List (MediaUpdate F)} {i : MediaInterval F}
    (h : i ∈ vehicleIntervals ids castInt64 vehicleId updates) : i.vehicleId = vehicleId := by
  obtain ⟨p,hp,rfl⟩ := List.mem_map.mp h
  have hmem := List.mem_map_of_mem (f := Prod.fst) hp
  rw [overLead_fst] at hmem
  obtain ⟨g,_,hg⟩ := List.mem_filterMap.mp (List.mem_filter.mp (mem_orderBy.mp hmem)).1
  obtain ⟨t,_,ht⟩ := Option.map_eq_some_iff.mp hg
  change p.1.vehicleId = vehicleId
  rw [← ht]

/-- A vehicle's intervals come from its own updates. -/
theorem mediaHistory_vehicle : vehicleHistory ids castInt64 vehicleId table =
    (overLead ((stateRuns Stateful.media (knownRows vehicleId table)).filterMap
      (interval castInt64 vehicleId))).map (fun p => mediaInterval ids p.1 p.2) := by
  have hown : vehicleHistory ids castInt64 vehicleId table =
      vehicleIntervals ids castInt64 vehicleId (vehicleUpdates vehicleId table) := by
    unfold vehicleHistory mediaHistory
    rw [flatMap_filter (fun v i hi => mem_vehicleIntervals ids castInt64 v hi) (List.nodup_dedup _)]
    split
    · rfl
    · rename_i hnone
      have hempty : (mediaUpdates table).filter (fun u => u.vehicleId = vehicleId) = [] := by
        refine List.filter_eq_nil_iff.mpr ?_
        intro u hu heq
        exact hnone (List.mem_dedup.mpr (List.mem_map.mpr ⟨u,hu,of_decide_eq_true heq⟩))
      unfold vehicleUpdates
      rw [hempty,orderBy_nil]
      change [] = (overLead (orderBy Interval.startedAt [])).map _
      rw [orderBy_nil]
      rfl
  rw [hown]
  unfold vehicleIntervals
  rw [intervals_known (stateful_sorted vehicleId table) (stateful_known vehicleId table)]
  have hsorted := @intervals_sorted _ _ castInt64 vehicleId _ (knownRows_sorted vehicleId table)
  rw [orderBy_of_pairwise]
  · rfl
  · exact hsorted.imp le_of_lt

/-- `media_history` is the run-length encoding of the state of the media. -/
theorem mediaHistory_runs : ∃ runs,
    (∀ others, MaximalRuns Prod.snd (knownPoints vehicleId table) others ↔ others = runs) ∧
    (vehicleHistory ids castInt64 vehicleId table).map MediaInterval.summary =
      runs.filterMap runSummary ∧
    (∀ n i, (vehicleHistory ids castInt64 vehicleId table)[n]? = some i → i.endedAt =
      (vehicleHistory ids castInt64 vehicleId table)[n + 1]?.map MediaInterval.startedAt) ∧
    ((vehicleHistory ids castInt64 vehicleId table).map MediaInterval.startedAt).Nodup := by
  have hruns : MaximalRuns (fun r => (Stateful.point r).2) (knownRows vehicleId table)
      (stateRuns Stateful.media (knownRows vehicleId table)) := stateRuns_maximal _ _
  have hpoints : MaximalRuns Prod.snd (knownPoints vehicleId table)
      ((stateRuns Stateful.media (knownRows vehicleId table)).map (List.map Stateful.point)) := by
    rw [← knownRows_points]
    exact hruns.map
  refine ⟨(stateRuns Stateful.media (knownRows vehicleId table)).map (List.map Stateful.point),
    ?_,?_,?_,?_⟩
  · intro others
    rw [maximalRuns_iff,maximalRuns_iff.mp hpoints]
    exact eq_comm
  · rw [mediaHistory_vehicle,List.map_map]
    change ((overLead _).map (Interval.summary ∘ Prod.fst)) = _
    rw [← List.map_map,overLead_fst,List.map_filterMap,List.filterMap_map]
    refine List.filterMap_congr ?_
    intro run hrun
    exact summary_interval (run_sorted (knownRows_sorted vehicleId table) hrun)
  · intro n i hi
    rw [mediaHistory_vehicle,List.getElem?_map,getElem?_overLead] at hi
    rw [mediaHistory_vehicle,List.getElem?_map,getElem?_overLead]
    obtain ⟨p,hp,rfl⟩ := Option.map_eq_some_iff.mp hi
    obtain ⟨a,_,rfl⟩ := Option.map_eq_some_iff.mp hp
    simp only [mediaInterval,Option.map_map]
    rfl
  · rw [mediaHistory_vehicle,List.map_map]
    change ((overLead _).map (Interval.startedAt ∘ Prod.fst)).Nodup
    rw [← List.map_map,overLead_fst]
    refine List.pairwise_map.mpr ?_
    exact (intervals_sorted (knownRows_sorted vehicleId table)).imp ne_of_lt

end History

section Witness

/-- Media telemetry of one vehicle. -/
def mediaObservation (t : Utc) (fieldName : String) (isInvalid : Bool) (stringValue : Option Str)
    (numericValue : Option Int) : Observation Unit Int :=
  { sourceTimestamp := t, ingestedAt := t, processedAt := t, vehicleId := some (str "vehicle-1")
    recordType := str "V", fieldName := str fieldName, isInvalid, numericValue, stringValue
    booleanValue := none, latitude := none, longitude := none, valueJson := none
    telemetryConfigVersion := none, telemetryConfigHash := none, transportMessageId := none
    pubsubMessageId := str "m1", telemetryClientVersion := none
    telemetryReceiverVersion := str "v1", receiverRecordVersion := none }

def second (n : Fin 10) : Utc := ⟨63839664000000000 + 1000000 * n.val,by
  have h : n.val < 10 := n.isLt
  have hmax : maxMicros = 315537897600000000 := by decide
  omega⟩

/-- The volume is known first; two titles arrive at once, then the source, then a length
that changes no value, and last a new title. -/
def songs : List (Observation Unit Int) :=
  [mediaObservation (second 4) "MediaNowPlayingTitle" false (some (str "Closer")) none,
   mediaObservation (second 1) "MediaNowPlayingTitle" false (some (str "Angel")) none,
   mediaObservation (second 1) "MediaNowPlayingTitle" false (some (str "Blue")) none,
   mediaObservation (second 1) "MediaNowPlayingTitle" true (some (str "Zero")) none,
   mediaObservation (second 0) "MediaAudioVolume" false none (some 3),
   mediaObservation (second 3) "MediaNowPlayingDuration" false none (some 210000),
   mediaObservation (second 2) "MediaPlaybackSource" false (some (str "Spotify")) none,
   mediaObservation (second 2) "Gear" false (some (str "D")) none]

/-- The texts and digests of the three intervals. -/
def songIds : IdFunctions :=
  { sha256Hex := fun text =>
      if text = str "vehicle-1|2024-01-01 00:00:01+00" then
        str "251f2aec6a6dd650eab41929c02f5a470aedaadd6a82ad2f9241680a70f43536"
      else if text = str "vehicle-1|2024-01-01 00:00:02+00" then
        str "640657ac59f7f76631b9c1d1c956305de21a394c02c9f690b0718a0503d09fbf"
      else
        str "dce2a9f76a1620cc3507360f16e87b6a79299908510e4a7f20e638e8b72bfeed"
    castString := fun t =>
      if t = 63839664001000000 then str "2024-01-01 00:00:01+00"
      else if t = 63839664002000000 then str "2024-01-01 00:00:02+00"
      else str "2024-01-01 00:00:04+00" }

theorem songs_times : mediaTimes (some (str "vehicle-1")) songs =
    [63839664000000000,63839664001000000,63839664002000000,63839664003000000,63839664004000000] :=
  orderBy_eq (by decide) (by decide)

theorem mediaHistory_runs_songs :
    (vehicleHistory songIds (fun n => .ok n) (some (str "vehicle-1")) songs).map
        MediaInterval.summary =
      [(63839664001000000,{ unknownMedia with title := some (str "Blue") },1),
       (63839664002000000,
         { unknownMedia with title := some (str "Blue"), playbackSource := some (str "Spotify") },2),
       (63839664004000000,
         { unknownMedia with title := some (str "Closer"), playbackSource := some (str "Spotify") },
         1)] := by
  obtain ⟨runs,hunique,hrows,_,_⟩ :=
    mediaHistory_runs songIds (fun n : Int => .ok n) (some (str "vehicle-1")) songs
  rw [hrows,← (hunique _).mp (stateRuns_maximal _ _)]
  unfold knownPoints mediaPoints
  rw [songs_times]
  decide

end Witness

end Woodhouse.Media
