import Woodhouse.Drives.Intervals

namespace Woodhouse.Drives
open Python Sql Ingest

variable {J F : Type}

section Intervals
variable {ids : IdFunctions} {texts : JsonTexts J} {table : List (Observation J F)}
  {vehicleId : Option Str}

theorem ReadOffText.window (h : ReadOffText texts table) (vehicleId : Option Str) :
    ReadOffText texts (gearWindow vehicleId table) :=
  ⟨fun o ho => h.text o (mem_gearWindow.mp ho).1,
    fun a ha b hb => h.string a (mem_gearWindow.mp ha).1 b (mem_gearWindow.mp hb).1⟩

theorem windowEvents_known {window : List (Observation J F)} {e : GearEvent}
    (h : e ∈ windowEvents texts window) : e.isDriving.isSome = true := by
  obtain ⟨p,_,he⟩ := List.mem_filterMap.mp h
  unfold windowEvent at he
  split at he
  · rw [(gearEvent_eq_some he).2.2.2.2]
    rfl
  · cases he

theorem gearObservations_pairwise (h : DistinctTimes vehicleId table) :
    (gearObservations vehicleId table).Pairwise (fun a b => observedAt a < observedAt b) :=
  orderBy_strict h

/-- The drive intervals are the runs of the full sequence. -/
theorem driveIntervals_runs (ids : IdFunctions) (htext : ReadOffText texts table)
    (htimes : DistinctTimes vehicleId table) :
    driveIntervals ids texts vehicleId table =
      runs isDriving observedAt (gearObservations vehicleId table) := by
  have hevents := vehicleGears_window texts vehicleId table
  have hruns := (runs_changes (htext.window vehicleId)
    (fun o ho => (mem_gearWindow.mp ho).2.2.2)).1
  have hsegments := segments_runs vehicleId (windowEvents_pairwise texts vehicleId table)
    (fun e he => windowEvents_known he)
  rw [hruns,← gearObservations_window htimes] at hsegments
  have hstarts := (runs_ordered isDriving (gearObservations_pairwise htimes)).starts
  unfold driveIntervals
  rw [drives_vehicle,identified_map (fun s => (s.startedAt,s.endedAt)) _ (fun _ _ _ => rfl),hevents]
  rw [orderBy_of_pairwise]
  · exact hsegments
  · rw [← hsegments] at hstarts
    exact (List.pairwise_map.mp hstarts).imp Int.le_of_lt

end Intervals

section Boundaries
variable {ids : IdFunctions} {events : List GearEvent}

/-- SHA-256 does not collide on the texts of the drives, and the text of a start holds no
bar and determines it. -/
structure IdsApart (ids : IdFunctions) (drives : List Drive) : Prop where
  hash : ∀ d ∈ drives, ∀ d' ∈ drives, ∀ v ∈ d.vehicleId, ∀ v' ∈ d'.vehicleId,
    ids.sha256Hex (driveText ids v d.startedAt) = ids.sha256Hex (driveText ids v' d'.startedAt) →
    driveText ids v d.startedAt = driveText ids v' d'.startedAt
  cast : ∀ d ∈ drives, ∀ d' ∈ drives, ids.castString d.startedAt = ids.castString d'.startedAt →
    d.startedAt = d'.startedAt
  bar : ∀ d ∈ drives, ∀ c ∈ str "|", c ∉ ids.castString d.startedAt

/-- The rows of `drive_metric_boundaries` of one combination. -/
def boundaryRows (ids : IdFunctions) (texts : JsonTexts J) (table : List (Observation J F))
    (d : Drive) (name : BoundaryName) (field : BoundaryField) : List (MetricBoundary F) :=
  (driveMetricBoundaries ids texts table).filter
    (fun r => (r.driveId,r.boundaryName,r.field) = (d.driveId,name,field))

theorem driveId_of_mem {d : Drive} (h : d ∈ drives ids events) :
    d.driveId = d.vehicleId.map (fun v => ids.sha256Hex (driveText ids v d.startedAt)) := by
  obtain ⟨v,_,hd⟩ := List.mem_flatMap.mp h
  obtain ⟨p,_,rfl⟩ := List.mem_map.mp hd
  rfl

/-- A text splits at its last bar in one way. -/
theorem split_last_bar {a : CodePoint} {x y s t : Str} (hs : a ∉ s) (ht : a ∉ t)
    (h : x ++ a :: s = y ++ a :: t) : x = y ∧ s = t := by
  induction x generalizing y with
  | nil =>
    cases y with
    | nil => exact ⟨rfl,(List.cons.inj h).2⟩
    | cons b y =>
      obtain ⟨_,hrest⟩ := List.cons.inj h
      exact absurd (hrest ▸ List.mem_append_right y List.mem_cons_self) hs
  | cons c x ih =>
    cases y with
    | nil =>
      obtain ⟨_,hrest⟩ := List.cons.inj h
      exact absurd (hrest ▸ List.mem_append_right x List.mem_cons_self) ht
    | cons b y =>
      obtain ⟨rfl,hrest⟩ := List.cons.inj h
      obtain ⟨rfl,hst⟩ := ih hrest
      exact ⟨rfl,hst⟩

/-- Drives with one id are drives of one vehicle with one start. -/
theorem IdsApart.same (h : IdsApart ids (drives ids events)) {d d' : Drive}
    (hd : d ∈ drives ids events) (hd' : d' ∈ drives ids events) {vehicleId : Str}
    (hv : d.vehicleId = some vehicleId) (hid : d'.driveId = d.driveId) :
    d'.vehicleId = d.vehicleId ∧ d'.startedAt = d.startedAt := by
  rw [driveId_of_mem hd,driveId_of_mem hd',hv] at hid
  cases hv' : d'.vehicleId with
  | none =>
    rw [hv'] at hid
    cases hid
  | some v' =>
    rw [hv'] at hid
    have htext := h.hash d' hd' d hd v' hv' vehicleId hv (Option.some.inj hid)
    unfold driveText at htext
    rw [List.append_assoc,List.append_assoc] at htext
    have hbar : ∃ c, str "|" = [c] := ⟨_,rfl⟩
    obtain ⟨c,hc⟩ := hbar
    have hmem : c ∈ str "|" := by
      rw [hc]
      exact List.mem_singleton_self c
    rw [hc,List.singleton_append,List.singleton_append] at htext
    obtain ⟨hvehicle,hcast⟩ := split_last_bar (h.bar d' hd' c hmem) (h.bar d hd c hmem) htext
    exact ⟨by rw [hv,hvehicle],h.cast d' hd' d hd hcast⟩

theorem mem_boundarySpecs {drives : List Drive} {b : BoundarySpec} :
    b ∈ boundarySpecs drives ↔ ∃ d ∈ drives, ∃ name field,
      (name = .start ∨ d.endedAt.isSome = true) ∧ b = boundarySpec d name field := by
  unfold boundarySpecs
  rw [List.mem_flatMap]
  constructor
  · rintro ⟨d,hd,hb⟩
    obtain ⟨⟨name,field⟩,hp,rfl⟩ := List.mem_map.mp hb
    have := (List.mem_filter.mp hp).2
    exact ⟨d,hd,name,field,by simpa using this,rfl⟩
  · rintro ⟨d,hd,name,field,hexists,rfl⟩
    refine ⟨d,hd,List.mem_map.mpr ⟨(name,field),List.mem_filter.mpr ⟨?_,by simpa using hexists⟩,rfl⟩⟩
    cases name <;> cases field <;> decide

@[simp] theorem boundarySpec_key (d : Drive) (name : BoundaryName) (field : BoundaryField) :
    (boundarySpec d name field).key = (d.driveId,name,field) := by
  cases name <;> rfl

theorem boundaryRows_selected (texts : JsonTexts J) (table : List (Observation J F)) (d : Drive)
    (name : BoundaryName) (field : BoundaryField) :
    boundaryRows ids texts table d name field =
      ((selectedCandidates (drives ids (gearEvents texts table)) table).filter
        (fun p => p.1.key = (d.driveId,name,field))).map (fun p => metricBoundary p.1 p.2) := by
  unfold boundaryRows driveMetricBoundaries
  rw [List.filter_map]
  rfl

variable {texts : JsonTexts J} {table : List (Observation J F)}

/-- No two drives of a vehicle start together. -/
theorem drives_starts {vehicleId : Option Str} (htext : ReadOffText texts table)
    (htimes : DistinctTimes vehicleId table) :
    ((drives ids (gearEvents texts table)).filter (fun d => d.vehicleId = vehicleId)).Pairwise
      (fun a b => a.startedAt ≠ b.startedAt) := by
  have hlt := (runs_ordered isDriving (gearObservations_pairwise htimes)).starts
  rw [← driveIntervals_runs ids htext htimes] at hlt
  exact (List.pairwise_map.mp hlt).imp ne_of_lt

/-- Of the drives of a vehicle, one has a given start. -/
theorem drive_of_start {vehicleId : Option Str} (htext : ReadOffText texts table)
    (htimes : DistinctTimes vehicleId table) {d d' : Drive}
    (hd : d ∈ drives ids (gearEvents texts table)) (hd' : d' ∈ drives ids (gearEvents texts table))
    (hv : d.vehicleId = vehicleId) (hv' : d'.vehicleId = vehicleId)
    (hstart : d'.startedAt = d.startedAt) : d' = d := by
  have hmem : ∀ e ∈ drives ids (gearEvents texts table), e.vehicleId = vehicleId →
      e ∈ (drives ids (gearEvents texts table)).filter (fun d => d.vehicleId = vehicleId) :=
    fun e he hev => List.mem_filter.mpr ⟨he,decide_eq_true hev⟩
  by_contra hne
  have : Std.Symm (fun a b : Drive => a.startedAt ≠ b.startedAt) := ⟨fun _ _ h => h.symm⟩
  exact (drives_starts htext htimes).forall (hmem d' hd' hv') (hmem d hd hv) hne hstart

/-- No other drive has the id of a drive of the vehicle. -/
theorem drive_of_id {vehicleId : Str} (htext : ReadOffText texts table)
    (htimes : DistinctTimes (some vehicleId) table)
    (hids : IdsApart ids (drives ids (gearEvents texts table))) {d d' : Drive}
    (hd : d ∈ drives ids (gearEvents texts table)) (hv : d.vehicleId = some vehicleId)
    (hd' : d' ∈ drives ids (gearEvents texts table)) (hid : d'.driveId = d.driveId) : d' = d := by
  obtain ⟨hvehicle,hstart⟩ := hids.same hd hd' hv hid
  exact drive_of_start htext htimes hd hd' hv (hvehicle.trans hv) hstart

/-- An existing boundary has one row for each field, another none. -/
theorem boundaryRows_length {vehicleId : Str} (htext : ReadOffText texts table)
    (htimes : DistinctTimes (some vehicleId) table)
    (hids : IdsApart ids (drives ids (gearEvents texts table))) {d : Drive}
    (hd : d ∈ drives ids (gearEvents texts table)) (hv : d.vehicleId = some vehicleId)
    (name : BoundaryName) (field : BoundaryField) :
    (boundaryRows ids texts table d name field).length =
      if name = .start ∨ d.endedAt.isSome = true then 1 else 0 := by
  have hsame : ∀ d' ∈ drives ids (gearEvents texts table), d'.driveId = d.driveId → d' = d :=
    fun d' hd' hid => drive_of_id htext htimes hids hd hv hd' hid
  rw [boundaryRows_selected,List.length_map]
  unfold selectedCandidates
  split
  · rename_i hexists
    have hspec := mem_boundarySpecs.mpr ⟨d,hd,name,field,hexists,rfl⟩
    have halone : ∀ b ∈ boundarySpecs (drives ids (gearEvents texts table)),
        b.key = (boundarySpec d name field).key → b = boundarySpec d name field := by
      intro b hb hkey
      obtain ⟨d',hd',name',field',_,rfl⟩ := mem_boundarySpecs.mp hb
      rw [boundarySpec_key,boundarySpec_key,Prod.mk.injEq,Prod.mk.injEq] at hkey
      rw [hsame d' hd' hkey.1,hkey.2.1,hkey.2.2]
    obtain ⟨o,ho⟩ := firstRows_leftJoin isCandidate table candidateKey hspec halone
    rw [boundarySpec_key] at ho
    rw [ho]
    rfl
  · rename_i hnone
    have hkeys : ∀ b ∈ boundarySpecs (drives ids (gearEvents texts table)),
        b.key ≠ (d.driveId,name,field) := by
      intro b hb hkey
      obtain ⟨d',hd',name',field',hexists,rfl⟩ := mem_boundarySpecs.mp hb
      rw [boundarySpec_key,Prod.mk.injEq,Prod.mk.injEq] at hkey
      rw [hsame d' hd' hkey.1,hkey.2.1] at hexists
      exact hnone hexists
    rw [firstRows_leftJoin_none candidateKey hkeys]
    rfl

end Boundaries

/-- The drive intervals of a vehicle are the maximal driving runs of its gear
observations, in order and pairwise disjoint, and each boundary a drive has is one row of
each field: the start always, the end when the drive has ended. -/
theorem driveIntervals_maximalRuns {ids : IdFunctions} {texts : JsonTexts J}
    {table : List (Observation J F)} (vehicleId : Str) (htext : ReadOffText texts table)
    (htimes : DistinctTimes (some vehicleId) table)
    (hids : IdsApart ids (drives ids (gearEvents texts table))) :
    (∀ p, p ∈ driveIntervals ids texts (some vehicleId) table ↔
      MaximalRun isDriving observedAt (gearObservations (some vehicleId) table) p) ∧
    Ordered (driveIntervals ids texts (some vehicleId) table) ∧
    ∀ d ∈ drives ids (gearEvents texts table), d.vehicleId = some vehicleId →
      ∀ name field, (boundaryRows ids texts table d name field).length =
        if name = .start ∨ d.endedAt.isSome = true then 1 else 0 := by
  rw [driveIntervals_runs ids htext htimes]
  exact ⟨fun _ => mem_runs,runs_ordered isDriving (gearObservations_pairwise htimes),
    fun d hd hv name field => boundaryRows_length htext htimes hids hd hv name field⟩

/-- One vehicle's events with one segment are one drive. -/
theorem drives_single (ids : IdFunctions) {events : List GearEvent} (vehicleId : Option Str)
    (s : Segment) (hvehicles : (events.map GearEvent.vehicleId).dedup = [vehicleId])
    (hsegments : segments vehicleId (vehicleGears vehicleId events) = [s]) :
    drives ids events = [drive ids s none none] := by
  unfold drives
  rw [hvehicles,List.flatMap_singleton,hsegments]
  unfold identified orderBy
  rw [List.mergeSort_singleton]
  rfl

/-- Gear telemetry of one vehicle, with the value's text as its JSON value. -/
def gearObservation (t : Utc) (messageId gear : String) : Observation Str Unit :=
  { sourceTimestamp := t, ingestedAt := t, processedAt := t, vehicleId := some (str "vehicle-1")
    recordType := str "V", fieldName := str "Gear", isInvalid := false, numericValue := none
    stringValue := some (str gear), booleanValue := none, latitude := none, longitude := none
    valueJson := some (str gear), telemetryConfigVersion := none, telemetryConfigHash := none
    transportMessageId := none, pubsubMessageId := str messageId
    telemetryClientVersion := none, telemetryReceiverVersion := str "v1"
    receiverRecordVersion := none }

def plainTexts : JsonTexts Str := { toJsonString := id, parseJson := id }

/-- Midnight of the first day of 2024. -/
def newYear : Utc := ⟨63839664000000000,by decide⟩

/-- The id and the text of the one drive that starts then. -/
def newYearIds : IdFunctions :=
  { sha256Hex := fun _ => str "1b4ba2e413b2d3672c22f4859be634daa146c899358c6aa7b6c522aa13d5802e"
    castString := fun _ => str "2024-01-01 00:00:00+00" }

/-- Driving at midnight, still driving ten minutes later, parked after twenty-five. -/
def parkedDrive : List (Observation Str Unit) :=
  [gearObservation newYear "m1" "D",
   gearObservation ⟨63839664600000000,by decide⟩ "m2" "D",
   gearObservation ⟨63839665500000000,by decide⟩ "m3" "P"]

def openDrive : List (Observation Str Unit) := [gearObservation newYear "m1" "D"]

theorem plainTexts_readOff {table : List (Observation Str F)}
    (h : ∀ o ∈ table, o.valueJson = o.stringValue) : ReadOffText plainTexts table := by
  refine ⟨?_,?_⟩
  · intro o ho hs
    change o.valueJson.isSome = true
    rw [h o ho,hs]
  · intro a ha b hb t hat hbt
    change a.valueJson = some t at hat
    change b.valueJson = some t at hbt
    rw [← h a ha,← h b hb,hat,hbt]

theorem single_drive {table : List (Observation Str F)} {d : Drive}
    (h : drives newYearIds (gearEvents plainTexts table) = [d]) :
    IdsApart newYearIds (drives newYearIds (gearEvents plainTexts table)) := by
  rw [h]
  refine ⟨?_,?_,?_⟩
  · intro a ha b hb v hv v' hv' _
    rw [List.mem_singleton.mp ha] at hv ⊢
    rw [List.mem_singleton.mp hb] at hv' ⊢
    rw [Option.some.inj (hv.symm.trans hv')]
  · intro a ha b hb _
    rw [List.mem_singleton.mp ha,List.mem_singleton.mp hb]
  · intro a _ c hc
    have hbar : str "|" = [124] := by decide
    rw [hbar,List.mem_singleton] at hc
    rw [hc]
    change 124 ∉ str "2024-01-01 00:00:00+00"
    decide

def gearRow (t : Int) (messageId gear : String) (isDriving : Bool) : GearEvent :=
  { sourceTimestamp := t, vehicleId := some (str "vehicle-1"), pubsubMessageId := str messageId
    gear := str gear, isDriving := some isDriving }

theorem parkedDrive_drives : ∃ d, drives newYearIds (gearEvents plainTexts parkedDrive) = [d] ∧
    d.vehicleId = some (str "vehicle-1") ∧ d.endedAt.isSome = true := by
  have hsorted : orderBy fieldKey (parkedDrive.filter (fun o => !o.isInvalid)) = parkedDrive :=
    orderBy_of_pairwise (by decide)
  have hevents : gearEvents plainTexts parkedDrive =
      [gearRow 63839664000000000 "m1" "D" true,gearRow 63839665500000000 "m3" "P" false] := by
    unfold gearEvents vehicleStateChanges ordered
    rw [hsorted]
    decide
  have hgears : vehicleGears (some (str "vehicle-1"))
      [gearRow 63839664000000000 "m1" "D" true,gearRow 63839665500000000 "m3" "P" false] =
      [gearRow 63839664000000000 "m1" "D" true,gearRow 63839665500000000 "m3" "P" false] :=
    orderBy_of_pairwise (by decide)
  rw [hevents]
  refine ⟨_,drives_single newYearIds (some (str "vehicle-1"))
    ({ vehicleId := some (str "vehicle-1"), driveNumber := 1, startedAt := 63839664000000000
       startGearMessageId := some (str "m1"), endedAt := some 63839665500000000
       endGearMessageId := some (str "m3") }) ?_ ?_,rfl,rfl⟩
  · decide
  · rw [hgears]
    decide

theorem driveIntervals_parkedDrive :
    (63839664000000000,some 63839665500000000) ∈
      driveIntervals newYearIds plainTexts (some (str "vehicle-1")) parkedDrive ∧
    ∃ d ∈ drives newYearIds (gearEvents plainTexts parkedDrive), ∀ name field,
      (boundaryRows newYearIds plainTexts parkedDrive d name field).length = 1 := by
  obtain ⟨d,hdrives,hvehicle,hended⟩ := parkedDrive_drives
  obtain ⟨hruns,_,hrows⟩ := driveIntervals_maximalRuns (str "vehicle-1")
    (plainTexts_readOff (show ∀ o ∈ parkedDrive, o.valueJson = o.stringValue by decide))
    (by decide) (single_drive hdrives)
  have hsorted : gearObservations (some (str "vehicle-1")) parkedDrive = parkedDrive :=
    orderBy_of_pairwise (by decide)
  refine ⟨(hruns _).mpr ?_,d,by rw [hdrives]; exact List.mem_cons_self,?_⟩
  · rw [hsorted]
    refine ⟨[],_,[_],[_],rfl,?_,?_,?_,rfl⟩
    · decide
    · intro a ha
      cases ha
    · decide
  · intro name field
    rw [hrows d (by rw [hdrives]; exact List.mem_cons_self) hvehicle,if_pos (.inr hended)]

/-- A drive under way has no end, and no row for it. -/
theorem openDrive_no_end :
    ¬ ∀ d ∈ drives newYearIds (gearEvents plainTexts openDrive), ∀ name field,
      (boundaryRows newYearIds plainTexts openDrive d name field).length = 1 := by
  have hsorted : orderBy fieldKey (openDrive.filter (fun o => !o.isInvalid)) = openDrive :=
    orderBy_of_pairwise (by decide)
  have hevents : gearEvents plainTexts openDrive =
      [gearRow 63839664000000000 "m1" "D" true] := by
    unfold gearEvents vehicleStateChanges ordered
    rw [hsorted]
    decide
  have hgears : vehicleGears (some (str "vehicle-1")) [gearRow 63839664000000000 "m1" "D" true] =
      [gearRow 63839664000000000 "m1" "D" true] :=
    orderBy_of_pairwise (by decide)
  have hdrives := drives_single newYearIds (some (str "vehicle-1"))
    { vehicleId := some (str "vehicle-1"), driveNumber := 1, startedAt := 63839664000000000
      startGearMessageId := some (str "m1"), endedAt := none, endGearMessageId := none }
    (show ([gearRow 63839664000000000 "m1" "D" true].map GearEvent.vehicleId).dedup =
      [some (str "vehicle-1")] by decide)
    (by rw [hgears]; decide)
  rw [← hevents] at hdrives
  intro hall
  have hrow := hall _ (by rw [hdrives]; exact List.mem_cons_self) .end_ .odometer
  rw [boundaryRows_length (plainTexts_readOff (by decide)) (by decide)
    (single_drive hdrives) (by rw [hdrives]; exact List.mem_cons_self) rfl] at hrow
  revert hrow
  decide

end Woodhouse.Drives
