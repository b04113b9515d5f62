import Woodhouse.Drives.Boundaries

namespace Woodhouse.Drives
open Python Sql Ingest

variable {J F : Type}

/-- A valid observation of the field `Gear` with a text. -/
def isGear (o : Observation J F) : Bool :=
  !o.isInvalid && decide (o.fieldName = str "Gear") && o.stringValue.isSome

/-- The gear observations of a vehicle in time order, changed or not. -/
def gearObservations (vehicleId : Option Str) (table : List (Observation J F)) :
    List (Observation J F) :=
  orderBy (fun o => micros o.sourceTimestamp)
    (table.filter (fun o => isGear o && decide (o.vehicleId = vehicleId)))

/-- `string_value IN ('ShiftStateD', 'ShiftStateR', 'D', 'R')`. -/
def isDriving (o : Observation J F) : Bool := holds (isIn o.stringValue drivingGears)

def observedAt (o : Observation J F) : Int := micros o.sourceTimestamp

def DistinctTimes (vehicleId : Option Str) (table : List (Observation J F)) : Prop :=
  ((table.filter (fun o => isGear o && decide (o.vehicleId = vehicleId))).map observedAt).Nodup

instance (vehicleId : Option Str) (table : List (Observation J F)) :
    Decidable (DistinctTimes vehicleId table) :=
  inferInstanceAs (Decidable (List.Nodup _))

/-- `string_value` is read off `value_json`: a value with a string has a text, and rows
with one text have one string. -/
structure ReadOffText (texts : JsonTexts J) (table : List (Observation J F)) : Prop where
  text : ∀ o ∈ table, o.stringValue.isSome = true → (valueText texts o).isSome = true
  string : ∀ a ∈ table, ∀ b ∈ table, ∀ t, valueText texts a = some t → valueText texts b = some t →
    a.stringValue = b.stringValue

/-- What BigQuery's functions say of a value they write as text: a scalar in it is found
again from the text alone. -/
structure ReadsText (json : JsonFunctions J F) (texts : JsonTexts J) : Prop where
  text : ∀ datum, ∀ path ∈ stringPaths, (json.jsonValue datum path).isSome = true →
    (texts.toJsonString (json.jsonQuery datum "$.value")).isSome = true
  scalar : ∀ datum datum' t, texts.toJsonString (json.jsonQuery datum "$.value") = some t →
    texts.toJsonString (json.jsonQuery datum' "$.value") = some t →
    ∀ path ∈ stringPaths, json.jsonValue datum path = json.jsonValue datum' path

theorem observationOf_string {json : JsonFunctions J F} {raw : RawTelemetryRow} {datum : J}
    {o : Observation J F} (h : observationOf json raw datum = some o) :
    o.stringValue = stringPaths.findSome? (json.jsonValue datum) ∧
      o.valueJson = json.jsonQuery datum "$.value" := by
  unfold observationOf at h
  simp only [Option.bind_eq_bind,Option.bind_eq_some_iff,Option.some.injEq] at h
  obtain ⟨_,_,rfl⟩ := h
  exact ⟨rfl,rfl⟩

/-- The rows of `telemetry_observations` read their strings off their texts. -/
theorem telemetryObservations_readOffText {json : JsonFunctions J F} {texts : JsonTexts J}
    (h : ReadsText json texts) (raw : List RawTelemetryRow) :
    ReadOffText texts (telemetryObservations json raw) := by
  have horigin : ∀ o ∈ telemetryObservations json raw, ∃ row datum,
      observationOf json row datum = some o := by
    intro o ho
    obtain ⟨row,_,ho⟩ := List.mem_flatMap.mp ho
    obtain ⟨datum,_,ho⟩ := List.mem_filterMap.mp ho
    exact ⟨row,datum,ho⟩
  refine ⟨?_,?_⟩
  · intro o ho hs
    obtain ⟨row,datum,horow⟩ := horigin o ho
    obtain ⟨hstring,hvalue⟩ := observationOf_string horow
    rw [hstring] at hs
    obtain ⟨v,hv⟩ := Option.isSome_iff_exists.mp hs
    obtain ⟨path,hpath,hfound⟩ := List.exists_of_findSome?_eq_some hv
    unfold valueText
    rw [hvalue]
    exact h.text datum path hpath (by rw [hfound]; rfl)
  · intro a ha b hb t hat hbt
    obtain ⟨_,datum,harow⟩ := horigin a ha
    obtain ⟨_,datum',hbrow⟩ := horigin b hb
    obtain ⟨hstring,hvalue⟩ := observationOf_string harow
    obtain ⟨hstring',hvalue'⟩ := observationOf_string hbrow
    unfold valueText at hat hbt
    rw [hvalue] at hat
    rw [hvalue'] at hbt
    rw [hstring,hstring',← List.head?_filterMap,← List.head?_filterMap,
      List.filterMap_congr (h.scalar datum datum' t hat hbt)]

/-- The drive intervals of a vehicle. -/
def driveIntervals (ids : IdFunctions) (texts : JsonTexts J) (vehicleId : Option Str)
    (table : List (Observation J F)) : List Stretch :=
  ((drives ids (gearEvents texts table)).filter (fun d => d.vehicleId = vehicleId)).map
    (fun d => (d.startedAt,d.endedAt))

section Changes
variable {texts : JsonTexts J} {table : List (Observation J F)} {vehicleId : Option Str}

/-- The valid observations of a vehicle's `Gear`, in the order of their window. -/
def gearWindow (vehicleId : Option Str) (table : List (Observation J F)) :
    List (Observation J F) :=
  (orderBy fieldKey (table.filter (fun o => !o.isInvalid))).filter
    (fun o => (o.vehicleId,o.fieldName) = (vehicleId,str "Gear"))

/-- The gear event of a row of that window. -/
def windowEvent (texts : JsonTexts J) (p : Observation J F × Option (Observation J F)) :
    Option GearEvent :=
  if holds (isChange texts p.1 p.2) then gearEvent (stateChange texts p.1 p.2) else none

def windowEvents (texts : JsonTexts J) (window : List (Observation J F)) : List GearEvent :=
  (overRows (lag some none) window).filterMap (windowEvent texts)

theorem gearEvent_eq_some {c : StateChange J F} {e : GearEvent} (h : gearEvent c = some e) :
    c.fieldName = str "Gear" ∧ e.vehicleId = c.vehicleId ∧
      e.sourceTimestamp = micros c.sourceTimestamp ∧ c.stringValue = some e.gear ∧
      e.isDriving = isIn (some e.gear) drivingGears := by
  unfold gearEvent at h
  split at h
  · rename_i hfield
    obtain ⟨gear,hgear,rfl⟩ := Option.map_eq_some_iff.mp h
    exact ⟨hfield,rfl,rfl,hgear,rfl⟩
  · cases h

/-- The gear events of a vehicle are those of its window. -/
theorem gearEvents_vehicle :
    (gearEvents texts table).filter (fun e => e.vehicleId = vehicleId) =
      windowEvents texts (gearWindow vehicleId table) := by
  unfold gearEvents vehicleStateChanges windowEvents gearWindow
  rw [← overPartition_filter,List.filterMap_map,List.filterMap_filter,List.filter_filterMap,
    List.filterMap_filter]
  refine List.filterMap_congr ?_
  intro p _
  unfold windowEvent
  simp only [Function.comp_apply]
  split
  · cases he : gearEvent (stateChange texts p.1 p.2) with
    | none => simp
    | some e =>
      obtain ⟨hfield,hvehicle,_⟩ := gearEvent_eq_some he
      change p.1.fieldName = _ at hfield
      change e.vehicleId = p.1.vehicleId at hvehicle
      by_cases hv : p.1.vehicleId = vehicleId
      · simp [hvehicle,hfield,hv,Option.filter]
      · simp [hvehicle,hv,Option.filter]
  · simp

theorem fieldKey_le {a b : Observation J F} (h : fieldKey a ≤ fieldKey b) :
    observedAt a ≤ observedAt b := by
  rcases Prod.Lex.le_iff.mp h with hlt | ⟨heq,_⟩
  · exact Int.ofNat_le.mpr (Nat.le_of_lt hlt)
  · exact Int.le_of_eq (congrArg micros heq)

theorem gearWindow_pairwise (vehicleId : Option Str) (table : List (Observation J F)) :
    (gearWindow vehicleId table).Pairwise (fun a b => observedAt a ≤ observedAt b) :=
  ((orderBy_pairwise fieldKey _).imp fieldKey_le).filter _

theorem windowEvents_pairwise (texts : JsonTexts J) (vehicleId : Option Str)
    (table : List (Observation J F)) :
    (windowEvents texts (gearWindow vehicleId table)).Pairwise
      (fun a b => a.sourceTimestamp ≤ b.sourceTimestamp) := by
  unfold windowEvents
  refine List.Pairwise.filterMap (windowEvent texts)
    (R := fun p q => observedAt p.1 ≤ observedAt q.1) ?_ ?_
  · intro p q hle e he e' he'
    unfold windowEvent at he he'
    split at he
    · split at he'
      · rw [(gearEvent_eq_some he).2.2.1,(gearEvent_eq_some he').2.2.1]
        exact hle
      · cases he'
    · cases he
  · have hwindow := gearWindow_pairwise vehicleId table
    rw [← over_fst (lag some none) (gearWindow vehicleId table)] at hwindow
    exact (List.pairwise_map (f := Prod.fst)).mp hwindow

/-- The changes of the gear order themselves. -/
theorem vehicleGears_window (texts : JsonTexts J) (vehicleId : Option Str)
    (table : List (Observation J F)) :
    vehicleGears vehicleId (gearEvents texts table) =
      windowEvents texts (gearWindow vehicleId table) := by
  unfold vehicleGears
  rw [gearEvents_vehicle]
  exact orderBy_of_pairwise (windowEvents_pairwise texts vehicleId table)

theorem mem_gearWindow {o : Observation J F} :
    o ∈ gearWindow vehicleId table ↔ o ∈ table ∧ o.isInvalid = false ∧ o.vehicleId = vehicleId ∧
      o.fieldName = str "Gear" := by
  unfold gearWindow
  simp [and_assoc]

/-- In the order of their window, the observations are in time order. -/
theorem gearObservations_window (h : DistinctTimes vehicleId table) :
    gearObservations vehicleId table =
      (gearWindow vehicleId table).filter (fun o => o.stringValue.isSome) := by
  have hperm : (table.filter (fun o => isGear o && decide (o.vehicleId = vehicleId))).Perm
      ((gearWindow vehicleId table).filter (fun o => o.stringValue.isSome)) := by
    have hsorted := (orderBy_perm fieldKey (table.filter (fun o => !o.isInvalid))).symm
    refine List.Perm.trans (List.Perm.of_eq ?_) ((hsorted.filter _).filter _)
    rw [List.filter_filter,List.filter_filter]
    refine List.filter_congr ?_
    intro o _
    unfold isGear
    cases o.isInvalid <;> cases o.stringValue <;> simp [Bool.and_comm]
  refine orderBy_eq hperm ?_
  have hle := (gearWindow_pairwise vehicleId table).filter
    (fun o => o.stringValue.isSome)
  have hne : ((gearWindow vehicleId table).filter (fun o => o.stringValue.isSome)).Pairwise
      (fun a b => observedAt a ≠ observedAt b) :=
    List.pairwise_map.mp ((hperm.map observedAt).nodup_iff.mp h)
  exact (hle.and hne).imp (fun hab => lt_of_le_of_ne hab.1 hab.2)

/-- A row of a window that is no change repeats the value before it. -/
theorem not_change {window : List (Observation J F)} {o : Observation J F}
    (h : ReadOffText texts (window ++ [o])) (ho : o.stringValue.isSome = true)
    (hchange : holds (isChange texts o window.getLast?) = false) :
    ∃ b, window.getLast? = some b ∧ b.stringValue = o.stringValue := by
  obtain ⟨t,ht⟩ := Option.isSome_iff_exists.mp (h.text o (by simp) ho)
  unfold isChange at hchange
  cases hb : window.getLast? with
  | none => simp [hb] at hchange
  | some b =>
    rw [hb,Option.bind_some,ht] at hchange
    cases hs : valueText texts b with
    | none => simp [hs] at hchange
    | some s =>
      have heq : s = t := by simpa [hs,equals] using hchange
      have hmem : b ∈ window ++ [o] := List.mem_append_left _ (List.mem_of_getLast? hb)
      exact ⟨b,rfl,h.string b hmem o (by simp) t (by rw [hs,heq]) ht⟩

/-- The runs of the changes are those of all observations with a text. -/
theorem runs_changes {window : List (Observation J F)} (h : ReadOffText texts window)
    (hgear : ∀ o ∈ window, o.fieldName = str "Gear") :
    statusRuns GearEvent.isDriving GearEvent.sourceTimestamp (windowEvents texts window) =
      runs isDriving observedAt (window.filter (fun o => o.stringValue.isSome)) ∧
    lastOn (fun e => holds (GearEvent.isDriving e)) (windowEvents texts window) =
      lastOn isDriving (window.filter (fun o => o.stringValue.isSome)) := by
  induction window using List.reverseRecOn with
  | nil => exact ⟨rfl,rfl⟩
  | append_singleton window o ih =>
    have hwindow : ReadOffText texts window :=
      ⟨fun a ha => h.text a (List.mem_append_left _ ha),
        fun a ha b hb => h.string a (List.mem_append_left _ ha) b (List.mem_append_left _ hb)⟩
    have hbefore := ih hwindow (fun a ha => hgear a (List.mem_append_left _ ha))
    have hsnoc : windowEvents texts (window ++ [o]) =
        windowEvents texts window ++ (windowEvent texts (o,window.getLast?)).toList := by
      unfold windowEvents
      rw [over_snoc,lag_snoc,List.filterMap_append]
      have hlast : (window.getLast?.map some).getD none = window.getLast? := by
        cases window.getLast? <;> rfl
      rw [hlast]
      cases he : windowEvent texts (o,window.getLast?) with
      | none => rw [List.filterMap_cons_none he]; rfl
      | some e => rw [List.filterMap_cons_some he]; rfl
    rw [hsnoc,List.filter_append]
    cases hs : o.stringValue with
    | none =>
      -- a row without a text is no gear event
      have hnone : windowEvent texts (o,window.getLast?) = none := by
        unfold windowEvent gearEvent stateChange
        rw [hs]
        simp
      rw [hnone,List.filter_cons_of_neg (by rw [hs]; simp)]
      simpa using hbefore
    | some gear =>
      rw [List.filter_cons_of_pos (by rw [hs]; rfl),List.filter_nil]
      cases hchange : holds (isChange texts o window.getLast?) with
      | false =>
        have hnone : windowEvent texts (o,window.getLast?) = none := by
          unfold windowEvent
          rw [hchange]
          rfl
        obtain ⟨b,hb,hstring⟩ := not_change h (by rw [hs]; rfl) hchange
        obtain ⟨front,rfl⟩ := List.getLast?_eq_some_iff.mp hb
        have hlast : isDriving o =
            lastOn isDriving ((front ++ [b]).filter (fun o => o.stringValue.isSome)) := by
          rw [List.filter_append,List.filter_cons_of_pos (by rw [hstring,hs]; rfl),List.filter_nil,
            lastOn_snoc]
          unfold isDriving
          rw [hstring]
        rw [hnone,runs_repeat hlast,lastOn_snoc,hlast]
        simpa using hbefore
      | true =>
        have hfield := hgear o (by simp)
        obtain ⟨e,he,hdriving,htime⟩ : ∃ e, windowEvent texts (o,window.getLast?) = some e ∧
            holds e.isDriving = isDriving o ∧ e.sourceTimestamp = observedAt o := by
          unfold windowEvent gearEvent stateChange
          rw [hchange]
          dsimp only
          rw [if_pos hfield,hs]
          refine ⟨_,rfl,?_,rfl⟩
          unfold isDriving
          rw [hs]
        rw [he,Option.toList_some,lastOn_snoc,lastOn_snoc]
        refine ⟨?_,hdriving⟩
        unfold statusRuns at hbefore ⊢
        rw [runs_snoc,runs_snoc,hbefore.1,hbefore.2,hdriving,htime]

end Changes

section Drives
variable {ids : IdFunctions} {events : List GearEvent} {vehicleId : Option Str}

/-- A vehicle's segments are the runs of its gear events. -/
theorem segments_runs (vehicleId : Option Str) {rows : List GearEvent}
    (h : rows.Pairwise (fun a b => a.sourceTimestamp ≤ b.sourceTimestamp))
    (hknown : ∀ e ∈ rows, e.isDriving.isSome = true) :
    (segments vehicleId rows).map (fun s => (s.startedAt,s.endedAt)) =
      statusRuns GearEvent.isDriving GearEvent.sourceTimestamp rows := by
  refine islands_segments (fun s : Segment => (s.startedAt,s.endedAt)) ?_ h hknown
  intro n members
  unfold segment
  rw [Option.map_map]
  rfl

theorem mem_segments {rows : List GearEvent} {s : Segment} (h : s ∈ segments vehicleId rows) :
    s.vehicleId = vehicleId := by
  obtain ⟨g,_,hs⟩ := List.mem_filterMap.mp h
  obtain ⟨t,_,rfl⟩ := Option.map_eq_some_iff.mp hs
  rfl

theorem identified_map {α : Type} (f : Segment → α) (g : Drive → α)
    (hfg : ∀ s previous next, g (drive ids s previous next) = f s) (rows : List Segment) :
    (identified ids rows).map g = (orderBy Segment.startedAt rows).map f := by
  unfold identified
  rw [List.map_map]
  have hg : g ∘ (fun p : (Segment × Option Segment) × Option (Segment × Option Segment) =>
      drive ids p.1.1 p.1.2 (p.2.map Prod.fst)) = fun p => f p.1.1 := by
    funext p
    exact hfg _ _ _
  have hf : (fun p : (Segment × Option Segment) × Option (Segment × Option Segment) => f p.1.1) =
      f ∘ Prod.fst ∘ Prod.fst := rfl
  rw [hg,hf,← List.map_map,← List.map_map,overLead_fst,over_fst]

theorem mem_identified {d : Drive} (h : d ∈ identified ids (segments vehicleId
    (vehicleGears vehicleId events))) : d.vehicleId = vehicleId := by
  have hmem := List.mem_map_of_mem (f := Drive.vehicleId) h
  rw [identified_map Segment.vehicleId Drive.vehicleId (fun _ _ _ => rfl)] at hmem
  obtain ⟨s,hs,heq⟩ := List.mem_map.mp hmem
  rw [← heq,mem_segments (mem_orderBy.mp hs)]

/-- The drives of one vehicle are identified from its own segments. -/
theorem drives_vehicle :
    (drives ids events).filter (fun d => d.vehicleId = vehicleId) =
      identified ids (segments vehicleId (vehicleGears vehicleId events)) := by
  unfold drives
  rw [flatMap_filter (f := fun v => identified ids (segments v (vehicleGears v events)))
    (fun k a ha => mem_identified ha) (List.nodup_dedup _)]
  split
  · rfl
  · rename_i hnone
    have hevents : events.filter (fun e => e.vehicleId = vehicleId) = [] := by
      refine List.filter_eq_nil_iff.mpr ?_
      intro e he heq
      rw [List.mem_dedup] at hnone
      exact hnone (List.mem_map.mpr ⟨e,he,of_decide_eq_true heq⟩)
    unfold vehicleGears
    rw [hevents]
    simp [segments,sessionizedGears,numbered,marked,identified,overLead]

end Drives

end Woodhouse.Drives
