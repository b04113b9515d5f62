import Mathlib.Data.List.Induction
import Mathlib.Data.List.Pairwise
import Mathlib.Data.List.TakeWhile
import Woodhouse.Charging.Sessions
import Woodhouse.Sql.Islands

namespace Woodhouse.Charging
open Sql

/-- The latest known class of a signal, and when it was observed. -/
abbrev Signal := Option (StateClass × Int)

/-- Whether the vehicle charges, from the latest known signals. -/
def referenceStatus (detailed coarse : Signal) : Option Bool :=
  match detailed with
  | some (detailedClass,detailedAt) =>
    if detailedClass = .active then some true
    else
      match coarse with
      | some (coarseClass,coarseAt) =>
        some (decide (coarseClass = .active ∧ coarseAt > detailedAt + fallbackInterval))
      | none => some false
  | none => coarse.map (fun c => decide (c.1 = .active))

/-- The sessions of a scan: the finished ones, and the start of one under way. -/
structure Sessions where
  closed : List (Int × Int) := []
  openedAt : Option Int := none
  deriving DecidableEq

def Sessions.toList (s : Sessions) : List (Int × Option Int) :=
  s.closed.map (fun c => (c.1,some c.2)) ++ s.openedAt.toList.map (fun t => (t,none))

/-- A session starts when charging becomes true and ends when it becomes false. -/
def Sessions.step (s : Sessions) (t : Int) (charging : Bool) : Sessions :=
  match charging, s.openedAt with
  | true, none => { s with openedAt := some t }
  | false, some started => { closed := s.closed ++ [(started,t)], openedAt := none }
  | _, _ => s

structure ScanState where
  detailed : Signal := none
  coarse : Signal := none
  sessions : Sessions := {}

def ChargeRow.signal (field : Field) (row : ChargeRow) : Signal :=
  row.known field (fun r => (r.stateClass,r.sourceTimestamp))

/-- Take one observation: unknown values change nothing, and while neither signal is
known the event is ignored. -/
def scanStep (status : Signal → Signal → Option Bool) (s : ScanState) (row : ChargeRow) :
    ScanState :=
  let detailed := (row.signal .detailedChargeState).or s.detailed
  let coarse := (row.signal .chargeState).or s.coarse
  { detailed, coarse
    sessions :=
      match status detailed coarse with
      | some charging => s.sessions.step row.sourceTimestamp charging
      | none => s.sessions }

def scan (status : Signal → Signal → Option Bool) (rows : List ChargeRow) : ScanState :=
  rows.foldl (scanStep status) {}

/-- The sequential state machine of the session boundary rules. -/
def referenceScan (rows : List ChargeRow) : List (Int × Option Int) :=
  (scan referenceStatus rows).sessions.toList

theorem scan_snoc (status : Signal → Signal → Option Bool) (rows : List ChargeRow)
    (row : ChargeRow) : scan status (rows ++ [row]) = scanStep status (scan status rows) row := by
  unfold scan
  rw [List.foldl_append]
  rfl

section Windows

/-- The status the `CASE` expressions compute from the carried values. -/
def viewStatus (detailed coarse : Signal) : Option Bool :=
  isCharging
    { detailedClass := detailed.map Prod.fst, detailedAt := detailed.map Prod.snd
      detailedMessageId := none
      coarseClass := coarse.map Prod.fst, coarseAt := coarse.map Prod.snd }

theorem lastValue_signal (status : Signal → Signal → Option Bool) (rows : List ChargeRow) :
    (scan status rows).detailed =
      lastValue (ChargeRow.signal .detailedChargeState) rows ∧
    (scan status rows).coarse = lastValue (ChargeRow.signal .chargeState) rows := by
  induction rows using List.reverseRecOn with
  | nil => exact ⟨rfl,rfl⟩
  | append_singleton rows row ih =>
    rw [scan_snoc,lastValue_snoc,lastValue_snoc,← ih.1,← ih.2]
    exact ⟨rfl,rfl⟩

theorem lastValue_map {α : Type} (field : Field) (f : StateClass × Int → α)
    (x : ChargeRow → α) (hx : ∀ row, x row = f (row.stateClass,row.sourceTimestamp))
    (rows : List ChargeRow) :
    lastValue (ChargeRow.known field x) rows = (lastValue (ChargeRow.signal field) rows).map f := by
  induction rows using List.reverseRecOn with
  | nil => rfl
  | append_singleton rows row ih =>
    rw [lastValue_snoc,lastValue_snoc,ih]
    unfold ChargeRow.signal ChargeRow.known
    split
    · simp [hx]
    · simp

/-- The windows carry what the scan carries. -/
theorem isCharging_carried (status : Signal → Signal → Option Bool) (rows : List ChargeRow) :
    isCharging (carried rows) =
      viewStatus (scan status rows).detailed (scan status rows).coarse := by
  obtain ⟨hd,hc⟩ := lastValue_signal status rows
  rw [hd,hc]
  unfold viewStatus isCharging detailedDecides freshCoarse carried
  rw [lastValue_map .detailedChargeState Prod.fst _ (fun _ => rfl),
    lastValue_map .detailedChargeState Prod.snd _ (fun _ => rfl),
    lastValue_map .chargeState Prod.fst _ (fun _ => rfl),
    lastValue_map .chargeState Prod.snd _ (fun _ => rfl)]

end Windows

section Groups

variable {s : Sessions} {t : Int} {charging : Bool}

/-- A step of the sessions is what a row does to runs. -/
theorem toList_step : (s.step t charging).toList =
    s.toList.map (closeAt (if charging then none else some t)) ++
      if charging && !s.openedAt.isSome then [(t,none)] else [] := by
  obtain ⟨closed,openedAt⟩ := s
  unfold Sessions.toList
  cases charging with
  | true => cases openedAt <;> simp [Sessions.step,closeAt]
  | false => cases openedAt <;> simp [Sessions.step,closeAt]

theorem openedAt_step : (s.step t charging).openedAt.isSome = charging := by
  unfold Sessions.step
  cases charging with
  | true => cases h : s.openedAt <;> simp [h]
  | false => cases h : s.openedAt <;> simp [h]

end Groups

section Pipeline
variable {rows : List ChargeRow} {row : ChargeRow}

/-- Rows of a partition with pairwise distinct timestamps, in window order. -/
abbrev Chronological (rows : List ChargeRow) : Prop :=
  rows.Pairwise (fun a b => a.sourceTimestamp < b.sourceTimestamp)

/-- Rows of a partition in window order. -/
abbrev InOrder (rows : List ChargeRow) : Prop :=
  rows.Pairwise (fun a b => a.sourceTimestamp ≤ b.sourceTimestamp)

theorem chargeEvents_snoc (rows : List ChargeRow) (row : ChargeRow) :
    chargeEvents (rows ++ [row]) = chargeEvents rows ++
      [chargeEvent row (carried (rows ++ [row]))].filter (fun e => e.isCharging.isSome) := by
  unfold chargeEvents
  rw [over_snoc,List.map_append,List.filter_append]
  rfl

theorem chronological_snoc (h : Chronological (rows ++ [row])) :
    Chronological rows ∧ ∀ r ∈ rows, r.sourceTimestamp < row.sourceTimestamp := by
  obtain ⟨hrows,_,hlt⟩ := List.pairwise_append.mp h
  exact ⟨hrows,fun r hr => hlt r hr row List.mem_cons_self⟩

theorem chargeEvents_known {e : ChargeEvent} (h : e ∈ chargeEvents rows) :
    e.isCharging.isSome = true :=
  (List.mem_filter.mp h).2

theorem chargeEvents_inOrder (h : InOrder rows) :
    (chargeEvents rows).Pairwise (fun a b => a.sourceTimestamp ≤ b.sourceTimestamp) := by
  unfold chargeEvents
  refine List.Pairwise.filter _ ?_
  rw [List.pairwise_map]
  have hfst := over_fst carried rows
  rw [← hfst] at h
  exact (List.pairwise_map (f := Prod.fst)).mp h

/-- The runs of the events are the sessions of a scan with the view's status. -/
theorem runs_scan (rows : List ChargeRow) :
    statusRuns ChargeEvent.isCharging ChargeEvent.sourceTimestamp (chargeEvents rows) =
      (scan viewStatus rows).sessions.toList ∧
    lastOn (fun e => holds e.isCharging) (chargeEvents rows) =
      (scan viewStatus rows).sessions.openedAt.isSome := by
  induction rows using List.reverseRecOn with
  | nil => exact ⟨rfl,rfl⟩
  | append_singleton rows row ih =>
    have hstatus := isCharging_carried viewStatus (rows ++ [row])
    rw [chargeEvents_snoc,scan_snoc]
    rw [scan_snoc] at hstatus
    unfold scanStep at hstatus ⊢
    dsimp only at hstatus ⊢
    cases hv : viewStatus ((row.signal .detailedChargeState).or (scan viewStatus rows).detailed)
        ((row.signal .chargeState).or (scan viewStatus rows).coarse) with
    | none =>
      rw [hv] at hstatus
      rw [List.filter_cons_of_neg (by simp [chargeEvent,hstatus]),List.filter_nil,List.append_nil]
      exact ih
    | some charging =>
      rw [hv] at hstatus
      have hon : holds (chargeEvent row (carried (rows ++ [row]))).isCharging = charging := by
        change holds (isCharging (carried (rows ++ [row]))) = charging
        rw [hstatus,holds_some]
      rw [List.filter_cons_of_pos (by simp [chargeEvent,hstatus]),List.filter_nil]
      refine ⟨?_,?_⟩
      · unfold statusRuns at ih ⊢
        rw [runs_snoc,hon,ih.1,ih.2,toList_step]
        rfl
      · rw [lastOn_snoc,hon,openedAt_step]

theorem segments_scan (h : InOrder rows) :
    (segments rows).map (fun s => (s.startedAt,s.endedAt)) =
      (scan viewStatus rows).sessions.toList := by
  rw [← (runs_scan rows).1]
  refine islands_segments (fun s : Segment => (s.startedAt,s.endedAt)) ?_ (chargeEvents_inOrder h)
    (fun _ he => chargeEvents_known he)
  intro n members
  unfold segment
  rw [Option.map_map]
  rfl

end Pipeline

section Statuses

/-- The classes a signal can carry. -/
structure KnownSignals (s : ScanState) : Prop where
  detailed : ∀ c t, s.detailed = some (c,t) → c ≠ .unknown
  coarse : ∀ c t, s.coarse = some (c,t) → c = .active ∨ c = .terminal

theorem signal_known {field : Field} {row : ChargeRow} {c : StateClass} {t : Int}
    (h : row.signal field = some (c,t)) :
    c ≠ .unknown ∧ t = row.sourceTimestamp ∧ (field = .chargeState → c ≠ .starting) := by
  unfold ChargeRow.signal ChargeRow.known at h
  split at h
  · rename_i hc
    cases h
    refine ⟨hc.2,rfl,?_⟩
    intro hf
    rw [hf] at hc
    unfold ChargeRow.stateClass Charging.stateClass
    rw [hc.1]
    dsimp only
    split
    · simp
    · split <;> simp
  · cases h

theorem KnownSignals.step {s : ScanState} (h : KnownSignals s)
    (status : Signal → Signal → Option Bool) (row : ChargeRow) :
    KnownSignals (scanStep status s row) := by
  constructor
  · intro c t hd
    change (row.signal .detailedChargeState).or s.detailed = some (c,t) at hd
    rcases Option.or_eq_some_iff.mp hd with hd | ⟨_,hd⟩
    · exact (signal_known hd).1
    · exact h.detailed c t hd
  · intro c t hd
    change (row.signal .chargeState).or s.coarse = some (c,t) at hd
    rcases Option.or_eq_some_iff.mp hd with hd | ⟨_,hd⟩
    · obtain ⟨hu,_,hs⟩ := signal_known hd
      cases c with
      | active => exact .inl rfl
      | terminal => exact .inr rfl
      | starting => exact absurd rfl (hs rfl)
      | unknown => exact absurd rfl hu
    · exact h.coarse c t hd

theorem knownSignals_scan (status : Signal → Signal → Option Bool) (rows : List ChargeRow) :
    KnownSignals (scan status rows) := by
  induction rows using List.reverseRecOn with
  | nil =>
    constructor <;>
    · intro c t hd
      cases hd
  | append_singleton rows row ih =>
    rw [scan_snoc]
    exact ih.step status row

/-- Once a coarse class is known, the `CASE` expressions decide as the state machine. -/
theorem viewStatus_coarse {detailed : Signal} {c : StateClass} {t : Int}
    (hd : ∀ c t, detailed = some (c,t) → c ≠ .unknown) (hc : c = .active ∨ c = .terminal) :
    viewStatus detailed (some (c,t)) = referenceStatus detailed (some (c,t)) := by
  cases detailed with
  | none => rcases hc with rfl | rfl <;> rfl
  | some d =>
    obtain ⟨d,at_⟩ := d
    have hunknown := hd d at_ rfl
    by_cases hfresh : t > at_ + fallbackInterval
    · rcases hc with rfl | rfl <;> cases d <;>
        simp_all [viewStatus,isCharging,detailedDecides,freshCoarse,referenceStatus,equals,
          isIn,greater]
    · rcases hc with rfl | rfl <;> cases d <;>
        simp_all [viewStatus,isCharging,detailedDecides,freshCoarse,referenceStatus,equals,
          isIn,greater]

theorem viewStatus_detailed (d : StateClass) (t : Int) :
    viewStatus (some (d,t)) none = if d = .active then some true else none := by
  cases d <;> rfl

end Statuses

section BeforeCoarse

/-- The known detailed classes of some rows. -/
def detailedClasses (rows : List ChargeRow) : List StateClass :=
  rows.filterMap (fun r => (r.signal .detailedChargeState).map Prod.fst)

/-- The observations before the first known coarse one. -/
def beforeCoarse (rows : List ChargeRow) : List ChargeRow :=
  rows.takeWhile (fun r => (r.signal .chargeState).isNone)

/-- Before the first known coarse observation, no active detailed observation is
followed by a terminal or starting one. -/
def DetailedNeverEnds (rows : List ChargeRow) : Prop :=
  (detailedClasses (beforeCoarse rows)).Pairwise (fun a b => a = .active → b = .active)

instance (rows : List ChargeRow) : Decidable (DetailedNeverEnds rows) :=
  inferInstanceAs (Decidable (List.Pairwise _ _))

def NoCoarse (rows : List ChargeRow) : Prop := ∀ r ∈ rows, r.signal .chargeState = none

variable {rows : List ChargeRow} {row : ChargeRow}

theorem NoCoarse.of_snoc (h : NoCoarse (rows ++ [row])) :
    NoCoarse rows ∧ row.signal .chargeState = none :=
  ⟨fun r hr => h r (List.mem_append_left _ hr),h row (List.mem_append_right _ List.mem_cons_self)⟩

theorem scan_noCoarse (status : Signal → Signal → Option Bool) (h : NoCoarse rows) :
    (scan status rows).coarse = none := by
  rw [(lastValue_signal status rows).2]
  unfold lastValue
  rw [List.filterMap_eq_nil_iff.mpr h]
  rfl

theorem detailedClasses_snoc (rows : List ChargeRow) (row : ChargeRow) :
    detailedClasses (rows ++ [row]) = detailedClasses rows ++
      ((row.signal .detailedChargeState).map Prod.fst).toList := by
  unfold detailedClasses
  rw [List.filterMap_append]
  cases h : (row.signal .detailedChargeState).map Prod.fst with
  | none => simp [h]
  | some c => simp [h]

/-- The detailed class the scan carries is the last known one. -/
theorem detailed_last (status : Signal → Signal → Option Bool) (rows : List ChargeRow) :
    (scan status rows).detailed.map Prod.fst = (detailedClasses rows).getLast? := by
  induction rows using List.reverseRecOn with
  | nil => rfl
  | append_singleton rows row ih =>
    rw [scan_snoc,detailedClasses_snoc]
    change ((row.signal .detailedChargeState).or (scan status rows).detailed).map Prod.fst = _
    cases row.signal .detailedChargeState with
    | none => simpa using ih
    | some c => simp

/-- What a scan without coarse observations does at its next row. -/
theorem scan_snoc_noCoarse (status : Signal → Signal → Option Bool)
    (h : NoCoarse (rows ++ [row])) :
    (scan status (rows ++ [row])).sessions =
      match status (scan status (rows ++ [row])).detailed none with
      | some charging => (scan status rows).sessions.step row.sourceTimestamp charging
      | none => (scan status rows).sessions := by
  obtain ⟨hrows,hrow⟩ := h.of_snoc
  rw [scan_snoc]
  unfold scanStep
  rw [hrow,scan_noCoarse status hrows]
  rfl

theorem active_snoc (h : .active ∈ detailedClasses rows) :
    .active ∈ detailedClasses (rows ++ [row]) := by
  rw [detailedClasses_snoc]
  exact List.mem_append_left _ h

/-- Without coarse observations the view opens one session and never ends it. -/
theorem view_noCoarse (h : NoCoarse rows) :
    (scan viewStatus rows).sessions.closed = [] ∧
    ((scan viewStatus rows).sessions.openedAt.isSome = true ↔ .active ∈ detailedClasses rows) := by
  induction rows using List.reverseRecOn with
  | nil => exact ⟨rfl,by simp [scan,detailedClasses]⟩
  | append_singleton rows row ih =>
    obtain ⟨hclosed,hopen⟩ := ih h.of_snoc.1
    rw [scan_snoc_noCoarse viewStatus h]
    have hlast := detailed_last viewStatus (rows ++ [row])
    have hclasses := detailedClasses_snoc rows row
    generalize scan viewStatus (rows ++ [row]) = s at hlast ⊢
    cases hd : s.detailed with
    | none =>
      rw [hd] at hlast
      have hnil := List.getLast?_eq_none_iff.mp hlast.symm
      have hbefore : detailedClasses rows = [] := by
        rw [hnil] at hclasses
        exact (List.append_eq_nil_iff.mp hclasses.symm).1
      rw [hbefore] at hopen
      rw [hnil]
      exact ⟨hclosed,hopen⟩
    | some d =>
      obtain ⟨c,t⟩ := d
      rw [hd] at hlast
      rw [viewStatus_detailed]
      by_cases hc : c = .active
      · subst hc
        rw [if_pos rfl]
        have hmem := List.mem_of_getLast? hlast.symm
        dsimp only
        cases ho : (scan viewStatus rows).sessions.openedAt with
        | none => exact ⟨by simp [Sessions.step,ho,hclosed],by simp [Sessions.step,ho,hmem]⟩
        | some o => exact ⟨by simp [Sessions.step,ho,hclosed],by simp [Sessions.step,ho,hmem]⟩
      · rw [if_neg hc]
        refine ⟨hclosed,hopen.trans ⟨active_snoc,?_⟩⟩
        intro hm
        rw [hclasses] at hm
        rcases List.mem_append.mp hm with hm | hm
        · exact hm
        · rw [hclasses] at hlast
          cases hs : row.signal .detailedChargeState with
          | none => simp [hs] at hm
          | some d =>
            simp only [hs,Option.map_some,Option.toList_some,List.mem_singleton,
              List.getLast?_concat,Option.some.injEq] at hm hlast
            rw [← hm] at hlast
            exact absurd hlast hc

/-- The last of the classes is active if an active one is never ended. -/
theorem last_active {classes : List StateClass} {c : StateClass}
    (h : classes.Pairwise (fun a b => a = .active → b = .active))
    (hlast : classes.getLast? = some c) (hm : .active ∈ classes) : c = .active := by
  obtain ⟨before,rfl⟩ := List.getLast?_eq_some_iff.mp hlast
  rcases List.mem_append.mp hm with hm | hm
  · exact (List.pairwise_append.mp h).2.2 _ hm c List.mem_cons_self rfl
  · exact (List.mem_singleton.mp hm).symm

theorem referenceStatus_detailed (d : StateClass) (t : Int) :
    referenceStatus (some (d,t)) none = some (decide (d = .active)) := by
  cases d <;> rfl

/-- A scan that closes nothing it should not agrees with the view. -/
theorem agree_noCoarse (h : NoCoarse rows)
    (hnever : (detailedClasses rows).Pairwise (fun a b => a = .active → b = .active)) :
    (scan referenceStatus rows).sessions = (scan viewStatus rows).sessions := by
  induction rows using List.reverseRecOn with
  | nil => rfl
  | append_singleton rows row ih =>
    have hrows : (detailedClasses rows).Pairwise (fun a b => a = .active → b = .active) := by
      rw [detailedClasses_snoc] at hnever
      exact (List.pairwise_append.mp hnever).1
    have hagree := ih h.of_snoc.1 hrows
    rw [scan_snoc_noCoarse referenceStatus h,scan_snoc_noCoarse viewStatus h,hagree]
    have hsame : (scan referenceStatus (rows ++ [row])).detailed =
        (scan viewStatus (rows ++ [row])).detailed := by
      rw [(lastValue_signal referenceStatus _).1,(lastValue_signal viewStatus _).1]
    rw [hsame]
    have hlast := detailed_last viewStatus (rows ++ [row])
    cases hd : (scan viewStatus (rows ++ [row])).detailed with
    | none => rfl
    | some d =>
      obtain ⟨c,t⟩ := d
      rw [hd] at hlast
      rw [viewStatus_detailed,referenceStatus_detailed]
      by_cases hc : c = .active
      · rw [if_pos hc,decide_eq_true hc]
      · rw [if_neg hc,decide_eq_false hc]
        have hnone : (scan viewStatus rows).sessions.openedAt = none := by
          cases ho : (scan viewStatus rows).sessions.openedAt with
          | none => rfl
          | some o =>
            have hm := (view_noCoarse h.of_snoc.1).2.mp (by rw [ho]; rfl)
            exact absurd (last_active hnever hlast.symm (active_snoc hm)) hc
        dsimp only
        unfold Sessions.step
        rw [hnone]

theorem closed_step (s : Sessions) (t : Int) (charging : Bool) :
    s.closed <+: (s.step t charging).closed := by
  unfold Sessions.step
  split
  · exact List.prefix_refl _
  · exact List.prefix_append _ _
  · exact List.prefix_refl _

theorem closed_scanStep (status : Signal → Signal → Option Bool) (s : ScanState)
    (row : ChargeRow) : s.sessions.closed <+: (scanStep status s row).sessions.closed := by
  unfold scanStep
  dsimp only
  split
  · exact closed_step _ _ _
  · exact List.prefix_refl _

theorem closed_foldl (status : Signal → Signal → Option Bool) (s : ScanState)
    (rows : List ChargeRow) :
    s.sessions.closed <+: (rows.foldl (scanStep status) s).sessions.closed := by
  induction rows generalizing s with
  | nil => exact List.prefix_refl _
  | cons row rows ih => exact (closed_scanStep status s row).trans (ih _)

/-- Where an active detailed class is ended, the state machine has closed a session at
the time of one of these rows. -/
theorem closes_noCoarse (h : NoCoarse rows)
    (hends : ¬ (detailedClasses rows).Pairwise (fun a b => a = .active → b = .active)) :
    ∃ c rest, (scan referenceStatus rows).sessions.closed = c :: rest ∧
      ∃ r ∈ rows, c.2 = r.sourceTimestamp := by
  induction rows using List.reverseRecOn with
  | nil => exact absurd List.Pairwise.nil hends
  | append_singleton rows row ih =>
    by_cases hrows : (detailedClasses rows).Pairwise (fun a b => a = .active → b = .active)
    · have hagree := agree_noCoarse h.of_snoc.1 hrows
      obtain ⟨hclosed,hopen⟩ := view_noCoarse h.of_snoc.1
      have hlast := detailed_last referenceStatus (rows ++ [row])
      have hclasses := detailedClasses_snoc rows row
      -- the new class ends an active one
      cases hs : row.signal .detailedChargeState with
      | none =>
        rw [hs] at hclasses
        rw [hclasses] at hends
        exact absurd (by simpa using hrows) hends
      | some d =>
        simp only [hs,Option.map_some,Option.toList_some] at hclasses
        rw [hclasses] at hends hlast
        rw [List.getLast?_concat] at hlast
        have hactive : .active ∈ detailedClasses rows ∧ d.1 ≠ .active := by
          by_contra hcon
          refine hends (List.pairwise_append.mpr ⟨hrows,List.pairwise_singleton _ _,?_⟩)
          intro a ha b hb hactive
          rw [List.mem_singleton.mp hb]
          by_contra hne
          exact hcon ⟨hactive ▸ ha,hne⟩
        obtain ⟨hm,hne⟩ := hactive
        have hsome := hopen.mpr hm
        rw [scan_snoc_noCoarse referenceStatus h,hagree]
        obtain ⟨e,hd,he⟩ := Option.map_eq_some_iff.mp hlast
        obtain ⟨c,t⟩ := e
        rw [hd,referenceStatus_detailed,decide_eq_false (by rw [← he] at hne; exact hne)]
        obtain ⟨start,hstart⟩ := Option.isSome_iff_exists.mp hsome
        dsimp only
        unfold Sessions.step
        rw [hstart,hclosed]
        exact ⟨(start,row.sourceTimestamp),[],rfl,row,by simp,rfl⟩
    · obtain ⟨c,rest,hc,r,hr,ht⟩ := ih h.of_snoc.1 hrows
      have hp := closed_scanStep referenceStatus (scan referenceStatus rows) row
      rw [hc,← scan_snoc] at hp
      obtain ⟨more,hmore⟩ := hp
      exact ⟨c,rest ++ more,by rw [← hmore]; rfl,r,List.mem_append_left _ hr,ht⟩

end BeforeCoarse

end Woodhouse.Charging
