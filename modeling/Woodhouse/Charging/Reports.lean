import Woodhouse.Charging.Scan

namespace Woodhouse.Charging
open Sql

/-- Whether a signal reports an active charge, and when. -/
abbrev Report := Option (Bool × Int)

def report (signal : Signal) : Report := signal.map (fun c => (decide (c.1 = .active),c.2))

/-- The view's status, from the reports alone. -/
def reportStatus : Report → Report → Option Bool
  | some (true,_), _ => some true
  | some (false,detailedAt), some (coarse,coarseAt) =>
    some (coarse && decide (detailedAt + fallbackInterval < coarseAt))
  | some (false,_), none => none
  | none, coarse => coarse.map Prod.fst

/-- A scan that remembers reports instead of classes. -/
structure ReportState where
  detailed : Report := none
  coarse : Report := none
  sessions : Sessions := {}

def Sessions.next (s : Sessions) (t : Int) : Option Bool → Sessions
  | some charging => s.step t charging
  | none => s

def ChargeRow.report (field : Field) (row : ChargeRow) : Report :=
  Charging.report (row.signal field)

def reportStep (s : ReportState) (row : ChargeRow) : ReportState :=
  let detailed := (row.report .detailedChargeState).or s.detailed
  let coarse := (row.report .chargeState).or s.coarse
  { detailed, coarse
    sessions := s.sessions.next row.sourceTimestamp (reportStatus detailed coarse) }

def ScanState.reports (s : ScanState) : ReportState :=
  { detailed := report s.detailed, coarse := report s.coarse, sessions := s.sessions }

section Simulation
variable {s : ScanState} {row : ChargeRow}

theorem report_or (a b : Signal) : report (a.or b) = (report a).or (report b) := by
  cases a <;> rfl

/-- The view reads no more of its signals than their reports. -/
theorem viewStatus_report {detailed coarse : Signal}
    (hd : ∀ c t, detailed = some (c,t) → c ≠ .unknown)
    (hc : ∀ c t, coarse = some (c,t) → c = .active ∨ c = .terminal) :
    viewStatus detailed coarse = reportStatus (report detailed) (report coarse) := by
  cases coarse with
  | none =>
    cases detailed with
    | none => rfl
    | some d =>
      obtain ⟨d,t⟩ := d
      rw [viewStatus_detailed]
      cases d <;> rfl
  | some c =>
    obtain ⟨c,t⟩ := c
    have hclass := hc c t rfl
    rw [viewStatus_coarse hd hclass]
    cases detailed with
    | none => rfl
    | some d =>
      obtain ⟨d,at_⟩ := d
      by_cases hactive : d = .active
      · subst hactive
        rfl
      · simp only [referenceStatus,if_neg hactive,report,Option.map_some,
          decide_eq_false hactive,reportStatus,gt_iff_lt,Bool.decide_and]

theorem reports_step (hk : KnownSignals s) :
    (scanStep viewStatus s row).reports = reportStep s.reports row := by
  have hknown := hk.step viewStatus row
  have hstatus := viewStatus_report hknown.detailed hknown.coarse
  unfold scanStep at hstatus ⊢
  unfold ScanState.reports reportStep
  dsimp only at hstatus ⊢
  rw [hstatus,report_or,report_or]
  rfl

theorem reports_foldl (rows : List ChargeRow) (hk : KnownSignals s) :
    (rows.foldl (scanStep viewStatus) s).reports = rows.foldl reportStep s.reports := by
  induction rows generalizing s with
  | nil => rfl
  | cons row rows ih =>
    rw [List.foldl_cons,List.foldl_cons,ih (hk.step viewStatus row),reports_step hk]

theorem reports_scan (rows : List ChargeRow) :
    (scan viewStatus rows).reports = rows.foldl reportStep {} :=
  reports_foldl rows (knownSignals_scan viewStatus [])

end Simulation

section Sessions

variable {s : Sessions} {t : Int} {charging : Bool}

/-- Nothing starts or ends where the status is the one before. -/
theorem Sessions.step_same (h : s.openedAt.isSome = charging) : s.step t charging = s := by
  unfold Sessions.step
  cases ho : s.openedAt with
  | none =>
    rw [ho] at h
    subst h
    rfl
  | some o =>
    rw [ho] at h
    subst h
    rfl

end Sessions

/-- The sessions of a state are those of its status. -/
def Settled (s : ReportState) : Prop :=
  ∀ charging, reportStatus s.detailed s.coarse = some charging →
    s.sessions.openedAt.isSome = charging

theorem Settled.next {s : ReportState} (h : Settled s) (t : Int) :
    s.sessions.next t (reportStatus s.detailed s.coarse) = s.sessions := by
  cases hs : reportStatus s.detailed s.coarse with
  | none => rfl
  | some charging => exact Sessions.step_same (h charging hs)

theorem Settled.step (s : ReportState) (row : ChargeRow) : Settled (reportStep s row) := by
  intro charging hs
  unfold reportStep at hs ⊢
  dsimp only at hs ⊢
  rw [hs]
  exact openedAt_step

theorem Settled.foldl {s : ReportState} (h : Settled s) (rows : List ChargeRow) :
    Settled (rows.foldl reportStep s) := by
  induction rows generalizing s with
  | nil => exact h
  | cons row rows ih => exact ih (Settled.step s row)

theorem report_time {field : Field} {row : ChargeRow} {charging : Bool} {t : Int}
    (h : row.report field = some (charging,t)) : t = row.sourceTimestamp := by
  obtain ⟨⟨c,at_⟩,hsignal,hc⟩ := Option.map_eq_some_iff.mp h
  cases hc
  exact (signal_known hsignal).2.1

theorem report_detailed_or_coarse (row : ChargeRow) :
    row.report .detailedChargeState = none ∨ row.report .chargeState = none := by
  unfold ChargeRow.report report ChargeRow.signal ChargeRow.known
  cases row.field with
  | detailedChargeState => simp
  | chargeState => simp

section Message

/-- No two rows report different values of one signal. -/
def Agreeing (rows : List ChargeRow) : Prop :=
  ∀ a ∈ rows, ∀ b ∈ rows, ∀ field, ∀ x ∈ a.report field, ∀ y ∈ b.report field, x = y

/-- The detailed and the coarse value of a message pull apart: the detailed one leaves the
sessions as they are, while the coarse one, read without it, starts or ends one. -/
def Torn (s : ReportState) (rows : List ChargeRow) : Prop :=
  ∃ d ∈ rows, ∃ c ∈ rows, ∃ x ∈ d.report .detailedChargeState,
    (c.report .chargeState).isSome = true ∧ s.sessions.openedAt.isSome = x.1 ∧
    reportStatus s.detailed (c.report .chargeState) = some !x.1

instance (s : ReportState) (rows : List ChargeRow) : Decidable (Torn s rows) := by
  unfold Torn
  infer_instance

/-- A state and the rows of one message at `t` to come. -/
structure Arrival (s : ReportState) (rows : List ChargeRow) (t : Int) : Prop where
  times : ∀ r ∈ rows, r.sourceTimestamp = t
  agree : Agreeing rows
  settled : Settled s
  coarse : ∀ charging at_, s.coarse = some (charging,at_) → at_ ≤ t

def afterMessage (s : ReportState) (t : Int) (rows : List ChargeRow) : ReportState :=
  let detailed := (lastValue (ChargeRow.report .detailedChargeState) rows).or s.detailed
  let coarse := (lastValue (ChargeRow.report .chargeState) rows).or s.coarse
  { detailed, coarse, sessions := s.sessions.next t (reportStatus detailed coarse) }

theorem reportStatus_now {charging coarse : Bool} {t at_ : Int} (h : at_ ≤ t) :
    reportStatus (some (charging,t)) (some (coarse,at_)) = some charging := by
  cases charging with
  | true => rfl
  | false =>
    have hstale : ¬ t + fallbackInterval < at_ := by
      unfold fallbackInterval
      omega
    simp [reportStatus,hstale]

theorem Sessions.next_next {s : Sessions} {t : Int} {status status' : Option Bool}
    (h : status = status' ∨ ∀ charging, status = some charging → s.openedAt.isSome = charging) :
    (s.next t status).next t status' = s.next t status' := by
  rcases h with rfl | hsame
  · cases status with
    | none => rfl
    | some charging => exact Sessions.step_same openedAt_step
  · have hnext : s.next t status = s := by
      cases status with
      | none => rfl
      | some charging => exact Sessions.step_same (hsame charging rfl)
    rw [hnext]

variable {s : ReportState} {message rows : List ChargeRow} {t : Int}

theorem Arrival.known (h : Arrival s message t) (hrows : rows ⊆ message) {field : Field}
    {x : Bool × Int} (hx : lastValue (ChargeRow.report field) rows = some x) :
    ∃ r ∈ message, r.report field = some x ∧ x.2 = t := by
  obtain ⟨r,hr,hx⟩ := lastValue_eq_some hx
  exact ⟨r,hrows hr,hx,(report_time hx).trans (h.times r (hrows hr))⟩

/-- A further row of the message leaves its status, or the status before it changed
nothing. -/
theorem Arrival.status (h : Arrival s message t) (hn : ¬ Torn s message) (hrows : rows ⊆ message)
    {row : ChargeRow} (hrow : row ∈ message) :
    reportStatus (afterMessage s t rows).detailed (afterMessage s t rows).coarse =
      reportStatus (afterMessage s t (rows ++ [row])).detailed
        (afterMessage s t (rows ++ [row])).coarse ∨
    ∀ charging, reportStatus (afterMessage s t rows).detailed (afterMessage s t rows).coarse =
      some charging → s.sessions.openedAt.isSome = charging := by
  unfold afterMessage
  dsimp only
  rw [lastValue_snoc,lastValue_snoc]
  cases hd : lastValue (ChargeRow.report .detailedChargeState) rows with
  | some d =>
    obtain ⟨a,ha,hda,htime⟩ := h.known hrows hd
    obtain ⟨charging,at_⟩ := d
    change at_ = t at htime
    subst htime
    have hdetailed : (row.report .detailedChargeState).or (some (charging,at_)) =
        some (charging,at_) := by
      cases hr : row.report .detailedChargeState with
      | none => rfl
      | some x =>
        rw [h.agree row hrow a ha _ x hr _ hda]
        rfl
    rw [hdetailed,Option.some_or,Option.or_assoc]
    cases charging with
    | true => exact .inl rfl
    | false =>
      -- the detailed value decides, whatever coarse value is known
      cases hc : (lastValue (ChargeRow.report .chargeState) rows).or s.coarse with
      | none =>
        refine .inr ?_
        intro b hb
        cases hb
      | some c =>
        refine .inl ?_
        have hle : ∀ x : Bool × Int, (lastValue (ChargeRow.report .chargeState) rows).or
            s.coarse = some x → x.2 ≤ at_ := by
          intro x hx
          rcases Option.or_eq_some_iff.mp hx with hx | ⟨_,hx⟩
          · obtain ⟨_,_,_,htime⟩ := h.known hrows hx
            exact Int.le_of_eq htime
          · exact h.coarse x.1 x.2 hx
        cases hr : row.report .chargeState with
        | none => rw [Option.none_or]
        | some x =>
          have htime : x.2 ≤ at_ :=
            Int.le_of_eq ((report_time (t := x.2) hr).trans (h.times row hrow))
          rw [Option.some_or,reportStatus_now (hle c hc),reportStatus_now htime]
  | none =>
    rw [Option.or_none,Option.none_or]
    cases hc : lastValue (ChargeRow.report .chargeState) rows with
    | none =>
      rw [Option.none_or]
      exact .inr h.settled
    | some c =>
      obtain ⟨b,hb,hcb,htime⟩ := h.known hrows hc
      obtain ⟨coarse,at_⟩ := c
      change at_ = t at htime
      subst htime
      have hcoarse : (row.report .chargeState).or (some (coarse,at_)) = some (coarse,at_) := by
        cases hr : row.report .chargeState with
        | none => rfl
        | some x =>
          rw [h.agree row hrow b hb _ x hr _ hcb]
          rfl
      rw [hcoarse,Option.some_or]
      cases hr : row.report .detailedChargeState with
      | none => exact .inl (by rw [Option.none_or])
      | some x =>
        obtain ⟨charging,time⟩ := x
        have htime := (report_time hr).trans (h.times row hrow)
        subst htime
        rw [Option.some_or,reportStatus_now (Int.le_refl time)]
        cases hstatus : reportStatus s.detailed (some (coarse,time)) with
        | none =>
          refine .inr ?_
          intro c hc
          cases hc
        | some before =>
          by_cases heq : before = charging
          · exact .inl (by rw [heq])
          · refine .inr ?_
            intro c hc
            cases hc
            have hbefore : before = !charging := by
              cases before <;> cases charging <;> simp_all
            by_contra hopen
            refine hn ⟨row,hrow,b,hb,(charging,time),hr,by rw [hcb]; rfl,?_,?_⟩
            · rw [hbefore] at hopen
              revert hopen
              cases s.sessions.openedAt.isSome <;> cases charging <;> simp
            · rw [hcb,hstatus,hbefore]

/-- What the rows of a message do that is not torn, in any order. -/
theorem Arrival.foldl (h : Arrival s message t) (hn : ¬ Torn s message) (hrows : rows ⊆ message) :
    rows.foldl reportStep s = afterMessage s t rows := by
  induction rows using List.reverseRecOn with
  | nil =>
    unfold afterMessage
    simp only [lastValue_nil,Option.none_or,h.settled.next,List.foldl_nil]
  | append_singleton rows row ih =>
    have hbefore : rows ⊆ message := fun r hr => hrows (List.mem_append_left _ hr)
    have hrow : row ∈ message := hrows (by simp)
    rw [List.foldl_append,ih hbefore,List.foldl_cons,List.foldl_nil]
    have hnext := Sessions.next_next (t := t) (h.status hn hbefore hrow)
    unfold reportStep
    rw [h.times row hrow]
    unfold afterMessage at hnext ⊢
    dsimp only at hnext ⊢
    rw [lastValue_snoc,lastValue_snoc] at hnext ⊢
    rw [Option.or_assoc,Option.or_assoc] at hnext ⊢
    rw [hnext]

theorem Arrival.perm {message' : List ChargeRow} (h : Arrival s message t)
    (hn : ¬ Torn s message) (hperm : message'.Perm message) :
    message'.foldl reportStep s = message.foldl reportStep s := by
  rw [h.foldl hn (List.Perm.subset hperm),h.foldl hn (List.Subset.refl _)]
  unfold afterMessage
  have hsame : ∀ field, lastValue (ChargeRow.report field) message' =
      lastValue (ChargeRow.report field) message := by
    intro field
    refine lastValue_perm hperm ?_
    intro a ha b hb x y hx hy
    exact h.agree a (hperm.mem_iff.mp ha) b (hperm.mem_iff.mp hb) field x hx y hy
  rw [hsame,hsame]

end Message

end Woodhouse.Charging
