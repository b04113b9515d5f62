import Mathlib.Data.Fintype.Basic
import Woodhouse.BigQuery.Views

namespace Woodhouse.BigQuery
open Effects

variable {ι : Type} [DecidableEq ι]

/-- What a process does to the dataset: a reconciliation of its views, or its provisioning. -/
inductive Job where
  | reconcile (reconciler : AnalyticsViewReconciler) (hex : String) (now : Int)
  | provision (provisioner : BigQueryDatasetProvisioner) (invitationEmail hex : String) (now : Int)

def Job.program (lib : Library) (rawTelemetrySchema : List SchemaField) (datasetId : String) :
    Job → Program Unit
  | .reconcile reconciler hex now => do
    let _ ← BigQuery.reconcile lib reconciler datasetId hex now
    pure ()
  | .provision provisioner invitationEmail hex now =>
    BigQuery.provision lib rawTelemetrySchema provisioner datasetId invitationEmail hex now

def Call.isDataset : Call → Bool
  | .createDataset .. => true
  | .getDataset => true
  | .updateDataset .. => true
  | _ => false

/-- A call on the dataset that raises had no effect. -/
def datasetAnswered (_ : Warehouse) (call : Call) : Choice → Bool
  | .lost _ => !call.isDataset
  | _ => true

section Writes

/-- The access entries an accepted write put on the dataset. -/
def accessWritten : ClientEvent → Option (List AccessEntry)
  | ⟨.updateDataset dataset fields,.ok _⟩ =>
    if .accessEntries ∈ fields then some dataset.accessEntries else none
  | _ => none

/-- An accepted grant or restore of a reconciliation. -/
def isTemporary : ClientEvent → Bool
  | ⟨.updateDataset _ fields,.ok _⟩ => fields = [.accessEntries]
  | _ => false

/-- The access entries of an accepted write of `provision`. -/
def provisioned : ClientEvent → Option (List AccessEntry)
  | ⟨.updateDataset dataset fields,.ok _⟩ =>
    if fields = provisionFields then some dataset.accessEntries else none
  | _ => none

variable (initial : List AccessEntry) (log : Log ι Call Call.Ret Exc)

/-- The dataset's access entries after the calls so far. -/
def entriesAfter : List AccessEntry :=
  ((log.filterMap (fun entry => accessWritten entry.2)).getLast?).getD initial

/-- The permanent entries: those of the last write of `provision`, or the first ones. -/
def permanentEntries : List AccessEntry :=
  ((log.filterMap (fun entry => provisioned entry.2)).getLast?).getD initial

/-- The process has granted its temporary reader and not restored the entries. -/
def Outstanding (i : ι) : Prop := (localEvents i log).countP isTemporary = 1

/-- Once a process has granted, its further calls on the dataset succeed. -/
def RestoresSucceed : Prop :=
  ∀ i grant event, [grant,event].Sublist (localEvents i log) → isTemporary grant = true →
    event.op.isDataset = true → ∃ a, event.ret = .ok a

/-- A restore that leaves no grant outstanding is made by a process that granted while the
entries were the permanent ones, and no provisioning has written them since. -/
def CleanRestores : Prop :=
  ∀ pre mid post i grant restore, log = pre ++ (i,grant) :: (mid ++ (i,restore) :: post) →
    isTemporary grant = true → isTemporary restore = true →
    (∀ j, ¬Outstanding (pre ++ (i,grant) :: (mid ++ [(i,restore)])) j) →
    entriesAfter initial pre = permanentEntries initial pre ∧
      ∀ entry ∈ mid, provisioned entry.2 = none

end Writes

section Local

def NoTemporary (h : List ClientEvent) : Prop := ∀ event ∈ h, isTemporary event = false

/-- The one grant of the history is based on `read`. -/
def Granted (h : List ClientEvent) (read : Dataset) : Prop :=
  ∃ before grant after dataset fields, h = before ++ grant :: after ∧ isTemporary grant = true ∧
    grant.op = .updateDataset dataset fields ∧ dataset.etag = read.etag ∧
    (⟨.getDataset,.ok read⟩ : ClientEvent) ∈ before ∧ NoTemporary before ∧ NoTemporary after

/-- The writes of a process: provisioning, a grant based on a read, or the restore of that read. -/
def AccessRules (h : List ClientEvent) : Call → Prop
  | .updateDataset dataset fields =>
    fields = provisionFields ∨ fields = [.accessEntries] ∧
      (NoTemporary h ∨ ∃ read, Granted h read ∧ dataset.accessEntries = read.accessEntries)
  | _ => True

/-- Whatever a process has done to the end, it has not only granted, unless a call of its
`finally` block failed. -/
def Closed (h : List ClientEvent) : Prop :=
  (∀ grant event, [grant,event].Sublist h → isTemporary grant = true →
    event.op.isDataset = true → ∃ a, event.ret = .ok a) → h.countP isTemporary ≠ 1

variable {h : List ClientEvent}

theorem NoTemporary.snoc {event : ClientEvent} (hn : NoTemporary h)
    (he : isTemporary event = false) : NoTemporary (h ++ [event]) := by
  intro other hother
  rcases List.mem_append.mp hother with hold | hnew
  · exact hn other hold
  · rw [List.mem_singleton.mp hnew]
    exact he

theorem NoTemporary.append {es : List ClientEvent} (hn : NoTemporary h)
    (hes : ∀ event ∈ es, event.op.isDataset = false) : NoTemporary (h ++ es) := by
  intro event hevent
  rcases List.mem_append.mp hevent with hold | hnew
  · exact hn event hold
  · obtain ⟨op, r⟩ := event
    have htable := hes _ hnew
    cases op with
    | updateDataset dataset fields => cases htable
    | _ => rfl

theorem NoTemporary.count (hn : NoTemporary h) : h.countP isTemporary = 0 := by
  rw [List.countP_eq_zero]
  intro event hevent
  rw [hn event hevent]
  exact Bool.false_ne_true

theorem NoTemporary.closed (hn : NoTemporary h) : Closed h := by
  intro _
  rw [hn.count]
  exact Nat.zero_ne_one

theorem Granted.snoc {read : Dataset} {event : ClientEvent} (hg : Granted h read)
    (he : isTemporary event = false) : Granted (h ++ [event]) read := by
  obtain ⟨before, grant, after, dataset, fields, rfl, hgrant, hop, hetag, hread, hb, ha⟩ := hg
  exact ⟨before, grant, after ++ [event], dataset, fields, by simp, hgrant, hop, hetag, hread, hb,
    ha.snoc he⟩

theorem Granted.count {read : Dataset} (hg : Granted h read) : h.countP isTemporary = 1 := by
  obtain ⟨before, grant, after, _, _, rfl, hgrant, _, _, _, hb, ha⟩ := hg
  rw [List.countP_append, List.countP_cons_of_pos hgrant, hb.count, ha.count]

/-- A call of the `finally` block that fails excuses the process. -/
theorem Granted.failed {read : Dataset} {op : Call} {e : Exc} (hg : Granted h read)
    (hop : op.isDataset = true) : Closed (h ++ [⟨op,.error e⟩]) := by
  intro hsucceed
  obtain ⟨before, grant, after, _, _, rfl, hgrant, _⟩ := hg
  have hsub : [grant,(⟨op,.error e⟩ : ClientEvent)].Sublist
      (before ++ grant :: after ++ [⟨op,.error e⟩]) := by
    rw [List.append_assoc]
    refine List.Sublist.trans ?_ (List.sublist_append_right _ _)
    exact List.Sublist.cons_cons _ (List.sublist_append_right _ _)
  obtain ⟨a, ha⟩ := hsucceed grant _ hsub hgrant hop
  cases ha

theorem Granted.restored {read : Dataset} {event : ClientEvent} (hg : Granted h read)
    (he : isTemporary event = true) : Closed (h ++ [event]) := by
  intro _
  rw [List.countP_append, hg.count, List.countP_cons_of_pos he]
  simp

end Local

section Programs
variable {lib : Library} {reconciler : AnalyticsViewReconciler} {datasetId : String}

/-- The calls of the views' part of a reconciliation are about tables. -/
abbrev OnTables {α : Type} (p : Program α) : Prop := Only (fun call => call.isDataset = false) p

theorem rollbackChanges_tables (changes : List Change) (firstError : Option Exc) :
    OnTables (rollbackChanges changes firstError) := by
  induction changes generalizing firstError with
  | nil => trivial
  | cons change rest ih =>
    obtain ⟨reference, snapshot⟩ := change
    cases snapshot with
    | none =>
      refine ⟨rfl, ?_⟩
      intro r
      cases r with
      | error e => exact ih _
      | ok u => exact ih _
    | some snapshot =>
      refine ⟨rfl, ?_⟩
      intro r
      cases r with
      | error e => exact ih _
      | ok current =>
        refine ⟨rfl, ?_⟩
        intro r
        cases r with
        | error e => exact ih _
        | ok u => exact ih _

theorem updateView_tables {current desired : Table} {changes : List Change} {name : String}
    {rest : Program Attempt} (hrest : OnTables rest) :
    OnTables (updateView current desired changes name rest) := by
  refine ⟨rfl, ?_⟩
  intro r
  cases r with
  | error e => trivial
  | ok u => exact hrest

theorem createView_tables {desired : Table} {changes : List Change} {name : String}
    {rest : List Change → Program Attempt} (hrest : ∀ changes, OnTables (rest changes)) :
    OnTables (createView desired changes name rest) := by
  refine ⟨rfl, ?_⟩
  intro r
  cases r with
  | error e => trivial
  | ok stored =>
    refine ⟨rfl, ?_⟩
    intro r
    cases r with
    | error e => trivial
    | ok current => exact updateView_tables (hrest _)

theorem promoteViews_tables (definitions : List AnalyticsView) (changes : List Change)
    (activeViewName : String) :
    OnTables (promoteViews lib reconciler datasetId definitions changes activeViewName) := by
  induction definitions generalizing changes activeViewName with
  | nil => trivial
  | cons definition rest ih =>
    refine ⟨rfl, ?_⟩
    intro r
    cases r with
    | error e =>
      cases e with
      | notFound => exact createView_tables (fun changes => ih changes _)
      | _ => trivial
    | ok current =>
      dsimp only
      split
      · trivial
      · exact updateView_tables (ih _ _)

theorem promote_tables (definitions : List AnalyticsView) :
    OnTables (promote lib reconciler datasetId definitions) := by
  refine Only.bind (promoteViews_tables definitions [] "unknown") ?_
  intro attempt
  unfold concludePromotion
  split
  · trivial
  · refine Only.bind (rollbackChanges_tables _ _) ?_
    intro firstError
    cases firstError with
    | none => trivial
    | some e => trivial

theorem preflightViews_tables (namePrefix : String) (now : Int) (definitions : List AnalyticsView)
    (created : List TableReference) :
    OnTables (preflightViews lib reconciler datasetId namePrefix now definitions created) := by
  induction definitions generalizing created with
  | nil => trivial
  | cons definition rest ih =>
    refine ⟨rfl, ?_⟩
    intro r
    cases r with
    | error e => trivial
    | ok view => exact ih _

theorem cleanupPreflight_tables (references : List TableReference) (failed : Bool) :
    OnTables (cleanupPreflight references failed) := by
  induction references generalizing failed with
  | nil => trivial
  | cons reference rest ih =>
    refine ⟨rfl, ?_⟩
    intro r
    cases r with
    | error e => exact ih _
    | ok u => exact ih _

theorem preflight_tables (hex : String) (now : Int) :
    OnTables (preflight lib reconciler datasetId hex now) := by
  refine Only.bind (only_ofExcept _) ?_
  intro definitions
  refine Only.bind (preflightViews_tables _ _ _ _) ?_
  intro outcome
  refine Only.bind (cleanupPreflight_tables _ _) ?_
  intro failed
  cases failed with
  | true => trivial
  | false =>
    cases outcome.2 with
    | none => trivial
    | some name => trivial

theorem removeStale_tables (desiredNames : List String) (items : List TableReference)
    (removed : Nat) : OnTables (removeStale desiredNames items removed) := by
  induction items generalizing removed with
  | nil => trivial
  | cons item rest ih =>
    unfold removeStale
    split
    · exact ih _
    · refine Only.bind ((only_perform _).mpr rfl) ?_
      intro current
      split
      · exact ih _
      · exact Only.bind ((only_perform _).mpr rfl) (fun _ => ih _)

theorem managedNames_tables (items : List TableReference) (names : List String) :
    OnTables (managedNames items names) := by
  induction items generalizing names with
  | nil => trivial
  | cons item rest ih => exact Only.bind ((only_perform _).mpr rfl) (fun _ => ih _)

theorem reconcileViews_tables (hex : String) (now : Int) :
    OnTables (reconcileViews lib reconciler datasetId hex now) := by
  refine Only.bind (only_ofExcept _) ?_
  intro definitions
  refine Only.bind (preflight_tables hex now) ?_
  intro _
  refine Only.bind (promote_tables definitions) ?_
  intro _
  split
  · refine Only.bind ((only_perform _).mpr rfl) ?_
    intro items
    refine Only.bind (removeStale_tables _ items 0) ?_
    intro removed
    refine Only.bind ((only_perform _).mpr rfl) ?_
    intro items
    refine Only.bind (managedNames_tables items []) ?_
    intro names
    split
    · trivial
    · trivial
  · trivial

theorem tables_rules {α : Type} {p : Program α} (hp : OnTables p) (h : List ClientEvent) :
    Obeys AccessRules
      (fun h' _ => ∃ es, h' = h ++ es ∧ ∀ event ∈ es, event.op.isDataset = false) p h := by
  have honly : Obeys (fun _ call => call.isDataset = false) (fun h' _ => h <+: h') p h :=
    hp.obeys (fun _ _ hcall => hcall) h
  refine (honly.grown.mono ?_).imp ?_
  · intro h' r hq
    exact hq.2
  · intro h' call hcall
    cases call with
    | updateDataset dataset fields => cases hcall
    | _ => trivial

/-- A reconciliation writes its grant on a fresh read, and afterwards only the entries it read. -/
theorem reconcile_rules (hex : String) (now : Int) {h : List ClientEvent} (hn : NoTemporary h) :
    Obeys AccessRules (fun h' _ => Closed h') (reconcile lib reconciler datasetId hex now) h := by
  refine obeys_perform_bind.mpr ⟨trivial, fun e => (hn.snoc rfl).closed, ?_⟩
  intro read
  have hread : NoTemporary (h ++ [⟨.getDataset,.ok read⟩]) := hn.snoc rfl
  refine obeys_perform_bind.mpr ⟨Or.inr ⟨rfl, Or.inl hread⟩, fun e => (hread.snoc rfl).closed, ?_⟩
  intro _
  refine Obeys.withFinally (B := fun h' => Granted h' read) ?_ ?_
  · refine (tables_rules (reconcileViews_tables hex now) _).mono ?_
    intro h' r hq
    obtain ⟨es, rfl, hes⟩ := hq
    have hafter : NoTemporary es := NoTemporary.append (h := []) (by simp [NoTemporary]) hes
    let written : Dataset :=
      { read with accessEntries := temporaryDatasetReaderAccess read.accessEntries
                                     reconciler.reconcilerServiceAccount }
    exact ⟨_, _, es, written, _, by rw [List.append_assoc]; rfl, rfl, rfl, rfl, by simp, hread,
      hafter⟩
  · intro h' hg
    refine obeys_perform_bind.mpr ⟨trivial, fun e => hg.failed rfl, ?_⟩
    intro current
    have hg' : Granted (h' ++ [⟨.getDataset,.ok current⟩]) read := hg.snoc rfl
    refine (obeys_perform _).mpr ⟨Or.inr ⟨rfl, Or.inr ⟨read, hg', rfl⟩⟩, ?_⟩
    intro r
    cases r with
    | error e => exact hg'.failed rfl
    | ok u => exact hg'.restored rfl

theorem repairRawTable_tables (rawTelemetrySchema : List SchemaField)
    (self : BigQueryDatasetProvisioner) :
    OnTables (repairRawTable rawTelemetrySchema self datasetId) := by
  refine Only.bind ((only_perform _).mpr rfl) ?_
  intro _
  refine Only.bind ((only_perform _).mpr rfl) ?_
  intro current
  split
  · trivial
  · split
    · trivial
    · exact (only_perform _).mpr rfl

theorem provision_rules (rawTelemetrySchema : List SchemaField) (self : BigQueryDatasetProvisioner)
    (invitationEmail hex : String) (now : Int) {h : List ClientEvent} (hn : NoTemporary h) :
    Obeys AccessRules (fun h' _ => Closed h')
      (provision lib rawTelemetrySchema self datasetId invitationEmail hex now) h := by
  refine obeys_perform_bind.mpr ⟨trivial, fun e => (hn.snoc rfl).closed, ?_⟩
  intro _
  have hcreated : NoTemporary (h ++ [⟨.createDataset (provisionedDataset self invitationEmail) true,
      .ok ()⟩]) := hn.snoc rfl
  refine obeys_perform_bind.mpr ⟨trivial, fun e => (hcreated.snoc rfl).closed, ?_⟩
  intro current
  have hread : NoTemporary (h ++ [⟨.createDataset (provisionedDataset self invitationEmail) true,
      .ok ()⟩] ++ [⟨.getDataset,.ok current⟩]) := hcreated.snoc rfl
  split
  · exact hread.closed
  · refine obeys_perform_bind.mpr ⟨Or.inl rfl, fun e => (hread.snoc rfl).closed, ?_⟩
    intro _
    refine (tables_rules (repairRawTable_tables rawTelemetrySchema self) _).bind ?_ ?_
    · intro h' _ hq
      obtain ⟨es, rfl, hes⟩ := hq
      refine (reconcile_rules hex now (NoTemporary.append (hread.snoc rfl) hes)).bind ?_ ?_
      · intro h'' _ hc
        exact hc
      · intro h'' e hc
        exact hc
    · intro h' e hq
      obtain ⟨es, rfl, hes⟩ := hq
      exact (NoTemporary.append (hread.snoc rfl) hes).closed

theorem job_rules (rawTelemetrySchema : List SchemaField) (job : Job) :
    Obeys AccessRules (fun h' _ => Closed h') (job.program lib rawTelemetrySchema datasetId) [] := by
  have hn : NoTemporary [] := by simp [NoTemporary]
  cases job with
  | reconcile reconciler hex now =>
    exact (reconcile_rules hex now hn).bind (fun _ _ hc => hc) (fun _ _ hc => hc)
  | provision provisioner invitationEmail hex now =>
    exact provision_rules rawTelemetrySchema provisioner invitationEmail hex now hn

end Programs

section Service

theorem Dataset.update_entries (stored written : Dataset) (fields : List DatasetField) :
    (stored.update written fields).accessEntries =
      if .accessEntries ∈ fields then written.accessEntries else stored.accessEntries := by
  induction fields generalizing stored with
  | nil => rfl
  | cons field rest ih =>
    have hrest := ih (written.replace stored field)
    have hfirst : (stored.update written (field::rest)).accessEntries =
        ((written.replace stored field).update written rest).accessEntries := rfl
    rw [hfirst, hrest]
    by_cases hin : DatasetField.accessEntries ∈ rest
    · rw [if_pos hin, if_pos (List.mem_cons_of_mem _ hin)]
    · rw [if_neg hin]
      cases field with
      | accessEntries => rw [if_pos List.mem_cons_self]; rfl
      | _ => simp [hin, Dataset.replace]

/-- The machine whose calls on the dataset do not take effect when they raise. -/
abbrev datasetMachine : Machine Call Call.Ret Exc Warehouse Choice :=
  clientMachine.restrict datasetAnswered

variable {w w' : Warehouse} {c : Choice} {current : Dataset}

theorem answer_dataset {call : Call} (h : call.isDataset = false) :
    (w.answer call).2.dataset = w.dataset := by
  cases call with
  | createDataset dataset existsOk => cases h
  | getDataset => cases h
  | updateDataset dataset fields => cases h
  | createTable t existsOk =>
    unfold Warehouse.answer
    dsimp only
    split
    · split <;> rfl
    · rfl
  | getTable reference =>
    unfold Warehouse.answer
    dsimp only
    split <;> rfl
  | updateTable written fields =>
    unfold Warehouse.answer
    dsimp only
    split <;> rfl
  | deleteTable reference notFoundOk =>
    unfold Warehouse.answer
    dsimp only
    split
    · split <;> rfl
    · rfl
  | listTables => rfl

theorem unwritten_error (call : Call) (e : Exc) : accessWritten ⟨call,.error e⟩ = none := by
  cases call <;> rfl

theorem unwritten_table {call : Call} {r : Except Exc call.Ret} (h : call.isDataset = false) :
    accessWritten ⟨call,r⟩ = none := by
  cases call with
  | updateDataset dataset fields => cases h
  | _ => rfl

/-- The call left the dataset as it was, and read it as it was. -/
def Keeps (current : Dataset) (event : ClientEvent) (w' : Warehouse) : Prop :=
  w'.dataset = some current ∧ accessWritten event = none ∧
    ∀ read, event = ⟨.getDataset,.ok read⟩ → read = current

/-- The call is an accepted write of a fresh read, which changes its etag. -/
def Writes (current : Dataset) (event : ClientEvent) (w' : Warehouse) : Prop :=
  ∃ written fields, event = ⟨.updateDataset written fields,.ok ()⟩ ∧
    written.etag = current.etag ∧
    w'.dataset = some { current.update written fields with etag := current.etag + 1 }

theorem keeps_error {call : Call} {e : Exc} (held : w'.dataset = some current) :
    Keeps current ⟨call,.error e⟩ w' := by
  refine ⟨held, unwritten_error call e, ?_⟩
  intro read hread
  cases hread

theorem keeps_table {call : Call} {r : Except Exc call.Ret} (hcall : call.isDataset = false)
    (held : w'.dataset = some current) : Keeps current ⟨call,r⟩ w' := by
  refine ⟨held, unwritten_table hcall, ?_⟩
  intro read hread
  cases hread
  cases hcall

theorem dataset_step {call : Call} {r : Except Exc call.Ret} (held : w.dataset = some current)
    (h : datasetMachine w call c = some (r,w')) :
    Keeps current ⟨call,r⟩ w' ∨ Writes current ⟨call,r⟩ w' := by
  obtain ⟨hreliable, hstep⟩ := Machine.restrict_eq h
  cases c with
  | failed name =>
    obtain ⟨rfl, rfl⟩ := Prod.mk.inj (Option.some.inj hstep)
    exact Or.inl (keeps_error held)
  | lost name =>
    obtain ⟨rfl, rfl⟩ := Prod.mk.inj (Option.some.inj hstep)
    have htable : call.isDataset = false := by simpa [datasetAnswered] using hreliable
    exact Or.inl (keeps_error ((answer_dataset htable).trans held))
  | done =>
    have hanswer : w.answer call = (r,w') := Option.some.inj hstep
    by_cases htable : call.isDataset = false
    · have hkept := answer_dataset (w := w) htable
      rw [hanswer] at hkept
      exact Or.inl (keeps_table htable (hkept.trans held))
    · cases call with
      | createDataset dataset existsOk =>
        simp only [Warehouse.answer, held] at hanswer
        split at hanswer
        · obtain ⟨rfl, rfl⟩ := Prod.mk.inj hanswer
          refine Or.inl ⟨held, rfl, ?_⟩
          intro read hread
          cases hread
        · obtain ⟨rfl, rfl⟩ := Prod.mk.inj hanswer
          exact Or.inl (keeps_error held)
      | getDataset =>
        simp only [Warehouse.answer, held] at hanswer
        obtain ⟨rfl, rfl⟩ := Prod.mk.inj hanswer
        refine Or.inl ⟨held, rfl, ?_⟩
        intro read hread
        cases hread
        rfl
      | updateDataset written fields =>
        simp only [Warehouse.answer, held] at hanswer
        split at hanswer
        · obtain ⟨rfl, rfl⟩ := Prod.mk.inj hanswer
          exact Or.inl (keeps_error held)
        · rename_i hfresh
          obtain ⟨rfl, rfl⟩ := Prod.mk.inj hanswer
          exact Or.inr ⟨written, fields, rfl, not_not.mp hfresh, rfl⟩
      | _ => exact absurd rfl htable

end Service

section Runs
variable {jobs : ι → Program Unit} {ps : ι → Program Unit} {initial : List AccessEntry}
  {log : Log ι Call Call.Ret Exc} {w₀ w : Warehouse} {first : Dataset}

omit [DecidableEq ι] in
theorem entriesAfter_snoc (entry : ι × ClientEvent) :
    entriesAfter initial (log ++ [entry]) =
      (accessWritten entry.2).getD (entriesAfter initial log) := by
  unfold entriesAfter
  rw [List.filterMap_append]
  cases h : accessWritten entry.2 with
  | none => simp [h]
  | some entries => simp [h]

omit [DecidableEq ι] in
theorem permanentEntries_snoc (entry : ι × ClientEvent) :
    permanentEntries initial (log ++ [entry]) =
      (provisioned entry.2).getD (permanentEntries initial log) := by
  unfold permanentEntries
  rw [List.filterMap_append]
  cases h : provisioned entry.2 with
  | none => simp [h]
  | some entries => simp [h]

/-- The dataset is what the accepted writes made it, and a read with its etag is a read of it. -/
def Tracked (initial : List AccessEntry) (log : Log ι Call Call.Ret Exc) (w : Warehouse) : Prop :=
  ∃ current, w.dataset = some current ∧ current.accessEntries = entriesAfter initial log ∧
    ∀ i read, (i,(⟨.getDataset,.ok read⟩ : ClientEvent)) ∈ log →
      read.etag ≤ current.etag ∧ (read.etag = current.etag → read = current)

theorem tracked (run : Run datasetMachine jobs w₀ log ps w) (held : w₀.dataset = some first) :
    Tracked first.accessEntries log w := by
  refine run.invariant (I := fun log w => Tracked first.accessEntries log w) ?_ ?_
  · refine ⟨first, held, rfl, ?_⟩
    intro i read hmem
    cases hmem
  · intro log ps w i call k c r w' _ _ does ht
    obtain ⟨current, hcurrent, hentries, hreads⟩ := ht
    rcases dataset_step hcurrent does with hkeeps | hwrites
    · obtain ⟨hkept, hunwritten, hread⟩ := hkeeps
      refine ⟨current, hkept, ?_, ?_⟩
      · rw [entriesAfter_snoc, hunwritten]
        exact hentries
      · intro j read hmem
        rcases List.mem_append.mp hmem with hold | hnew
        · exact hreads j read hold
        · have hevent := (Prod.mk.inj (List.mem_singleton.mp hnew)).2
          rw [hread read hevent.symm]
          exact ⟨Nat.le_refl _, fun _ => rfl⟩
    · obtain ⟨written, fields, hevent, hfresh, hwritten⟩ := hwrites
      refine ⟨_, hwritten, ?_, ?_⟩
      · rw [entriesAfter_snoc, hevent]
        dsimp only
        rw [Dataset.update_entries]
        simp only [accessWritten]
        split
        · rfl
        · exact hentries
      · intro j read hmem
        rcases List.mem_append.mp hmem with hold | hnew
        · obtain ⟨hle, _⟩ := hreads j read hold
          dsimp only
          refine ⟨by omega, ?_⟩
          intro hsame
          omega
        · have hread := (Prod.mk.inj (List.mem_singleton.mp hnew)).2
          rw [hevent] at hread
          cases hread

omit [DecidableEq ι] in
theorem permanentEntries_append {rest : Log ι Call Call.Ret Exc}
    (h : ∀ entry ∈ rest, provisioned entry.2 = none) :
    permanentEntries initial (log ++ rest) = permanentEntries initial log := by
  have hnone : rest.filterMap (fun entry => provisioned entry.2) = [] :=
    List.filterMap_eq_nil_iff.mpr h
  unfold permanentEntries
  rw [List.filterMap_append, hnone, List.append_nil]

theorem temporary_written {event : ClientEvent} (h : isTemporary event = true) :
    accessWritten event ≠ none ∧ provisioned event = none := by
  obtain ⟨call, r⟩ := event
  cases call with
  | updateDataset dataset fields =>
    cases r with
    | error e => cases h
    | ok u =>
      have hfields : fields = [.accessEntries] := by simpa [isTemporary] using h
      subst hfields
      simp [accessWritten, provisioned, provisionFields]
  | _ => cases h

theorem unwritten_event {event : ClientEvent} (h : accessWritten event = none) :
    isTemporary event = false ∧ provisioned event = none := by
  constructor
  · cases ht : isTemporary event with
    | false => rfl
    | true => exact absurd h (temporary_written ht).1
  · obtain ⟨call, r⟩ := event
    cases call with
    | updateDataset dataset fields =>
      cases r with
      | error e => rfl
      | ok u =>
        simp only [accessWritten] at h
        split at h
        · cases h
        · rename_i hfields
          have hother : fields ≠ provisionFields := by
            intro hsame
            rw [hsame] at hfields
            exact hfields List.mem_cons_self
          simp [provisioned, hother]
    | _ => rfl

omit [DecidableEq ι] in
theorem CleanRestores.before {entry : ι × ClientEvent} [DecidableEq ι]
    (h : CleanRestores initial (log ++ [entry])) : CleanRestores initial log := by
  intro pre mid post i grant restore hlog hgrant hrestore hnone
  exact h pre mid (post ++ [entry]) i grant restore (by rw [hlog]; simp) hgrant hrestore hnone

theorem outstanding_snoc {entry : ι × ClientEvent} (h : isTemporary entry.2 = false) (j : ι) :
    Outstanding (log ++ [entry]) j ↔ Outstanding log j := by
  obtain ⟨i, event⟩ := entry
  unfold Outstanding
  rw [local_append, List.countP_append]
  by_cases hj : i = j
  · subst hj
    simp [h]
  · rw [local_cons_other j i event [] hj]
    simp

/-- The grant of a process is a write of what it read, and its read is of the entries then. -/
theorem granted_entries {pre mid : Log ι Call Call.Ret Exc} {i : ι} {grant : ClientEvent}
    {read dataset : Dataset} {fields : List DatasetField}
    (run : Run datasetMachine jobs w₀ (pre ++ (i,grant) :: mid) ps w)
    (held : w₀.dataset = some first) (hgrant : isTemporary grant = true)
    (hop : grant.op = .updateDataset dataset fields) (hetag : dataset.etag = read.etag)
    (hread : (i,(⟨.getDataset,.ok read⟩ : ClientEvent)) ∈ pre) :
    read.accessEntries = entriesAfter first.accessEntries pre := by
  obtain ⟨call, r⟩ := grant
  obtain ⟨qs, t, c, k, t', hbefore, _, does, _⟩ := run.at_event
  obtain ⟨current, hcurrent, hentries, hreads⟩ := tracked hbefore held
  rcases dataset_step hcurrent does with hkeeps | hwrites
  · exact absurd hkeeps.2.1 (temporary_written hgrant).1
  · obtain ⟨written, fields', hevent, hfresh, _⟩ := hwrites
    have hcall : call = .updateDataset written fields' := congrArg Event.op hevent
    dsimp only at hop
    rw [hcall] at hop
    obtain ⟨rfl, rfl⟩ := Call.updateDataset.inj hop
    obtain ⟨_, hsame⟩ := hreads i read hread
    rw [hsame (hetag.symm.trans hfresh)]
    exact hentries

/-- An accepted restore that leaves no grant outstanding writes the permanent entries. -/
theorem restore_permanent (run : Run datasetMachine jobs w₀ log ps w)
    (held : w₀.dataset = some first) {i : ι} {restored read : Dataset}
    (hgranted : Granted (localEvents i log) read)
    (hentries : restored.accessEntries = read.accessEntries)
    (clean : CleanRestores first.accessEntries
      (log ++ [(i,⟨.updateDataset restored [.accessEntries],.ok ()⟩)]))
    (hnone : ∀ j, ¬Outstanding
      (log ++ [(i,⟨.updateDataset restored [.accessEntries],.ok ()⟩)]) j) :
    restored.accessEntries = permanentEntries first.accessEntries log := by
  obtain ⟨before, grant, after, dataset, fields, hlocal, hgrant, hop, hetag, hread, _, _⟩ := hgranted
  obtain ⟨pre, mid, rfl, rfl, rfl⟩ := local_split hlocal
  have hrestore : isTemporary ⟨.updateDataset restored [.accessEntries],.ok ()⟩ = true := rfl
  obtain ⟨hpermanent, hmid⟩ := clean pre mid [] i grant _ (by simp) hgrant hrestore (by simpa using hnone)
  have hsince : ∀ entry ∈ (i,grant) :: mid, provisioned entry.2 = none := by
    intro entry hentry
    rcases List.mem_cons.mp hentry with rfl | hlater
    · exact (temporary_written hgrant).2
    · exact hmid entry hlater
  calc
    restored.accessEntries = read.accessEntries := hentries
    _ = entriesAfter first.accessEntries pre :=
      granted_entries run held hgrant hop hetag (mem_local.mp hread)
    _ = permanentEntries first.accessEntries pre := hpermanent
    _ = permanentEntries first.accessEntries (pre ++ (i,grant) :: mid) :=
      (permanentEntries_append hsince).symm

/-- While no grant is outstanding the entries are the permanent ones. -/
theorem entries_permanent (run : Run datasetMachine jobs w₀ log ps w)
    (held : w₀.dataset = some first)
    (rules : ∀ i, Obeys AccessRules (fun h _ => Closed h) (jobs i) [])
    (clean : CleanRestores first.accessEntries log) (hnone : ∀ j, ¬Outstanding log j) :
    entriesAfter first.accessEntries log = permanentEntries first.accessEntries log := by
  revert clean hnone
  refine run.invariant (I := fun log _ => CleanRestores first.accessEntries log →
    (∀ j, ¬Outstanding log j) →
      entriesAfter first.accessEntries log = permanentEntries first.accessEntries log) ?_ ?_
  · intro _ _
    rfl
  · intro log ps w i call k c r w' before turn _ ih clean hnone
    cases hwritten : accessWritten ⟨call,r⟩ with
    | none =>
      obtain ⟨htemporary, hprovisioned⟩ := unwritten_event hwritten
      rw [entriesAfter_snoc, permanentEntries_snoc, hwritten, hprovisioned]
      refine ih clean.before ?_
      intro j hout
      exact hnone j ((outstanding_snoc htemporary j).mpr hout)
    | some entries =>
      cases call with
      | updateDataset dataset fields =>
        cases r with
        | error e => cases hwritten
        | ok u =>
          have hrule : AccessRules (localEvents i log) (.updateDataset dataset fields) :=
            before.allowed (rules i) turn
          rw [entriesAfter_snoc, permanentEntries_snoc]
          rcases hrule with rfl | ⟨rfl, hgrant | hrestore⟩
          · rfl
          · -- a grant is outstanding now
            have hcount : (localEvents i log).countP isTemporary = 0 := NoTemporary.count hgrant
            refine absurd ?_ (hnone i)
            unfold Outstanding
            rw [local_append, List.countP_append, hcount, local_cons_self]
            rfl
          · obtain ⟨read, hgranted, hentries⟩ := hrestore
            exact restore_permanent before held hgranted hentries clean hnone
      | _ => cases hwritten

/-- In a run whose restores are clean, the dataset's access entries are the permanent ones once
all processes have finished: no temporary reader remains, and no provisioning is undone. -/
theorem access_restored {lib : Library} {rawTelemetrySchema : List SchemaField}
    {datasetId : String} {jobs : ι → Job} {ps : ι → Program Unit} {w₀ w : Warehouse}
    {first : Dataset} {log : Log ι Call Call.Ret Exc}
    (run : Run datasetMachine (fun i => (jobs i).program lib rawTelemetrySchema datasetId) w₀ log
      ps w)
    (held : w₀.dataset = some first) (finished : ∀ i, (ps i).finished = true)
    (restores : RestoresSucceed log) (clean : CleanRestores first.accessEntries log) :
    w.dataset.map Dataset.accessEntries = some (permanentEntries first.accessEntries log) := by
  have rules : ∀ i, Obeys AccessRules (fun h _ => Closed h)
      ((jobs i).program lib rawTelemetrySchema datasetId) [] :=
    fun i => job_rules rawTelemetrySchema (jobs i)
  have hnone : ∀ i, ¬Outstanding log i := by
    intro i
    have hend := run.obeys (rules i)
    have hclosed : Closed (localEvents i log) := by
      cases hp : ps i with
      | ret u =>
        rw [hp] at hend
        exact hend
      | raise e =>
        rw [hp] at hend
        exact hend
      | call op k =>
        have hdone := finished i
        rw [hp] at hdone
        cases hdone
    exact hclosed (fun grant event => restores i grant event)
  obtain ⟨current, hcurrent, hentries, _⟩ := tracked run held
  rw [hcurrent, Option.map_some, hentries, entries_permanent run held rules clean hnone]

/-- What the restore at position `m` of the grant at position `n` is asked. -/
def cleanPair [Fintype ι] (initial : List AccessEntry) (log : Log ι Call Call.Ret Exc) (n m : Nat) :
    Bool :=
  (log[n]?).all (fun grant => (log[m]?).all (fun restore =>
    decide (grant.1 ≠ restore.1) || !isTemporary grant.2 || !isTemporary restore.2 ||
      decide (∃ j, (localEvents j (log.take (m + 1))).countP isTemporary = 1) ||
      (decide (entriesAfter initial (log.take n) = permanentEntries initial (log.take n)) &&
        ((log.take m).drop (n + 1)).all (fun entry => (provisioned entry.2).isNone))))

theorem cleanRestores_of_pairs [Fintype ι]
    (h : ∀ m < log.length, ∀ n < m, cleanPair initial log n m = true) :
    CleanRestores initial log := by
  intro pre mid post i grant restore hlog hgrant hrestore hnone
  have hrestored : log = (pre ++ (i,grant) :: mid) ++ (i,restore) :: post := by
    rw [hlog, List.append_assoc, List.cons_append]
  have hn : log[pre.length]? = some (i,grant) := by
    rw [hlog]
    simp
  have hm : log[(pre ++ (i,grant) :: mid).length]? = some (i,restore) := by
    rw [hrestored]
    simp
  have hpre : log.take pre.length = pre := by
    rw [hlog]
    exact List.take_left
  have hmid : (log.take (pre ++ (i,grant) :: mid).length).drop (pre.length + 1) = mid := by
    rw [hrestored, List.take_left]
    simp
  have hlast : log.take ((pre ++ (i,grant) :: mid).length + 1) =
      pre ++ (i,grant) :: (mid ++ [(i,restore)]) := by
    rw [hrestored, List.take_length_add_append]
    simp
  have hlt : pre.length < (pre ++ (i,grant) :: mid).length := by simp
  have hpair := h _ (List.getElem?_eq_some_iff.mp hm).1 pre.length hlt
  unfold cleanPair at hpair
  rw [hn, hm, hlast, hpre, hmid] at hpair
  have hopen : ¬∃ j, (localEvents j (pre ++ (i,grant) :: (mid ++ [(i,restore)]))).countP
      isTemporary = 1 := fun ⟨j, hj⟩ => hnone j hj
  simp only [Option.all_some, hgrant, hrestore, decide_eq_false hopen] at hpair
  simpa using hpair

def answered : ClientEvent → Bool
  | ⟨_,.ok _⟩ => true
  | ⟨call,.error _⟩ => !call.isDataset

theorem restores_of_answered (h : ∀ entry ∈ log, answered entry.2 = true) : RestoresSucceed log := by
  intro i grant event hsub _ hop
  have hmem : event ∈ localEvents i log := hsub.subset (by simp)
  have hanswered := h (i,event) (mem_local.mp hmem)
  obtain ⟨call, r⟩ := event
  cases r with
  | ok a => exact ⟨a, rfl⟩
  | error e =>
    have hdataset : call.isDataset = true := hop
    simp [answered, hdataset] at hanswered

end Runs

section Examples

def drives : AnalyticsView := { name := "drives", description := "Drives.", sql := "SELECT 1" }

/-- One view, and a hash that returns its text. -/
def oneViewLibrary : Library :=
  { sha256Hex := id, analyticsViews := fun _ _ _ => .ok [drives] }

def reconcileAs (account : String) : Job :=
  .reconcile { projectId := "project", reconcilerServiceAccount := account } "0123456789abcdef" 0

def ownerEntry : AccessEntry :=
  { role := some "OWNER", entityType := "userByEmail", entityId := "owner@example.iam" }

def homerDataset : Dataset := { location := "us-central1", accessEntries := [ownerEntry] }

def homerWarehouse : Warehouse := { dataset := some homerDataset, tables := [] }

def homerProvisioner : BigQueryDatasetProvisioner :=
  { projectId := "project", location := "us-central1", ownerServiceAccount := "owner@example.iam"
    gatewayServiceAccount := "gateway@example.iam", processorServiceAccount := "processor@example.iam"
    adminServiceAccount := "admin@example.iam" }

/-- A provisioning and two reconciliations of one dataset. -/
def overlapping (i : Fin 3) : Job :=
  if i = 0 then .provision homerProvisioner "homer@example.com" "fedcba9876543210" 0
  else if i = 1 then reconcileAs "a@example.iam"
  else reconcileAs "b@example.iam"

/-- The first reconciliation grants after the provisioning wrote the entries, and restores last:
the second one and the provisioning's own grant and restore in between. -/
def overlappingSchedule : List (Fin 3 × Choice) :=
  [(0,.done), (0,.done), (0,.done), (1,.done), (1,.done), (0,.done), (2,.done), (2,.done),
   (0,.done), (0,.done), (0,.done), (0,.done), (2,.failed "BadRequest"), (2,.done), (2,.done),
   (0,.failed "BadRequest"), (0,.done), (0,.done), (1,.failed "BadRequest"), (1,.done), (1,.done)]

set_option maxRecDepth 100000 in
/-- Three grants overlap, and the provisioned entries are restored. -/
theorem access_restored_overlapping : ∃ log ps w,
    Run datasetMachine (fun i => (overlapping i).program oneViewLibrary [] "tesla_u_homer")
      homerWarehouse log ps w ∧
    log.countP (fun entry => isTemporary entry.2) = 6 ∧
    permanentEntries [ownerEntry] log =
      restrictedDatasetAccess homerProvisioner "homer@example.com" ∧
    w.dataset.map Dataset.accessEntries = some (permanentEntries [ownerEntry] log) := by
  obtain ⟨log, ps, w, hrun, hend⟩ := run_of_schedule datasetMachine
    (fun i => (overlapping i).program oneViewLibrary [] "tesla_u_homer") homerWarehouse
    overlappingSchedule
    (fun (log,ps,_) => decide (∀ i, (ps i).finished = true) &&
      log.all (fun entry => answered entry.2) &&
      decide (log.countP (fun entry => isTemporary entry.2) = 6) &&
      decide (permanentEntries [ownerEntry] log =
        restrictedDatasetAccess homerProvisioner "homer@example.com") &&
      decide (∀ m < log.length, ∀ n < m, cleanPair [ownerEntry] log n m = true))
    (by decide +kernel)
  simp only [Bool.and_eq_true, decide_eq_true_eq, List.all_eq_true] at hend
  obtain ⟨⟨⟨⟨hfinished, hanswered⟩, hsix⟩, hpermanent⟩, hclean⟩ := hend
  refine ⟨log, ps, w, hrun, hsix, hpermanent, ?_⟩
  exact access_restored hrun rfl hfinished (restores_of_answered hanswered)
    (cleanRestores_of_pairs hclean)

/-- Two overlapping reconciliations: the one that read while the other's reader was on the
dataset restores it last. -/
theorem access_keeps_reader :
    ¬∀ (jobs : Bool → Job) (ps : Bool → Program Unit) (w₀ w : Warehouse) (first : Dataset)
      (log : Log Bool Call Call.Ret Exc),
      Run datasetMachine (fun i => (jobs i).program oneViewLibrary [] "tesla_u_homer") w₀ log ps w →
      w₀.dataset = some first → (∀ i, (ps i).finished = true) → RestoresSucceed log →
      w.dataset.map Dataset.accessEntries = some (permanentEntries first.accessEntries log) := by
  intro hall
  let jobs (i : Bool) : Job := reconcileAs (if i then "a@example.iam" else "b@example.iam")
  obtain ⟨log, ps, w, hrun, hend⟩ := run_of_schedule datasetMachine
    (fun i => (jobs i).program oneViewLibrary [] "tesla_u_homer") homerWarehouse
    [(true,Choice.done), (true,Choice.done), (false,Choice.done), (false,Choice.done),
     (true,Choice.failed "BadRequest"), (true,Choice.done), (true,Choice.done),
     (false,Choice.failed "BadRequest"), (false,Choice.done), (false,Choice.done)]
    (fun (log,ps,w) => (ps true).finished && (ps false).finished &&
      log.all (fun entry => answered entry.2) &&
      decide (w.dataset.map Dataset.accessEntries =
        some [ownerEntry,readerEntry "a@example.iam"]) &&
      decide (permanentEntries [ownerEntry] log = [ownerEntry]))
    (by decide)
  simp only [Bool.and_eq_true, decide_eq_true_eq, List.all_eq_true] at hend
  obtain ⟨⟨⟨⟨hfirst, hsecond⟩, hanswered⟩, hentries⟩, hpermanent⟩ := hend
  have hfinished : ∀ i, (ps i).finished = true := by
    intro i
    cases i with
    | true => exact hfirst
    | false => exact hsecond
  have hrestored := hall jobs ps homerWarehouse w homerDataset log hrun rfl hfinished
    (restores_of_answered hanswered)
  have hsame : [ownerEntry,readerEntry "a@example.iam"] = [ownerEntry] := by
    rw [← hpermanent]
    exact Option.some.inj (hentries.symm.trans hrestored)
  exact absurd hsame (by decide)

end Examples

end Woodhouse.BigQuery
