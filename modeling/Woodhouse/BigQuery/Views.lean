import Woodhouse.BigQuery.Client
import Woodhouse.Effects.Finally

namespace Woodhouse.BigQuery
open Effects

structure AnalyticsView where
  name : String
  description : String
  sql : String
  deriving DecidableEq

/-- What the reconciler uses of the hash and of the view loader. -/
structure Library where
  sha256Hex : String → String
  analyticsViews : (projectId datasetId dependencyPrefix : String) → Except Exc (List AnalyticsView)

section Labels

def analyticsViewLabels : Labels :=
  [("application","tesla-personal-platform"), ("data_class","restricted-user-telemetry"),
   ("managed_by","analytics-view-reconciler"), ("layer","analytics")]

def legacyAnalyticsViewManagers : List String := ["add-user","analytics-view-reconciler"]

variable (lib : Library)

/-- `labels[key] = value`. -/
def setLabel (labels : Labels) (key value : String) : Labels :=
  if labels.any (fun entry => entry.1 = key) then
    labels.map (fun entry => if entry.1 = key then (key,value) else entry)
  else labels ++ [(key,value)]

def viewLabels (description sql : String) : Labels :=
  setLabel analyticsViewLabels "definition_hash"
    (String.ofList ((lib.sha256Hex (description ++ "\x00" ++ sql)).toList.take 16))

def preflightLabels (description sql : String) : Labels :=
  setLabel (viewLabels lib description sql) "managed_by" "analytics-view-preflight"

def isManagedAnalyticsView (table : Table) : Bool :=
  table.tableType = some .view ∧
  table.labels.get "application" = analyticsViewLabels.get "application" ∧
  table.labels.get "data_class" = analyticsViewLabels.get "data_class" ∧
  table.labels.get "layer" = analyticsViewLabels.get "layer" ∧
  (table.labels.get "managed_by").any legacyAnalyticsViewManagers.contains

end Labels

structure AnalyticsViewReconciler where
  projectId : String
  reconcilerServiceAccount : String
  removeStaleManagedViews : Bool := true

structure AnalyticsViewReconciliation where
  desiredViewCount : Nat
  removedViewCount : Nat
  deriving DecidableEq

structure ViewSnapshot where
  reference : TableReference
  description : Option String
  labels : Labels
  viewQuery : Option String
  viewUseLegacySql : Option Bool
  deriving DecidableEq

/-- What a promotion has changed: a created view, or the snapshot of an existing one. -/
abbrev Change := TableReference × Option ViewSnapshot

def viewFields : List TableField := [.description,.labels,.viewQuery,.viewUseLegacySql]

section Promotion
variable (lib : Library) (self : AnalyticsViewReconciler) (datasetId : String)

def AnalyticsViewReconciler.viewReference (name : String) : TableReference :=
  { projectId := self.projectId, datasetId := datasetId, tableId := name }

def desiredView (definition : AnalyticsView) : Table :=
  { reference := self.viewReference datasetId definition.name
    description := some definition.description
    labels := viewLabels lib definition.description definition.sql
    viewQuery := some definition.sql
    viewUseLegacySql := some false }

def viewSnapshot (current : Table) : ViewSnapshot :=
  { reference := current.reference
    description := current.description
    labels := current.labels
    viewQuery := current.viewQuery
    viewUseLegacySql := current.viewUseLegacySql }

def withDesired (current desired : Table) : Table :=
  { current with description := desired.description
                 labels := desired.labels
                 viewQuery := desired.viewQuery
                 viewUseLegacySql := some false }

def withSnapshot (current : Table) (snapshot : ViewSnapshot) : Table :=
  { current with description := snapshot.description
                 labels := snapshot.labels
                 viewQuery := snapshot.viewQuery
                 viewUseLegacySql := snapshot.viewUseLegacySql }

/-- How the `try` block of a promotion ended, with the local variables its handler reads. -/
structure Attempt where
  changes : List Change
  activeViewName : String
  cause : Option Exc

/-- The update at the end of the loop's body, and the rest of the loop. -/
def updateView (current desired : Table) (changes : List Change) (name : String)
    (rest : Program Attempt) : Program Attempt :=
  .call (.updateTable (withDesired current desired) viewFields) (fun
    | .error e => .ret { changes, activeViewName := name, cause := some e }
    | .ok _ => rest)

/-- The `except NotFound` branch of the loop's body, and what follows it. -/
def createView (desired : Table) (changes : List Change) (name : String)
    (rest : List Change → Program Attempt) : Program Attempt :=
  .call (.createTable desired false) (fun
    | .error e => .ret { changes, activeViewName := name, cause := some e }
    | .ok _ =>
      let changes := changes ++ [(desired.reference,none)]
      .call (.getTable desired.reference) (fun
        | .error e => .ret { changes, activeViewName := name, cause := some e }
        | .ok current => updateView current desired changes name (rest changes)))

/-- The loop of `_promote`. -/
def promoteViews : List AnalyticsView → List Change → String → Program Attempt
  | [],changes,activeViewName => .ret { changes, activeViewName, cause := none }
  | definition::rest,changes,_ =>
    let desired := desiredView lib self datasetId definition
    .call (.getTable desired.reference) (fun
      | .error .notFound => createView desired changes definition.name
          (fun changes => promoteViews rest changes definition.name)
      | .error e => .ret { changes, activeViewName := definition.name, cause := some e }
      | .ok current =>
        if current.tableType ≠ none ∧ current.tableType ≠ some .view then
          let e : Exc := .valueError "Existing canonical analytics object is not a view"
          .ret { changes, activeViewName := definition.name, cause := some e }
        else
          let changes := changes ++ [(current.reference,some (viewSnapshot current))]
          updateView current desired changes definition.name
            (promoteViews rest changes definition.name))

/-- `_rollback_promotion` over the reversed changes; `firstError` is the error so far. -/
def rollbackChanges : List Change → Option Exc → Program (Option Exc)
  | [],firstError => .ret firstError
  | (reference,none)::rest,firstError =>
    .call (.deleteTable reference true) (fun
      | .error e => rollbackChanges rest (firstError.or (some e))
      | .ok _ => rollbackChanges rest firstError)
  | (reference,some snapshot)::rest,firstError =>
    .call (.getTable reference) (fun
      | .error e => rollbackChanges rest (firstError.or (some e))
      | .ok current =>
        .call (.updateTable (withSnapshot current snapshot) viewFields) (fun
          | .error e => rollbackChanges rest (firstError.or (some e))
          | .ok _ => rollbackChanges rest firstError))

def rollbackPromotion (changes : List Change) : Program (Option Exc) :=
  rollbackChanges changes.reverse none

def reportPromotion (activeViewName : String) : Option Exc → Program Unit
  | some _ => .raise (.viewReconciliation "promotion rollback" activeViewName)
  | none => .raise (.viewReconciliation "promotion" activeViewName)

/-- The `except` block of `_promote`. -/
def concludePromotion (attempt : Attempt) : Program Unit :=
  match attempt.cause with
  | none => .ret ()
  | some _ => rollbackPromotion attempt.changes >>= reportPromotion attempt.activeViewName

def promote (definitions : List AnalyticsView) : Program Unit :=
  promoteViews lib self datasetId definitions [] "unknown" >>= concludePromotion

end Promotion

section Reconciliation
variable (lib : Library) (self : AnalyticsViewReconciler) (datasetId : String)

def analyticsPreflightTtlMicros : Int := 3600 * 1000000

def preflightView (namePrefix : String) (now : Int) (definition : AnalyticsView) : Table :=
  { reference := self.viewReference datasetId (namePrefix ++ definition.name)
    description := some ("Short-lived validation shadow for " ++ definition.name ++ ".")
    labels := preflightLabels lib definition.description definition.sql
    viewQuery := some definition.sql
    viewUseLegacySql := some false
    expires := some (now + analyticsPreflightTtlMicros) }

/-- The created references, and the name of the view that failed, if one did. -/
def preflightViews (namePrefix : String) (now : Int) :
    List AnalyticsView → List TableReference → Program (List TableReference × Option String)
  | [],created => .ret (created,none)
  | definition::rest,created =>
    .call (.createTable (preflightView lib self datasetId namePrefix now definition) false) (fun
      | .error _ => .ret (created,some definition.name)
      | .ok view => preflightViews namePrefix now rest (created ++ [view.reference]))

/-- Whether a deletion failed. -/
def cleanupPreflight : List TableReference → Bool → Program Bool
  | [],failed => .ret failed
  | reference::rest,failed =>
    .call (.deleteTable reference true) (fun
      | .error _ => cleanupPreflight rest true
      | .ok _ => cleanupPreflight rest failed)

/-- `hex` is the `uuid4` of the call and `now` its clock. -/
def preflight (hex : String) (now : Int) : Program Unit := do
  let namePrefix := "tpp_preflight_" ++ String.ofList (hex.toList.take 12) ++ "_"
  let definitions ← Prog.ofExcept (lib.analyticsViews self.projectId datasetId namePrefix)
  let (created,failure) ← preflightViews lib self datasetId namePrefix now definitions []
  if ← cleanupPreflight created.reverse false then
    throw (.viewReconciliation "preflight cleanup" "shadow graph")
  match failure with
  | some name => throw (.viewReconciliation "preflight" name)
  | none => pure ()

/-- How many stale managed views were removed. -/
def removeStale (desiredNames : List String) : List TableReference → Nat → Program Nat
  | [],removed => .ret removed
  | item::rest,removed => do
    if desiredNames.contains item.tableId then removeStale desiredNames rest removed
    else
      let current ← getTable item
      if !isManagedAnalyticsView current then removeStale desiredNames rest removed
      else
        let _ ← deleteTable current.reference true
        removeStale desiredNames rest (removed + 1)

def managedNames : List TableReference → List String → Program (List String)
  | [],names => .ret names
  | item::rest,names => do
    let current ← getTable item
    managedNames rest
      (if isManagedAnalyticsView current then names ++ [current.reference.tableId] else names)

/-- The `try` block of `reconcile`. -/
def reconcileViews (hex : String) (now : Int) : Program AnalyticsViewReconciliation := do
  let definitions ← Prog.ofExcept (lib.analyticsViews self.projectId datasetId "")
  preflight lib self datasetId hex now
  let desiredNames := definitions.map AnalyticsView.name
  promote lib self datasetId definitions
  if self.removeStaleManagedViews then
    let items ← listTables
    let removed ← removeStale desiredNames items 0
    let items ← listTables
    let names ← managedNames items []
    if ¬(names ⊆ desiredNames ∧ desiredNames ⊆ names) then
      throw (.runtimeError "Managed analytics view postcondition failed")
    pure { desiredViewCount := definitions.length, removedViewCount := removed }
  else
    pure { desiredViewCount := definitions.length, removedViewCount := 0 }

def readerEntry (account : String) : AccessEntry :=
  { role := some "READER", entityType := "userByEmail", entityId := account }

def temporaryDatasetReaderAccess (existing : List AccessEntry)
    (reconcilerServiceAccount : String) : List AccessEntry :=
  if readerEntry reconcilerServiceAccount ∈ existing then existing
  else existing ++ [readerEntry reconcilerServiceAccount]

/-- The `finally` block of `reconcile`. -/
def restoreAccess (permanentAccess : List AccessEntry) : Program Unit := do
  let restored ← getDataset
  updateDataset { restored with accessEntries := permanentAccess } [.accessEntries]

def reconcile (hex : String) (now : Int) : Program AnalyticsViewReconciliation := do
  let dataset ← getDataset
  let permanentAccess := dataset.accessEntries
  updateDataset { dataset with
    accessEntries := temporaryDatasetReaderAccess permanentAccess self.reconcilerServiceAccount }
    [.accessEntries]
  (reconcileViews lib self datasetId hex now).withFinally (restoreAccess permanentAccess)

end Reconciliation

section Provisioning

structure BigQueryDatasetProvisioner where
  projectId : String
  location : String
  ownerServiceAccount : String
  gatewayServiceAccount : String
  processorServiceAccount : String
  adminServiceAccount : String

variable (lib : Library) (rawTelemetrySchema : List SchemaField)
  (self : BigQueryDatasetProvisioner) (datasetId invitationEmail : String)

def datasetDescription : String := "Isolated Tesla history for one approved platform user."

def datasetLabels : Labels :=
  [("application","tesla-personal-platform"), ("data_class","restricted-user-telemetry"),
   ("managed_by","add-user")]

def rawTableLabels : Labels :=
  [("application","tesla-personal-platform"), ("data_class","restricted-user-telemetry"),
   ("managed_by","add-user")]

def rawTelemetryTable : String := "raw_telemetry_events"

def restrictedDatasetAccess : List AccessEntry :=
  [{ role := some "OWNER", entityType := "userByEmail", entityId := self.ownerServiceAccount },
   { role := some "READER", entityType := "userByEmail", entityId := self.gatewayServiceAccount },
   { role := some "WRITER", entityType := "userByEmail", entityId := self.processorServiceAccount },
   { role := some "READER", entityType := "userByEmail", entityId := invitationEmail }]

def provisionedDataset : Dataset :=
  { location := self.location
    description := some datasetDescription
    accessEntries := restrictedDatasetAccess self invitationEmail
    labels := datasetLabels }

def provisionFields : List DatasetField :=
  [.accessEntries,.defaultPartitionExpirationMs,.defaultTableExpirationMs,.description,.labels]

/-- The ACL and metadata write of `provision`. -/
def repairDataset (current : Dataset) : Program Unit :=
  updateDataset
    { current with defaultTableExpirationMs := none
                   defaultPartitionExpirationMs := none
                   description := some datasetDescription
                   labels := datasetLabels
                   accessEntries := restrictedDatasetAccess self invitationEmail }
    provisionFields

def rawTable : Table :=
  { reference := { projectId := self.projectId, datasetId := datasetId
                   tableId := rawTelemetryTable }
    schema := rawTelemetrySchema
    description := some "Permanent append-only Fleet Telemetry observations."
    timePartitioning := some { type := .day, field := some "source_timestamp" }
    clusteringFields := some ["vehicle_id","record_type"]
    labels := rawTableLabels
    expires := none }

def schemaShape (schema : List SchemaField) : List (String × String × String) :=
  schema.map (fun field => (field.name,field.fieldType,field.mode))

/-- The raw table's part of `provision`. -/
def repairRawTable : Program Unit := do
  let table := rawTable rawTelemetrySchema self datasetId
  let _ ← createTable table true
  let current ← getTable table.reference
  if current.timePartitioning ≠ some { type := .day, field := some "source_timestamp" } ∨
      current.clusteringFields ≠ some ["vehicle_id","record_type"] then
    throw (.valueError ("Existing table " ++ datasetId ++ "." ++ rawTelemetryTable ++
      " has an incompatible partition or clustering layout"))
  else if schemaShape current.schema ≠ schemaShape table.schema then
    throw (.valueError ("Existing table " ++ datasetId ++ "." ++ rawTelemetryTable ++
      " has an incompatible schema; migrate it explicitly before ingestion"))
  else
    updateTable
      { current with description := table.description, labels := rawTableLabels, expires := none }
      [.description,.expires,.labels]

def BigQueryDatasetProvisioner.viewReconciler : AnalyticsViewReconciler :=
  { projectId := self.projectId
    reconcilerServiceAccount := self.adminServiceAccount
    removeStaleManagedViews := false }

def provision (hex : String) (now : Int) : Program Unit := do
  createDataset (provisionedDataset self invitationEmail) true
  let current ← getDataset
  if current.location ≠ self.location then
    throw (.valueError ("Existing dataset " ++ datasetId ++ " is in " ++ current.location ++
      ", not " ++ self.location))
  repairDataset self invitationEmail current
  repairRawTable rawTelemetrySchema self datasetId
  let _ ← reconcile lib self.viewReconciler datasetId hex now
  pure ()

end Provisioning

end Woodhouse.BigQuery
