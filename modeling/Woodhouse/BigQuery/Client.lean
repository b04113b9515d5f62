import Woodhouse.Effects.Paths

namespace Woodhouse.BigQuery
open Effects

inductive Exc where
  | notFound
  | conflict
  | preconditionFailed
  | valueError (message : String)
  | runtimeError (message : String)
  | viewReconciliation (stage viewName : String)
  | other (name : String)
  deriving DecidableEq

structure TableReference where
  projectId : String
  datasetId : String
  tableId : String
  deriving DecidableEq

inductive TableType where
  | table
  | view
  | materializedView
  | external
  | snapshot
  deriving DecidableEq

abbrev Labels := List (String × String)

/-- `labels.get(key)`. -/
def Labels.get (labels : Labels) (key : String) : Option String :=
  (labels.find? (fun entry => entry.1 = key)).map Prod.snd

structure SchemaField where
  name : String
  fieldType : String
  mode : String
  description : String
  deriving DecidableEq

inductive TimePartitioningType where
  | day
  | hour
  | month
  | year
  deriving DecidableEq

structure TimePartitioning where
  type : TimePartitioningType
  field : Option String
  deriving DecidableEq

structure Table where
  reference : TableReference
  tableType : Option TableType := none
  description : Option String := none
  labels : Labels := []
  viewQuery : Option String := none
  viewUseLegacySql : Option Bool := none
  expires : Option Int := none
  schema : List SchemaField := []
  timePartitioning : Option TimePartitioning := none
  clusteringFields : Option (List String) := none
  deriving DecidableEq

inductive TableField where
  | description
  | labels
  | viewQuery
  | viewUseLegacySql
  | expires
  deriving DecidableEq

structure AccessEntry where
  role : Option String
  entityType : String
  entityId : String
  deriving DecidableEq

/-- A dataset as the client reads and writes it, with the `etag` of the read. -/
structure Dataset where
  location : String
  description : Option String := none
  labels : Labels := []
  defaultTableExpirationMs : Option Nat := none
  defaultPartitionExpirationMs : Option Nat := none
  accessEntries : List AccessEntry := []
  etag : Nat := 0
  deriving DecidableEq

inductive DatasetField where
  | accessEntries
  | defaultPartitionExpirationMs
  | defaultTableExpirationMs
  | description
  | labels
  deriving DecidableEq

/-- The client's calls. All of them are about one dataset and its tables. -/
inductive Call where
  | createDataset (dataset : Dataset) (existsOk : Bool)
  | getDataset
  | updateDataset (dataset : Dataset) (fields : List DatasetField)
  | createTable (table : Table) (existsOk : Bool)
  | getTable (reference : TableReference)
  | updateTable (table : Table) (fields : List TableField)
  | deleteTable (reference : TableReference) (notFoundOk : Bool)
  | listTables
  deriving DecidableEq

abbrev Call.Ret : Call → Type
  | .createDataset .. => Unit
  | .getDataset => Dataset
  | .updateDataset .. => Unit
  | .createTable .. => Table
  | .getTable _ => Table
  | .updateTable .. => Unit
  | .deleteTable .. => Unit
  | .listTables => List TableReference

abbrev Program (α : Type) := Prog Call Call.Ret Exc α

abbrev ClientEvent := Event Call Call.Ret Exc

section Calls

def createDataset (dataset : Dataset) (existsOk : Bool) : Program Unit :=
  Prog.perform (Call.createDataset dataset existsOk)

def getDataset : Program Dataset := Prog.perform Call.getDataset

def updateDataset (dataset : Dataset) (fields : List DatasetField) : Program Unit :=
  Prog.perform (Call.updateDataset dataset fields)

def createTable (table : Table) (existsOk : Bool) : Program Table :=
  Prog.perform (Call.createTable table existsOk)

def getTable (reference : TableReference) : Program Table := Prog.perform (Call.getTable reference)

def updateTable (table : Table) (fields : List TableField) : Program Unit :=
  Prog.perform (Call.updateTable table fields)

def deleteTable (reference : TableReference) (notFoundOk : Bool) : Program Unit :=
  Prog.perform (Call.deleteTable reference notFoundOk)

def listTables : Program (List TableReference) := Prog.perform Call.listTables

end Calls

section Replacing

def Table.replace (written stored : Table) : TableField → Table
  | .description => { stored with description := written.description }
  | .labels => { stored with labels := written.labels }
  | .viewQuery => { stored with viewQuery := written.viewQuery }
  | .viewUseLegacySql => { stored with viewUseLegacySql := written.viewUseLegacySql }
  | .expires => { stored with expires := written.expires }

/-- An update replaces exactly the listed fields. -/
def Table.update (stored written : Table) (fields : List TableField) : Table :=
  fields.foldl written.replace stored

def Dataset.replace (written stored : Dataset) : DatasetField → Dataset
  | .accessEntries => { stored with accessEntries := written.accessEntries }
  | .defaultPartitionExpirationMs =>
    { stored with defaultPartitionExpirationMs := written.defaultPartitionExpirationMs }
  | .defaultTableExpirationMs =>
    { stored with defaultTableExpirationMs := written.defaultTableExpirationMs }
  | .description => { stored with description := written.description }
  | .labels => { stored with labels := written.labels }

def Dataset.update (stored written : Dataset) (fields : List DatasetField) : Dataset :=
  fields.foldl written.replace stored

@[simp] theorem Table.replace_reference (written stored : Table) (field : TableField) :
    (written.replace stored field).reference = stored.reference := by
  cases field <;> rfl

@[simp] theorem Table.update_reference (stored written : Table) (fields : List TableField) :
    (stored.update written fields).reference = stored.reference := by
  induction fields generalizing stored with
  | nil => rfl
  | cons field rest ih =>
    have hrest := ih (written.replace stored field)
    rw [Table.replace_reference] at hrest
    exact hrest

end Replacing

/-- What the service stores. -/
structure Warehouse where
  dataset : Option Dataset
  tables : List Table

namespace Warehouse
variable (w : Warehouse)

def table (reference : TableReference) : Option Table :=
  w.tables.find? (fun t => t.reference = reference)

def addTable (t : Table) : Warehouse := { w with tables := w.tables ++ [t] }

def setTable (t : Table) : Warehouse :=
  { w with tables := w.tables.map (fun s => if s.reference = t.reference then t else s) }

def removeTable (reference : TableReference) : Warehouse :=
  { w with tables := w.tables.filter (fun t => t.reference ≠ reference) }

/-- The type the service gives a created table. -/
def created (t : Table) : Table :=
  { t with tableType := some (if t.viewQuery.isSome then .view else .table) }

/-- What a call that gets through does. -/
def answer : (call : Call) → Except Exc call.Ret × Warehouse
  | .createDataset dataset existsOk =>
    match w.dataset with
    | none => (.ok (),{ w with dataset := some dataset })
    | some _ => if existsOk then (.ok (),w) else (.error .conflict,w)
  | .getDataset =>
    match w.dataset with
    | none => (.error .notFound,w)
    | some dataset => (.ok dataset,w)
  | .updateDataset written fields =>
    match w.dataset with
    | none => (.error .notFound,w)
    | some stored =>
      if written.etag ≠ stored.etag then (.error .preconditionFailed,w)
      else (.ok (),{ w with dataset := some { stored.update written fields with
                                              etag := stored.etag + 1 } })
  | .createTable t existsOk =>
    match w.table t.reference with
    | some stored => if existsOk then (.ok stored,w) else (.error .conflict,w)
    | none => (.ok (created t),w.addTable (created t))
  | .getTable reference =>
    match w.table reference with
    | none => (.error .notFound,w)
    | some stored => (.ok stored,w)
  | .updateTable written fields =>
    match w.table written.reference with
    | none => (.error .notFound,w)
    | some stored => (.ok (),w.setTable (stored.update written fields))
  | .deleteTable reference notFoundOk =>
    match w.table reference with
    | none => if notFoundOk then (.ok (),w) else (.error .notFound,w)
    | some _ => (.ok (),w.removeTable reference)
  | .listTables => (.ok (w.tables.map Table.reference),w)

end Warehouse

/-- A call gets through, fails without effect, or takes effect and loses its answer. -/
inductive Choice where
  | done
  | failed (name : String)
  | lost (name : String)

def clientMachine : Machine Call Call.Ret Exc Warehouse Choice
  | w,call,.done => some (w.answer call)
  | w,_,.failed name => some (.error (.other name),w)
  | w,call,.lost name => some (.error (.other name),(w.answer call).2)

namespace Warehouse
variable {w : Warehouse}

theorem table_reference {reference : TableReference} {t : Table}
    (h : w.table reference = some t) : t.reference = reference := by
  unfold table at h
  simpa using List.find?_some h

theorem table_addTable (t : Table) (reference : TableReference) :
    (w.addTable t).table reference =
      (w.table reference).or (if t.reference = reference then some t else none) := by
  unfold addTable table
  rw [List.find?_append]
  by_cases h : t.reference = reference <;> simp [h]

theorem table_setTable (t : Table) (reference : TableReference) :
    (w.setTable t).table reference =
      if t.reference = reference then (w.table reference).map (fun _ => t)
      else w.table reference := by
  unfold setTable table
  dsimp only
  induction w.tables with
  | nil => simp
  | cons s ts ih =>
    rw [List.map_cons, List.find?_cons, List.find?_cons, ih]
    by_cases hs : s.reference = t.reference
    · rw [if_pos hs, hs]
      by_cases ht : t.reference = reference
      · simp [ht]
      · simp [ht]
    · rw [if_neg hs]
      by_cases ht : t.reference = reference
      · subst ht
        simp [hs]
      · simp [ht]

theorem table_removeTable (removed reference : TableReference) :
    (w.removeTable removed).table reference =
      if removed = reference then none else w.table reference := by
  unfold removeTable table
  dsimp only
  induction w.tables with
  | nil => simp
  | cons s ts ih =>
    rw [List.find?_cons]
    by_cases hs : s.reference = removed
    · rw [List.filter_cons_of_neg (by simpa using hs), ih, hs]
      by_cases hr : removed = reference
      · simp [hr]
      · simp [hr]
    · rw [List.filter_cons_of_pos (by simpa using hs), List.find?_cons, ih]
      by_cases hr : removed = reference
      · subst hr
        simp [hs]
      · simp [hr]

end Warehouse

end Woodhouse.BigQuery
