import Woodhouse.BigQuery.Promotion
import Woodhouse.Effects.Endings

namespace Woodhouse.BigQuery
open Effects

def namePrefix (hex : String) : String :=
  "tpp_preflight_" ++ String.ofList (hex.toList.take 12) ++ "_"

def Call.isRead : Call → Bool
  | .getTable _ => true
  | _ => false

/-- The calls of a preflight. -/
def Call.isShadowing : Call → Bool
  | .createTable .. => true
  | .deleteTable .. => true
  | _ => false

def failed (event : ClientEvent) : Bool :=
  match event.ret with
  | .ok _ => false
  | .error _ => true

/-- A call of the preflight failed: a creation or a deletion before the promotion's first
read. -/
def preflightFailed : List ClientEvent → Bool
  | [] => false
  | event::rest =>
    if event.op.isRead then false
    else (event.op.isShadowing && failed event) || preflightFailed rest

section Statement
variable (lib : Library) (reconciler : AnalyticsViewReconciler) (datasetId : String)

/-- The dataset holds its own tables. -/
def InDataset (w : Warehouse) : Prop :=
  ∀ reference t, w.table reference = some t → reference = reconciler.viewReference datasetId reference.tableId

def Managed (w : Warehouse) (reference : TableReference) : Prop :=
  ∃ t, w.table reference = some t ∧ isManagedAnalyticsView t = true

/-- The definitions that a preflight creates shadows of. -/
def preflightShadows (hex : String) : List AnalyticsView :=
  match lib.analyticsViews reconciler.projectId datasetId (namePrefix hex) with
  | .ok shadows => shadows
  | .error _ => []

def AnalyticsViewReconciler.shadowReference (hex : String) (d : AnalyticsView) : TableReference :=
  reconciler.viewReference datasetId (namePrefix hex ++ d.name)

/-- What a successful reconciliation with stale removal makes of the dataset. -/
structure Reconciled (definitions : List AnalyticsView) (hex : String) (w w' : Warehouse) :
    Prop where
  managed : ∀ reference, Managed w' reference ↔
    ∃ d ∈ definitions, reference = reconciler.viewReference datasetId d.name
  contents : ∀ d ∈ definitions, ∃ t, w'.table (reconciler.viewReference datasetId d.name) = some t ∧
    t.content = (desiredView lib reconciler datasetId d).content
  untouched : ∀ reference t, w.table reference = some t → isManagedAnalyticsView t = false →
    reference.tableId ∉ definitions.map AnalyticsView.name → w'.table reference = some t
  shadows : ∀ d ∈ preflightShadows lib reconciler datasetId hex,
    w.table (reconciler.shadowReference datasetId hex d) = none ∧
      ((reconciler.shadowReference datasetId hex d).tableId ∉ definitions.map AnalyticsView.name →
        w'.table (reconciler.shadowReference datasetId hex d) = none)

/-- What a preflight leaves, whatever fails in it. -/
structure Shadowed (hex : String) (w w' : Warehouse) : Prop where
  existing : ∀ reference t, w.table reference = some t → w'.table reference = some t
  others : ∀ reference, (∀ d ∈ preflightShadows lib reconciler datasetId hex,
    reference ≠ reconciler.shadowReference datasetId hex d) → w'.table reference = w.table reference

end Statement

section Calls
variable {w w' : Warehouse} {c : Choice}

/-- A call has its effect, or none. -/
theorem machine_effect {call : Call} {r : Except Exc call.Ret}
    (does : clientMachine w call c = some (r,w')) : w' = w ∨ w' = (w.answer call).2 := by
  cases r with
  | ok a => exact Or.inr (by rw [machine_ok does])
  | error e => exact machine_error does

theorem dataset_answer {call : Call}
    (hcall : call = .getDataset ∨ ∃ dataset fields, call = .updateDataset dataset fields) :
    (w.answer call).2.tables = w.tables := by
  rcases hcall with hget | hupdate
  · subst hget
    unfold Warehouse.answer
    dsimp only
    split <;> rfl
  · obtain ⟨dataset,fields,hcall⟩ := hupdate
    subst hcall
    unfold Warehouse.answer
    dsimp only
    split
    · rfl
    · split <;> rfl

/-- A call about the dataset leaves its tables alone. -/
theorem dataset_tables {call : Call} {r : Except Exc call.Ret}
    (hcall : call = .getDataset ∨ ∃ dataset fields, call = .updateDataset dataset fields)
    (does : clientMachine w call c = some (r,w')) : w'.tables = w.tables := by
  rcases machine_effect does with hsame | heffect
  · rw [hsame]
  · rw [heffect,dataset_answer hcall]

theorem table_congr (h : w'.tables = w.tables) : w'.table = w.table := by
  funext reference
  unfold Warehouse.table
  rw [h]

theorem createTable_answer {t : Table} (hfree : w.table t.reference = none) :
    (w.answer (.createTable t false)).2.table =
      Function.update w.table t.reference (some (Warehouse.created t)) := by
  simp only [Warehouse.answer,hfree]
  funext reference
  rw [Warehouse.table_addTable]
  by_cases hr : reference = t.reference
  · subst hr
    rw [Function.update_self,hfree]
    simp [Warehouse.created]
  · rw [Function.update_of_ne hr,if_neg]
    · simp
    · exact Ne.symm hr

/-- A creation keeps what exists, and adds its table where nothing was. -/
theorem createTable_step {t : Table} {r : Except Exc Table}
    (does : clientMachine w (.createTable t false) c = some (r,w')) :
    w'.table = w.table ∨
      (w.table t.reference = none ∧
        w'.table = Function.update w.table t.reference (some (Warehouse.created t))) := by
  rcases machine_effect does with hsame | heffect
  · exact Or.inl (by rw [hsame])
  · cases hfree : w.table t.reference with
    | none => exact Or.inr ⟨rfl,by rw [heffect,createTable_answer hfree]⟩
    | some stored =>
      refine Or.inl ?_
      rw [heffect]
      simp [Warehouse.answer,hfree]

theorem createTable_created {t stored : Table}
    (does : clientMachine w (.createTable t false) c = some (.ok stored,w')) :
    stored = Warehouse.created t ∧ w.table t.reference = none ∧
      w'.table = Function.update w.table t.reference (some (Warehouse.created t)) := by
  have hanswer := machine_ok does
  cases hfree : w.table t.reference with
  | none =>
    have htable := createTable_answer hfree
    rw [hanswer] at htable
    simp only [Warehouse.answer,hfree] at hanswer
    cases hanswer
    exact ⟨rfl,rfl,htable⟩
  | some existing =>
    simp only [Warehouse.answer,hfree] at hanswer
    cases hanswer

theorem deleteTable_answer (reference : TableReference) :
    (w.answer (.deleteTable reference true)).2.table = Function.update w.table reference none := by
  funext other
  cases hstored : w.table reference with
  | none =>
    simp only [Warehouse.answer,hstored]
    rw [if_pos trivial]
    by_cases hr : other = reference
    · subst hr
      rw [Function.update_self]
      exact hstored
    · rw [Function.update_of_ne hr]
  | some stored =>
    simp only [Warehouse.answer,hstored]
    rw [Warehouse.table_removeTable]
    by_cases hr : other = reference
    · subst hr
      rw [Function.update_self,if_pos rfl]
    · rw [Function.update_of_ne hr,if_neg (Ne.symm hr)]

theorem deleteTable_step {reference : TableReference} {r : Except Exc Unit}
    (does : clientMachine w (.deleteTable reference true) c = some (r,w')) :
    w'.table = w.table ∨ w'.table = Function.update w.table reference none := by
  rcases machine_effect does with hsame | heffect
  · exact Or.inl (by rw [hsame])
  · exact Or.inr (by rw [heffect,deleteTable_answer])

theorem deleteTable_deleted {reference : TableReference} {u : Unit}
    (does : clientMachine w (.deleteTable reference true) c = some (.ok u,w')) :
    w'.table = Function.update w.table reference none := by
  have htable := deleteTable_answer (w := w) reference
  rwa [machine_ok does] at htable

theorem updateTable_updated {written : Table} {u : Unit}
    (does : clientMachine w (.updateTable written viewFields) c = some (.ok u,w')) :
    ∃ stored, w.table written.reference = some stored ∧ w'.table =
      Function.update w.table written.reference (some (stored.update written viewFields)) := by
  have hanswer := machine_ok does
  cases hstored : w.table written.reference with
  | none =>
    simp only [Warehouse.answer,hstored] at hanswer
    cases hanswer
  | some stored =>
    refine ⟨stored,rfl,?_⟩
    simp only [Warehouse.answer,hstored] at hanswer
    cases hanswer
    have hreference : (stored.update written viewFields).reference = written.reference := by
      rw [Table.update_reference]
      exact Warehouse.table_reference hstored
    funext reference
    rw [Warehouse.table_setTable,hreference]
    by_cases hr : reference = written.reference
    · subst hr
      rw [Function.update_self,if_pos rfl,hstored]
      rfl
    · rw [Function.update_of_ne hr,if_neg (Ne.symm hr)]

theorem listTables_listed {items : List TableReference}
    (does : clientMachine w .listTables c = some (.ok items,w')) :
    w' = w ∧ items = w.tables.map Table.reference := by
  have hanswer := machine_ok does
  cases hanswer
  exact ⟨rfl,rfl⟩

theorem mem_listed {reference : TableReference} :
    reference ∈ w.tables.map Table.reference ↔ ∃ t, w.table reference = some t := by
  constructor
  · intro hmem
    obtain ⟨t,ht,hr⟩ := List.mem_map.mp hmem
    have hfound : (w.tables.find? (fun t => t.reference = reference)).isSome = true :=
      List.find?_isSome.mpr ⟨t,ht,by simp [hr]⟩
    exact Option.isSome_iff_exists.mp hfound
  · intro hstored
    obtain ⟨t,ht⟩ := hstored
    exact List.mem_map.mpr ⟨t,List.mem_of_find?_eq_some ht,Warehouse.table_reference ht⟩

end Calls

section Histories
variable {h : List ClientEvent}

theorem preflightFailed_snoc (event : ClientEvent) (hop : event.op.isShadowing = false ∨ failed event = false) :
    preflightFailed (h ++ [event]) = preflightFailed h := by
  induction h with
  | nil =>
    rcases hop with hop | hop
    · simp [preflightFailed,hop]
    · simp [preflightFailed,hop]
  | cons first rest ih =>
    simp only [List.cons_append,preflightFailed]
    rw [ih]

/-- Once the promotion has read a table, no failure is the preflight's. -/
theorem preflightFailed_begun (hbegun : h.any (fun e => e.op.isRead) = true) :
    preflightFailed (h ++ [event]) = preflightFailed h := by
  induction h with
  | nil => cases hbegun
  | cons first rest ih =>
    simp only [List.cons_append,preflightFailed]
    by_cases hread : first.op.isRead = true
    · rw [if_pos hread,if_pos hread]
    · rw [if_neg hread,if_neg hread]
      rw [List.any_cons] at hbegun
      rw [ih (by simpa [hread] using hbegun)]

theorem begun_ends {α : Type} {p : Program α} {w : Warehouse}
    (hbegun : h.any (fun e => e.op.isRead) = true) :
    Ends clientMachine (fun h' _ _ => preflightFailed h' = preflightFailed h) p h w := by
  induction p generalizing h w with
  | ret a => exact rfl
  | raise e => exact rfl
  | call op k ih =>
    intro c r w' _
    have hstill : (h ++ [(⟨op,r⟩ : ClientEvent)]).any (fun e => e.op.isRead) = true := by
      rw [List.any_append,hbegun]
      rfl
    refine (ih r hstill).mono ?_
    intro h' r' w'' hq
    exact hq.trans (preflightFailed_begun hbegun)

/-- A program that starts with a read has no failure of a preflight. -/
theorem read_ends {α : Type} {reference : TableReference}
    {k : Except Exc Table → Program α} {w : Warehouse} :
    Ends clientMachine (fun h' _ _ => preflightFailed h' = preflightFailed h)
      (.call (.getTable reference) k) h w := by
  intro c r w' _
  have hbegun : (h ++ [(⟨.getTable reference,r⟩ : ClientEvent)]).any (fun e => e.op.isRead) =
      true := by
    simp [Call.isRead]
  refine (begun_ends hbegun).mono ?_
  intro h' r' w'' hq
  exact hq.trans (preflightFailed_snoc _ (Or.inl rfl))

end Histories

section Preflight
variable {lib : Library} {reconciler : AnalyticsViewReconciler} {datasetId hex : String} {now : Int}
  {w₀ w w' : Warehouse} {h : List ClientEvent}

theorem Shadowed.of_table (htable : w.table = w₀.table) : Shadowed lib reconciler datasetId hex w₀ w := by
  constructor
  · intro reference t ht
    rw [htable]
    exact ht
  · intro reference _
    rw [htable]

theorem Shadowed.same (hs : Shadowed lib reconciler datasetId hex w₀ w) (htable : w'.table = w.table) :
    Shadowed lib reconciler datasetId hex w₀ w' := by
  constructor
  · intro reference t ht
    rw [htable]
    exact hs.existing reference t ht
  · intro reference hother
    rw [htable]
    exact hs.others reference hother

theorem Shadowed.created (hs : Shadowed lib reconciler datasetId hex w₀ w) {d : AnalyticsView}
    (hd : d ∈ preflightShadows lib reconciler datasetId hex) {t : Table}
    (hfree : w.table (reconciler.shadowReference datasetId hex d) = none)
    (htable : w'.table = Function.update w.table (reconciler.shadowReference datasetId hex d) (some t)) :
    Shadowed lib reconciler datasetId hex w₀ w' := by
  constructor
  · intro reference stored hstored
    have hkept := hs.existing reference stored hstored
    rw [htable,Function.update_of_ne]
    · exact hkept
    · intro hr
      rw [hr,hfree] at hkept
      cases hkept
  · intro reference hother
    rw [htable,Function.update_of_ne (hother d hd)]
    exact hs.others reference hother

theorem Shadowed.deleted (hs : Shadowed lib reconciler datasetId hex w₀ w) {d : AnalyticsView}
    (hd : d ∈ preflightShadows lib reconciler datasetId hex)
    (hfree : w₀.table (reconciler.shadowReference datasetId hex d) = none)
    (htable : w'.table = Function.update w.table (reconciler.shadowReference datasetId hex d) none) :
    Shadowed lib reconciler datasetId hex w₀ w' := by
  constructor
  · intro reference stored hstored
    rw [htable,Function.update_of_ne]
    · exact hs.existing reference stored hstored
    · intro hr
      rw [hr,hfree] at hstored
      cases hstored
  · intro reference hother
    rw [htable,Function.update_of_ne (hother d hd)]
    exact hs.others reference hother

/-- The references are of shadows, where nothing was before. -/
def OfShadows (lib : Library) (reconciler : AnalyticsViewReconciler) (datasetId hex : String)
    (w₀ : Warehouse) (created : List TableReference) : Prop :=
  ∀ reference ∈ created, ∃ d ∈ preflightShadows lib reconciler datasetId hex,
    reference = reconciler.shadowReference datasetId hex d ∧ w₀.table reference = none

/-- Nothing but the created shadows is new. -/
def OnlyShadows (w₀ w : Warehouse) (created : List TableReference) : Prop :=
  ∀ reference, reference ∉ created → w.table reference = w₀.table reference

theorem preflightViews_ends {definitions : List AnalyticsView} {created : List TableReference}
    (hmem : ∀ d ∈ definitions, d ∈ preflightShadows lib reconciler datasetId hex)
    (hs : Shadowed lib reconciler datasetId hex w₀ w) (hc : OfShadows lib reconciler datasetId hex w₀ created)
    (honly : OnlyShadows w₀ w created) :
    Ends clientMachine (fun h' r w' => ∃ all failure, r = .ok (all,failure) ∧
      Shadowed lib reconciler datasetId hex w₀ w' ∧ OfShadows lib reconciler datasetId hex w₀ all ∧
      (failure = none → OnlyShadows w₀ w' all ∧ created ⊆ all ∧
        (∀ d ∈ definitions, reconciler.shadowReference datasetId hex d ∈ all) ∧
        preflightFailed h' = preflightFailed h))
      (preflightViews lib reconciler datasetId (namePrefix hex) now definitions created) h w := by
  induction definitions generalizing created w h with
  | nil =>
    exact ⟨created,none,rfl,hs,hc,fun _ => ⟨honly,fun _ hr => hr,by simp,rfl⟩⟩
  | cons d rest ih =>
    have hd := hmem d List.mem_cons_self
    intro c r w' does
    cases r with
    | error e =>
      refine ⟨created,some d.name,rfl,?_,hc,fun hnone => by cases hnone⟩
      rcases createTable_step does with hsame | hcreated
      · exact hs.same hsame
      · exact hs.created hd hcreated.1 hcreated.2
    | ok stored =>
      obtain ⟨rfl,hfree,htable⟩ := createTable_created does
      have hs' : Shadowed lib reconciler datasetId hex w₀ w' := hs.created hd hfree htable
      have hfree₀ : w₀.table (reconciler.shadowReference datasetId hex d) = none := by
        cases hstored : w₀.table (reconciler.shadowReference datasetId hex d) with
        | none => rfl
        | some t =>
          have hkept := hs.existing _ t hstored
          rw [show w.table (reconciler.shadowReference datasetId hex d) = none from hfree] at hkept
          cases hkept
      have hc' : OfShadows lib reconciler datasetId hex w₀
          (created ++ [reconciler.shadowReference datasetId hex d]) := by
        intro reference hr
        rcases List.mem_append.mp hr with hr | hr
        · exact hc reference hr
        · rw [List.mem_singleton] at hr
          subst hr
          exact ⟨d,hd,rfl,hfree₀⟩
      have honly' : OnlyShadows w₀ w' (created ++ [reconciler.shadowReference datasetId hex d]) := by
        intro reference hr
        rw [List.mem_append,List.mem_singleton,not_or] at hr
        rw [htable]
        exact (Function.update_of_ne hr.2 ..).trans (honly reference hr.1)
      refine (ih (fun d' hd' => hmem d' (List.mem_cons_of_mem d hd')) hs' hc' honly').mono ?_
      intro h' r w'' hq
      obtain ⟨all,failure,hr,hs'',hall,hsuccess⟩ := hq
      refine ⟨all,failure,hr,hs'',hall,?_⟩
      intro hnone
      obtain ⟨honly'',hsubset,hrest,hfailed⟩ := hsuccess hnone
      refine ⟨honly'',fun reference hr => hsubset (List.mem_append_left _ hr),?_,?_⟩
      · intro d' hd'
        rcases List.mem_cons.mp hd' with rfl | hd'
        · exact hsubset (List.mem_append_right _ (List.mem_singleton.mpr rfl))
        · exact hrest d' hd'
      · exact hfailed.trans (preflightFailed_snoc _ (Or.inr rfl))

theorem cleanupPreflight_ends {references : List TableReference} {spoiled : Bool}
    (hs : Shadowed lib reconciler datasetId hex w₀ w)
    (hc : OfShadows lib reconciler datasetId hex w₀ references) :
    Ends clientMachine (fun h' r w' => ∃ b, r = .ok b ∧ Shadowed lib reconciler datasetId hex w₀ w' ∧
      (b = false → spoiled = false ∧ (∀ reference, w'.table reference =
        if reference ∈ references then none else w.table reference) ∧
        preflightFailed h' = preflightFailed h))
      (cleanupPreflight references spoiled) h w := by
  induction references generalizing spoiled w h with
  | nil => exact ⟨spoiled,rfl,hs,fun hb => ⟨hb,fun reference => by simp,rfl⟩⟩
  | cons reference rest ih =>
    obtain ⟨d,hd,href,hfree⟩ := hc reference List.mem_cons_self
    subst href
    have hrest : OfShadows lib reconciler datasetId hex w₀ rest :=
      fun other ho => hc other (List.mem_cons_of_mem _ ho)
    intro c r w' does
    have hs' : Shadowed lib reconciler datasetId hex w₀ w' := by
      rcases deleteTable_step does with hsame | hdeleted
      · exact hs.same hsame
      · exact hs.deleted hd hfree hdeleted
    cases r with
    | error e =>
      refine (@ih _ _ true hs' hrest).mono ?_
      intro h' r w'' hq
      obtain ⟨b,hr,hs'',hclean⟩ := hq
      refine ⟨b,hr,hs'',?_⟩
      intro hb
      cases (hclean hb).1
    | ok u =>
      have htable := deleteTable_deleted does
      refine (ih hs' hrest).mono ?_
      intro h' r w'' hq
      obtain ⟨b,hr,hs'',hclean⟩ := hq
      refine ⟨b,hr,hs'',?_⟩
      intro hb
      obtain ⟨hspoiled,htables,hfailed⟩ := hclean hb
      refine ⟨hspoiled,?_,hfailed.trans (preflightFailed_snoc _ (Or.inr rfl))⟩
      intro other
      rw [htables other,htable]
      by_cases ho : other = reconciler.shadowReference datasetId hex d
      · subst ho
        simp
      · rw [Function.update_of_ne ho]
        simp [ho]

/-- A preflight that succeeds leaves no shadow; one that fails leaves what was there. -/
theorem preflight_ends (hw : w.table = w₀.table) :
    Ends clientMachine (fun h' r w' => Shadowed lib reconciler datasetId hex w₀ w' ∧
      (r = .ok () → w'.table = w₀.table ∧ preflightFailed h' = preflightFailed h ∧
        (∃ shadows, lib.analyticsViews reconciler.projectId datasetId (namePrefix hex) = .ok shadows) ∧
        ∀ d ∈ preflightShadows lib reconciler datasetId hex,
          w₀.table (reconciler.shadowReference datasetId hex d) = none))
      (preflight lib reconciler datasetId hex now) h w := by
  unfold preflight
  dsimp only
  rw [show "tpp_preflight_" ++ String.ofList (hex.toList.take 12) ++ "_" = namePrefix hex from rfl]
  cases hload : lib.analyticsViews reconciler.projectId datasetId (namePrefix hex) with
  | error e => exact ⟨.of_table hw,fun hr => by cases hr⟩
  | ok shadows =>
    have hshadows : preflightShadows lib reconciler datasetId hex = shadows := by
      unfold preflightShadows
      rw [hload]
    have hnone : OfShadows lib reconciler datasetId hex w₀ [] := by
      intro reference hr
      cases hr
    refine Ends.bind (Q := fun h' r w' => r = .ok shadows ∧ h' = h ∧ w' = w) ⟨rfl,rfl,rfl⟩ ?_
      (fun _ _ _ hq => by cases hq.1)
    intro h₀ _ w₁ hq
    obtain ⟨hr,rfl,rfl⟩ := hq
    cases hr
    have hsame : Shadowed lib reconciler datasetId hex w₀ w₁ := .of_table hw
    refine (preflightViews_ends (fun d hd => by rw [hshadows]; exact hd) hsame hnone
      (fun reference _ => by rw [hw])).bind ?_ ?_
    · intro h₁ result w₂ hq
      obtain ⟨all,failure,hr,hs,hall,hsuccess⟩ := hq
      cases hr
      have hreversed : OfShadows lib reconciler datasetId hex w₀ all.reverse :=
        fun reference hr => hall reference (List.mem_reverse.mp hr)
      refine (cleanupPreflight_ends hs hreversed).bind ?_ ?_
      · intro h₂ b w₃ hq
        obtain ⟨b',hr,hs',hclean⟩ := hq
        cases hr
        cases b with
        | true => exact ⟨hs',fun hr => by cases hr⟩
        | false =>
          obtain ⟨_,htables,hfailed⟩ := hclean rfl
          cases failure with
          | some name => exact ⟨hs',fun hr => by cases hr⟩
          | none =>
            obtain ⟨honly,_,hcreated,hfailed'⟩ := hsuccess rfl
            refine ⟨hs',fun _ => ⟨?_,hfailed.trans hfailed',⟨shadows,rfl⟩,?_⟩⟩
            · funext reference
              rw [htables reference]
              by_cases hr : reference ∈ all
              · obtain ⟨_,_,_,hfree⟩ := hall reference hr
                rw [if_pos (List.mem_reverse.mpr hr),hfree]
              · rw [if_neg (fun hr' => hr (List.mem_reverse.mp hr'))]
                exact honly reference hr
            · intro d hd
              rw [hshadows] at hd
              obtain ⟨_,_,_,hfree⟩ := hall _ (hcreated d hd)
              exact hfree
      · intro h₂ e w₃ hq
        obtain ⟨_,hr,_⟩ := hq
        cases hr
    · intro h₁ e w₂ hq
      obtain ⟨_,_,hr,_⟩ := hq
      cases hr

end Preflight

section Promotion
variable {lib : Library} {reconciler : AnalyticsViewReconciler} {datasetId : String}
  {w w' : Warehouse} {h : List ClientEvent}

/-- The definitions have their views, and nothing else changed. -/
structure Promoted (lib : Library) (reconciler : AnalyticsViewReconciler) (datasetId : String)
    (definitions : List AnalyticsView) (w w' : Warehouse) : Prop where
  contents : ∀ d ∈ definitions, ∃ t,
    w'.table (reconciler.viewReference datasetId d.name) = some t ∧
      t.content = (desiredView lib reconciler datasetId d).content
  others : ∀ reference, (∀ d ∈ definitions, reference ≠ reconciler.viewReference datasetId d.name) →
    w'.table reference = w.table reference

theorem viewReference_name {name name' : String}
    (he : reconciler.viewReference datasetId name = reconciler.viewReference datasetId name') :
    name = name' := congrArg TableReference.tableId he

/-- The first definition's view stands, and the rest are promoted after it. -/
theorem Promoted.cons {d : AnalyticsView} {rest : List AnalyticsView} {w₁ : Warehouse} {t : Table}
    (hname : d.name ∉ rest.map AnalyticsView.name)
    (htable : w₁.table = Function.update w.table (reconciler.viewReference datasetId d.name) (some t))
    (hcontent : t.content = (desiredView lib reconciler datasetId d).content)
    (hrest : Promoted lib reconciler datasetId rest w₁ w') :
    Promoted lib reconciler datasetId (d :: rest) w w' := by
  constructor
  · intro d' hd'
    rcases List.mem_cons.mp hd' with rfl | hd'
    · refine ⟨t,?_,hcontent⟩
      rw [hrest.others,htable,Function.update_self]
      intro other hother hr
      exact hname (List.mem_map.mpr ⟨other,hother,(viewReference_name hr).symm⟩)
    · exact hrest.contents d' hd'
  · intro reference hother
    rw [hrest.others reference (fun d' hd' => hother d' (List.mem_cons_of_mem d hd')),htable,
      Function.update_of_ne (hother d List.mem_cons_self)]

theorem updateView_ends {d : AnalyticsView} {rest : List AnalyticsView} {current : Table}
    {changes : List Change} {next : Program Attempt} {w₀ : Warehouse}
    (hcurrent : w.table (reconciler.viewReference datasetId d.name) = some current)
    (hbefore : ∀ reference, reference ≠ reconciler.viewReference datasetId d.name →
      w.table reference = w₀.table reference)
    (hname : d.name ∉ rest.map AnalyticsView.name)
    (hnext : ∀ w₁ h₁, Ends clientMachine (fun _ r w' => ∃ attempt, r = .ok attempt ∧
      (attempt.cause = none → Promoted lib reconciler datasetId rest w₁ w')) next h₁ w₁) :
    Ends clientMachine (fun _ r w' => ∃ attempt, r = .ok attempt ∧
      (attempt.cause = none → Promoted lib reconciler datasetId (d :: rest) w₀ w'))
      (updateView current (desiredView lib reconciler datasetId d) changes d.name next) h w := by
  have hreference := Warehouse.table_reference hcurrent
  intro c r w₁ does
  cases r with
  | error e => exact ⟨_,rfl,fun hnone => by cases hnone⟩
  | ok u =>
    obtain ⟨stored,_,htable⟩ := updateTable_updated does
    have htable' : w₁.table = Function.update w₀.table (reconciler.viewReference datasetId d.name)
        (some (stored.update (withDesired current (desiredView lib reconciler datasetId d))
          viewFields)) := by
      rw [htable]
      funext reference
      by_cases hr : reference = reconciler.viewReference datasetId d.name
      · subst hr
        rw [Function.update_self]
        simp only [withDesired,hreference,Function.update_self]
      · rw [Function.update_of_ne hr]
        simp only [withDesired,hreference,Function.update_of_ne hr]
        exact hbefore reference hr
    refine (hnext w₁ _).mono ?_
    intro h' r w₂ hq
    obtain ⟨attempt,hr,hpromoted⟩ := hq
    exact ⟨attempt,hr,fun hnone => .cons hname htable' rfl (hpromoted hnone)⟩

/-- Promoting definitions of different names. -/
theorem promoteViews_ends {definitions : List AnalyticsView} {changes : List Change} {name : String}
    (hunique : (definitions.map AnalyticsView.name).Nodup) :
    Ends clientMachine (fun _ r w' => ∃ attempt, r = .ok attempt ∧
      (attempt.cause = none → Promoted lib reconciler datasetId definitions w w'))
      (promoteViews lib reconciler datasetId definitions changes name) h w := by
  induction definitions generalizing changes name h w with
  | nil =>
    refine ⟨_,rfl,fun _ => ⟨?_,fun _ _ => rfl⟩⟩
    intro d hd
    cases hd
  | cons d rest ih =>
    rw [List.map_cons,List.nodup_cons] at hunique
    obtain ⟨hname,hrest⟩ := hunique
    intro c r w₁ does
    cases r with
    | ok current =>
      obtain ⟨rfl,hcurrent⟩ := getTable_ok does
      dsimp only
      split
      · exact ⟨_,rfl,fun hnone => by cases hnone⟩
      · exact updateView_ends hcurrent (fun _ _ => rfl) hname (fun w₂ h₂ => ih hrest)
    | error e =>
      obtain ⟨rfl,_⟩ := getTable_error does
      cases e with
      | notFound =>
        intro c r w₂ does
        cases r with
        | error e => exact ⟨_,rfl,fun hnone => by cases hnone⟩
        | ok created =>
          obtain ⟨_,_,htable⟩ := createTable_created does
          intro c r w₃ does
          cases r with
          | error e => exact ⟨_,rfl,fun hnone => by cases hnone⟩
          | ok current =>
            obtain ⟨rfl,hcurrent⟩ := getTable_ok does
            refine updateView_ends hcurrent ?_ hname (fun w₄ h₄ => ih hrest)
            intro reference hr
            rw [htable]
            exact Function.update_of_ne hr ..
      | _ => exact ⟨_,rfl,fun hnone => by cases hnone⟩

theorem promote_ends {definitions : List AnalyticsView}
    (hunique : (definitions.map AnalyticsView.name).Nodup) :
    Ends clientMachine (fun _ r w' => r = .ok () → Promoted lib reconciler datasetId definitions w w')
      (promote lib reconciler datasetId definitions) h w := by
  refine (promoteViews_ends hunique).bind ?_ ?_
  · intro h₁ attempt w₁ hq
    obtain ⟨attempt',hr,hpromoted⟩ := hq
    cases hr
    unfold concludePromotion
    split
    · rename_i hnone
      exact fun _ => hpromoted hnone
    · refine (ends_true (rollbackPromotion attempt.changes) h₁ w₁).bind ?_ ?_
      · intro h₂ reported w₂ _
        cases reported with
        | none => exact fun hr => by cases hr
        | some e => exact fun hr => by cases hr
      · intro h₂ e w₂ _ hr
        cases hr
  · intro h₁ e w₁ hq hr
    cases hr

end Promotion

section Removal
variable {w w' : Warehouse} {h : List ClientEvent} {desiredNames : List String}

/-- Only managed views of other names are gone. -/
def StaleRemoved (desiredNames : List String) (w w' : Warehouse) : Prop :=
  ∀ reference, w'.table reference = w.table reference ∨
    (w'.table reference = none ∧ reference.tableId ∉ desiredNames ∧ Managed w reference)

theorem removeStale_ends {items : List TableReference} {removed : Nat} :
    Ends clientMachine (fun _ r w' => ∀ n, r = .ok n → StaleRemoved desiredNames w w')
      (removeStale desiredNames items removed) h w := by
  induction items generalizing removed h w with
  | nil => exact fun _ _ _ => Or.inl rfl
  | cons item rest ih =>
    unfold removeStale
    split
    · exact ih
    · rename_i hname
      intro c r w₁ does
      cases r with
      | error e => exact fun n hr => by cases hr
      | ok current =>
        obtain ⟨rfl,hcurrent⟩ := getTable_ok does
        have hreference := Warehouse.table_reference hcurrent
        simp only [Prog.ofExcept_ok,Prog.bind_ret_eq]
        split
        · exact ih
        · rename_i hmanaged
          intro c r w₂ does
          cases r with
          | error e => exact fun n hr => by cases hr
          | ok u =>
            have htable := deleteTable_deleted does
            refine ih.mono ?_
            intro h' r w₃ hq n hr reference
            have hitem : current.reference.tableId ∉ desiredNames := by
              rw [hreference]
              simpa using hname
            by_cases he : reference = current.reference
            · subst he
              rcases hq n hr current.reference with hsame | hgone
              · refine Or.inr ⟨?_,hitem,current,?_,by simpa using hmanaged⟩
                · rw [hsame,htable,Function.update_self]
                · rw [hreference]
                  exact hcurrent
              · refine Or.inr ⟨hgone.1,hitem,current,?_,by simpa using hmanaged⟩
                rw [hreference]
                exact hcurrent
            · have hother : w₂.table reference = w₁.table reference := by
                rw [htable]
                exact Function.update_of_ne he ..
              rcases hq n hr reference with hsame | hgone
              · exact Or.inl (hsame.trans hother)
              · obtain ⟨hnone,hfree,t,ht,hm⟩ := hgone
                exact Or.inr ⟨hnone,hfree,t,hother.symm.trans ht,hm⟩

theorem managedNames_ends {items : List TableReference} {names : List String} :
    Ends clientMachine (fun _ r w' => ∀ all, r = .ok all → w' = w ∧
      ∀ name, name ∈ all ↔ name ∈ names ∨ ∃ item ∈ items, Managed w item ∧ item.tableId = name)
      (managedNames items names) h w := by
  induction items generalizing names h w with
  | nil =>
    intro all hr
    cases hr
    simp
  | cons item rest ih =>
    intro c r w₁ does
    cases r with
    | error e => exact fun n hr => by cases hr
    | ok current =>
      obtain ⟨rfl,hcurrent⟩ := getTable_ok does
      have hreference := Warehouse.table_reference hcurrent
      refine ih.mono ?_
      intro h' r w₂ hq all hr
      obtain ⟨hw,hnames⟩ := hq all hr
      refine ⟨hw,?_⟩
      intro name
      rw [hnames name]
      have hitem : Managed w₁ item ↔ isManagedAnalyticsView current = true := by
        constructor
        · intro hm
          obtain ⟨t,ht,hm⟩ := hm
          rw [hcurrent] at ht
          cases ht
          exact hm
        · intro hm
          exact ⟨current,hcurrent,hm⟩
      simp only [List.mem_cons,or_and_right,exists_or,exists_eq_left,hitem]
      by_cases hm : isManagedAnalyticsView current = true
      · rw [if_pos hm,List.mem_append,List.mem_singleton,hreference]
        simp only [hm,true_and]
        rw [or_assoc,eq_comm]
      · rw [if_neg hm]
        simp [hm]

end Removal

section Innocence
variable {α β : Type} {lib : Library} {reconciler : AnalyticsViewReconciler} {datasetId : String}

/-- Whatever fails in the program is no failure of a preflight. -/
def Innocent (p : Program α) : Prop :=
  ∀ h w, Ends clientMachine (fun h' _ _ => preflightFailed h' = preflightFailed h) p h w

theorem Innocent.bind {p : Program α} {f : α → Program β} (hp : Innocent p)
    (hf : ∀ a, Innocent (f a)) : Innocent (p >>= f) := by
  intro h w
  refine (hp h w).bind ?_ (fun _ _ _ hq => hq)
  intro h' a w' hq
  exact (hf a h' w').mono (fun _ _ _ hq' => hq'.trans hq)

theorem innocent_ret (a : α) : Innocent (.ret a) := fun _ _ => rfl

theorem innocent_raise (e : Exc) : Innocent (.raise e : Program α) := fun _ _ => rfl

theorem innocent_perform {call : Call} (hcall : call.isShadowing = false) :
    Innocent (Prog.perform call) := by
  intro h w
  refine ends_perform.mpr ?_
  intro c r w' _
  exact preflightFailed_snoc _ (Or.inl hcall)

theorem innocent_promote (definitions : List AnalyticsView) :
    Innocent (promote lib reconciler datasetId definitions) := by
  cases definitions with
  | nil => exact innocent_ret ()
  | cons d rest => exact fun h w => read_ends

theorem innocent_removeStale {desiredNames : List String} (items : List TableReference)
    (removed : Nat) : Innocent (removeStale desiredNames items removed) := by
  induction items generalizing removed with
  | nil => exact innocent_ret removed
  | cons item rest ih =>
    unfold removeStale
    split
    · exact ih removed
    · exact fun h w => read_ends

theorem innocent_managedNames (items : List TableReference) (names : List String) :
    Innocent (managedNames items names) := by
  cases items with
  | nil => exact innocent_ret names
  | cons item rest => exact fun h w => read_ends

end Innocence

section Reconciliation
variable {lib : Library} {reconciler : AnalyticsViewReconciler} {datasetId hex : String} {now : Int}
  {w₀ w w' : Warehouse} {h : List ClientEvent} {definitions : List AnalyticsView}

theorem InDataset.promoted (hin : InDataset reconciler datasetId w)
    (hp : Promoted lib reconciler datasetId definitions w w') : InDataset reconciler datasetId w' := by
  intro reference t ht
  by_cases hd : ∃ d ∈ definitions, reference = reconciler.viewReference datasetId d.name
  · obtain ⟨d,_,rfl⟩ := hd
    rfl
  · apply hin reference t
    rw [← hp.others]
    · exact ht
    · intro d hd' hr
      exact hd ⟨d,hd',hr⟩

theorem InDataset.removed {desiredNames : List String} (hin : InDataset reconciler datasetId w)
    (hr : StaleRemoved desiredNames w w') : InDataset reconciler datasetId w' := by
  intro reference t ht
  apply hin reference t
  rcases hr reference with hsame | hgone
  · rw [← hsame]
    exact ht
  · rw [hgone.1] at ht
    cases ht

/-- Promotion, removal and the final check of the names, from the dataset's own tables. -/
theorem reconciled_of_checked {w₁ w₂ : Warehouse} {names : List String}
    (hin : InDataset reconciler datasetId w₀) (hw : w.table = w₀.table)
    (hfree : ∀ d ∈ preflightShadows lib reconciler datasetId hex,
      w₀.table (reconciler.shadowReference datasetId hex d) = none)
    (hpromoted : Promoted lib reconciler datasetId definitions w w₁)
    (hremoved : StaleRemoved (definitions.map AnalyticsView.name) w₁ w₂)
    (hnames : ∀ name, name ∈ names ↔
      ∃ item ∈ w₂.tables.map Table.reference, Managed w₂ item ∧ item.tableId = name)
    (hchecked : names ⊆ definitions.map AnalyticsView.name ∧
      definitions.map AnalyticsView.name ⊆ names) :
    Reconciled lib reconciler datasetId definitions hex w₀ w₂ := by
  have hin₁ : InDataset reconciler datasetId w := by
    intro reference t ht
    rw [hw] at ht
    exact hin reference t ht
  have hin₂ := (hin₁.promoted hpromoted).removed hremoved
  have hcanonical : ∀ d ∈ definitions, w₂.table (reconciler.viewReference datasetId d.name) =
      w₁.table (reconciler.viewReference datasetId d.name) := by
    intro d hd
    rcases hremoved (reconciler.viewReference datasetId d.name) with hsame | hgone
    · exact hsame
    · exact absurd (List.mem_map.mpr ⟨d,hd,rfl⟩) hgone.2.1
  have hother : ∀ reference, reference.tableId ∉ definitions.map AnalyticsView.name →
      w₁.table reference = w₀.table reference := by
    intro reference hname
    rw [hpromoted.others,hw]
    intro d hd hr
    rw [hr] at hname
    exact hname (List.mem_map.mpr ⟨d,hd,rfl⟩)
  constructor
  · intro reference
    constructor
    · intro hm
      obtain ⟨t,ht,hm⟩ := hm
      have hname : reference.tableId ∈ definitions.map AnalyticsView.name :=
        hchecked.1 ((hnames _).mpr ⟨reference,mem_listed.mpr ⟨t,ht⟩,⟨t,ht,hm⟩,rfl⟩)
      obtain ⟨d,hd,hdname⟩ := List.mem_map.mp hname
      refine ⟨d,hd,?_⟩
      rw [hdname]
      exact hin₂ reference t ht
    · intro hd
      obtain ⟨d,hd,rfl⟩ := hd
      obtain ⟨item,_,hm,hitem⟩ := (hnames d.name).mp
        (hchecked.2 (List.mem_map.mpr ⟨d,hd,rfl⟩))
      obtain ⟨t,ht,hm⟩ := hm
      rw [hin₂ item t ht,hitem] at ht
      exact ⟨t,ht,hm⟩
  · intro d hd
    rw [hcanonical d hd]
    exact hpromoted.contents d hd
  · intro reference t ht hm hname
    have hkept : w₁.table reference = some t := by
      rw [hother reference hname]
      exact ht
    rcases hremoved reference with hsame | hgone
    · exact hsame.trans hkept
    · obtain ⟨_,_,t',ht',hm'⟩ := hgone
      rw [hkept] at ht'
      cases ht'
      rw [hm] at hm'
      cases hm'
  · intro d hd
    refine ⟨hfree d hd,?_⟩
    intro hname
    have hnone : w₁.table (reconciler.shadowReference datasetId hex d) = none := by
      rw [hother _ hname]
      exact hfree d hd
    rcases hremoved (reconciler.shadowReference datasetId hex d) with hsame | hgone
    · exact hsame.trans hnone
    · exact hgone.1

/-- What a reconciliation leaves: on success, and when its preflight fails. -/
structure Framed (lib : Library) (reconciler : AnalyticsViewReconciler) (datasetId hex : String)
    (w₀ : Warehouse) (h : List ClientEvent) (r : Except Exc AnalyticsViewReconciliation)
    (w : Warehouse) : Prop where
  succeeded : ∀ result, r = .ok result → ∃ definitions,
    lib.analyticsViews reconciler.projectId datasetId "" = .ok definitions ∧
      Reconciled lib reconciler datasetId definitions hex w₀ w
  refused : (preflightFailed h = true ∨
    ∃ e, lib.analyticsViews reconciler.projectId datasetId (namePrefix hex) = .error e) →
    Shadowed lib reconciler datasetId hex w₀ w

theorem Framed.same {r : Except Exc AnalyticsViewReconciliation} {h' : List ClientEvent}
    (hf : Framed lib reconciler datasetId hex w₀ h r w) (htable : w'.table = w.table)
    (hfailed : preflightFailed h' = preflightFailed h) :
    Framed lib reconciler datasetId hex w₀ h' r w' := by
  constructor
  · intro result hr
    obtain ⟨definitions,hload,hreconciled⟩ := hf.succeeded result hr
    refine ⟨definitions,hload,?_,?_,?_,?_⟩
    · intro reference
      unfold Managed
      rw [htable]
      exact hreconciled.managed reference
    · rw [htable]
      exact hreconciled.contents
    · rw [htable]
      exact hreconciled.untouched
    · rw [htable]
      exact hreconciled.shadows
  · intro hrefused
    rw [hfailed] at hrefused
    exact (hf.refused hrefused).same htable

theorem framed_error {e : Exc} (hs : Shadowed lib reconciler datasetId hex w₀ w) :
    Framed lib reconciler datasetId hex w₀ h (.error e) w :=
  ⟨(fun result hr => by cases hr),fun _ => hs⟩

/-- Everything after a preflight that succeeded. -/
theorem promotion_frames (hstale : reconciler.removeStaleManagedViews = true)
    (hin : InDataset reconciler datasetId w₀)
    (hload : lib.analyticsViews reconciler.projectId datasetId "" = .ok definitions)
    (hshadows : ∃ shadows,
      lib.analyticsViews reconciler.projectId datasetId (namePrefix hex) = .ok shadows)
    (hunique : (definitions.map AnalyticsView.name).Nodup) (hw : w.table = w₀.table)
    (hfree : ∀ d ∈ preflightShadows lib reconciler datasetId hex,
      w₀.table (reconciler.shadowReference datasetId hex d) = none)
    (hquiet : preflightFailed h = false) :
    Ends clientMachine (Framed lib reconciler datasetId hex w₀)
      (do
        promote lib reconciler datasetId definitions
        if reconciler.removeStaleManagedViews then
          let items ← listTables
          let removed ← removeStale (definitions.map AnalyticsView.name) items 0
          let items ← listTables
          let names ← managedNames items []
          if ¬(names ⊆ definitions.map AnalyticsView.name ∧
              definitions.map AnalyticsView.name ⊆ names) then
            throw (.runtimeError "Managed analytics view postcondition failed")
          pure { desiredViewCount := definitions.length, removedViewCount := removed }
        else
          pure { desiredViewCount := definitions.length, removedViewCount := 0 }) h w := by
  rw [if_pos hstale]
  have hinnocent : Innocent (do
      promote lib reconciler datasetId definitions
      let items ← listTables
      let removed ← removeStale (definitions.map AnalyticsView.name) items 0
      let items ← listTables
      let names ← managedNames items []
      if ¬(names ⊆ definitions.map AnalyticsView.name ∧
          definitions.map AnalyticsView.name ⊆ names) then
        throw (.runtimeError "Managed analytics view postcondition failed")
      pure ({ desiredViewCount := definitions.length, removedViewCount := removed } :
        AnalyticsViewReconciliation)) := by
    refine (innocent_promote definitions).bind (fun _ => (innocent_perform rfl).bind ?_)
    intro items
    refine (innocent_removeStale items 0).bind (fun removed => (innocent_perform rfl).bind ?_)
    intro items'
    refine (innocent_managedNames items' []).bind ?_
    intro names
    split
    · exact innocent_raise _
    · exact innocent_ret _
  have hsuccess : Ends clientMachine (fun _ r w' => ∀ result, r = .ok result →
      Reconciled lib reconciler datasetId definitions hex w₀ w') (do
      promote lib reconciler datasetId definitions
      let items ← listTables
      let removed ← removeStale (definitions.map AnalyticsView.name) items 0
      let items ← listTables
      let names ← managedNames items []
      if ¬(names ⊆ definitions.map AnalyticsView.name ∧
          definitions.map AnalyticsView.name ⊆ names) then
        throw (.runtimeError "Managed analytics view postcondition failed")
      pure ({ desiredViewCount := definitions.length, removedViewCount := removed } :
        AnalyticsViewReconciliation)) h w := by
    have hraised : ∀ (e : Exc) (w' : Warehouse) (result : AnalyticsViewReconciliation),
        Except.error e = .ok result → Reconciled lib reconciler datasetId definitions hex w₀ w' := by
      intro e w' result hr
      cases hr
    refine (promote_ends hunique).bind ?_ (fun _ e w' _ => hraised e w')
    intro h₁ _ w₁ hpromoted c r w₂ does
    cases r with
    | error e => exact hraised e w₂
    | ok items =>
      obtain ⟨rfl,_⟩ := listTables_listed does
      refine removeStale_ends.bind ?_ (fun _ e w' _ => hraised e w')
      intro h₃ removed w₃ hremoved c r w₄ does
      cases r with
      | error e => exact hraised e w₄
      | ok items' =>
        obtain ⟨rfl,rfl⟩ := listTables_listed does
        refine managedNames_ends.bind ?_ (fun _ e w' _ => hraised e w')
        intro h₅ names w₅ hnames
        obtain ⟨rfl,hnames⟩ := hnames names rfl
        split
        · exact hraised _ _
        · rename_i hchecked
          intro result _
          refine reconciled_of_checked hin hw hfree (hpromoted rfl) (hremoved removed rfl) ?_
            (not_not.mp hchecked)
          intro name
          rw [hnames name]
          simp
  refine (hsuccess.and (hinnocent h w)).mono ?_
  intro h' r w' hq
  obtain ⟨hreconciled,hfailed⟩ := hq
  refine ⟨fun result hr => ⟨definitions,hload,hreconciled result hr⟩,?_⟩
  intro hrefused
  rcases hrefused with hrefused | hrefused
  · rw [hfailed,hquiet] at hrefused
    cases hrefused
  · obtain ⟨e,he⟩ := hrefused
    obtain ⟨shadows,hshadows⟩ := hshadows
    rw [hshadows] at he
    cases he

theorem reconcileViews_ends (hstale : reconciler.removeStaleManagedViews = true)
    (hin : InDataset reconciler datasetId w₀)
    (hunique : ∀ definitions, lib.analyticsViews reconciler.projectId datasetId "" = .ok definitions →
      (definitions.map AnalyticsView.name).Nodup)
    (hw : w.table = w₀.table) (hquiet : preflightFailed h = false) :
    Ends clientMachine (Framed lib reconciler datasetId hex w₀)
      (reconcileViews lib reconciler datasetId hex now) h w := by
  unfold reconcileViews
  cases hload : lib.analyticsViews reconciler.projectId datasetId "" with
  | error e => exact framed_error (.of_table hw)
  | ok definitions =>
    refine Ends.bind (Q := fun h' r w' => r = .ok definitions ∧ h' = h ∧ w' = w) ⟨rfl,rfl,rfl⟩ ?_
      (fun _ _ _ hq => by cases hq.1)
    intro h₀ _ w₁ hq
    obtain ⟨hr,rfl,rfl⟩ := hq
    cases hr
    refine (preflight_ends hw).bind ?_ ?_
    · intro h₁ _ w₂ hq
      obtain ⟨_,hsuccess⟩ := hq
      obtain ⟨hw₂,hfailed,hshadows,hfree⟩ := hsuccess rfl
      exact promotion_frames hstale hin hload hshadows (hunique definitions hload) hw₂ hfree
        (hfailed.trans hquiet)
    · intro h₁ e w₂ hq
      exact framed_error hq.1

/-- The reconciliation, whatever the service does. -/
theorem reconcile_ends (hstale : reconciler.removeStaleManagedViews = true)
    (hin : InDataset reconciler datasetId w₀)
    (hunique : ∀ definitions, lib.analyticsViews reconciler.projectId datasetId "" = .ok definitions →
      (definitions.map AnalyticsView.name).Nodup) :
    Ends clientMachine (Framed lib reconciler datasetId hex w₀)
      (reconcile lib reconciler datasetId hex now) [] w₀ := by
  intro c r w₁ does
  have hw₁ := table_congr (dataset_tables (Or.inl rfl) does)
  cases r with
  | error e => exact framed_error (.of_table hw₁)
  | ok dataset =>
    intro c r w₂ does
    have hw₂ := (table_congr (dataset_tables (Or.inr ⟨_,_,rfl⟩) does)).trans hw₁
    cases r with
    | error e => exact framed_error (.of_table hw₂)
    | ok u =>
      refine Ends.withFinally (reconcileViews_ends hstale hin hunique hw₂ rfl) ?_
      intro h' r w₃ hframed c r' w₄ does
      have hw₄ := table_congr (dataset_tables (Or.inl rfl) does)
      cases r' with
      | error e =>
        have hf := hframed.same hw₄ (preflightFailed_snoc ⟨.getDataset,.error e⟩
          (Or.inl rfl))
        exact ⟨(fun result hr => by cases hr),hf.refused⟩
      | ok restored =>
        have hf := hframed.same hw₄ (preflightFailed_snoc ⟨.getDataset,.ok restored⟩
          (Or.inl rfl))
        intro c r'' w₅ does
        have hw₅ := table_congr (dataset_tables (Or.inr ⟨_,_,rfl⟩) does)
        have hf' := hf.same hw₅ (preflightFailed_snoc ⟨_,r''⟩ (Or.inl rfl))
        cases r'' with
        | error e => exact ⟨(fun result hr => by cases hr),hf'.refused⟩
        | ok u => exact hf'

/-- A reconciliation that succeeds leaves exactly the definitions as managed views, with
everything else as it was and no shadow; one whose preflight fails leaves all that existed. -/
theorem reconcile_frames {es : List ClientEvent} {q : Program AnalyticsViewReconciliation}
    (hstale : reconciler.removeStaleManagedViews = true) (hin : InDataset reconciler datasetId w)
    (hunique : ∀ definitions, lib.analyticsViews reconciler.projectId datasetId "" = .ok definitions →
      (definitions.map AnalyticsView.name).Nodup)
    (hpath : Path clientMachine (reconcile lib reconciler datasetId hex now) w es q w')
    (hfinished : q.finished = true) :
    (∀ result, q = .ret result → ∃ definitions,
      lib.analyticsViews reconciler.projectId datasetId "" = .ok definitions ∧
        Reconciled lib reconciler datasetId definitions hex w w') ∧
    ((preflightFailed es = true ∨
        ∃ e, lib.analyticsViews reconciler.projectId datasetId (namePrefix hex) = .error e) →
      Shadowed lib reconciler datasetId hex w w') := by
  have hends := (reconcile_ends hstale hin hunique).path hpath
  rw [List.nil_append] at hends
  cases q with
  | ret result =>
    refine ⟨?_,hends.refused⟩
    intro result' hr
    cases hr
    exact hends.succeeded result rfl
  | raise e => exact ⟨(fun result hr => by cases hr),hends.refused⟩
  | call op k => cases hfinished

end Reconciliation

section Examples

def oneView : AnalyticsView := { name := "drives", description := "Drives.", sql := "SELECT 1" }

def oneViewLoader : Library :=
  { sha256Hex := fun _ => "0123456789abcdef0123", analyticsViews := fun _ _ _ => .ok [oneView] }

def homerReference (name : String) : TableReference :=
  sampleReconciler.viewReference "tesla_u_homer" name

/-- A retired managed view, a personal view and the raw table, with labels of all kinds. -/
def sharedWarehouse : Warehouse :=
  { dataset := some { location := "us-central1" }
    tables :=
      [{ reference := homerReference "retired_managed_view", tableType := some .view
         labels := setLabel analyticsViewLabels "managed_by" "add-user" },
       { reference := homerReference "personal_view", tableType := some .view
         labels := [("managed_by","user")] },
       { reference := homerReference "raw_telemetry_events", tableType := some .table
         labels := analyticsViewLabels }] }

theorem sharedWarehouse_inDataset :
    InDataset sampleReconciler "tesla_u_homer" sharedWarehouse := by
  intro reference t ht
  have hmem := mem_listed.mpr ⟨t,ht⟩
  simp only [sharedWarehouse,List.map_cons,List.map_nil,List.mem_cons,List.not_mem_nil,or_false]
    at hmem
  rcases hmem with rfl | rfl | rfl <;> rfl

theorem reconcile_frames_shared : ∃ es w,
    Path clientMachine (reconcile oneViewLoader sampleReconciler "tesla_u_homer" "abcdef0123456789" 0)
      sharedWarehouse es (.ret { desiredViewCount := 1, removedViewCount := 1 }) w ∧
    Reconciled oneViewLoader sampleReconciler "tesla_u_homer" [oneView] "abcdef0123456789"
      sharedWarehouse w := by
  obtain ⟨es,q,w,hpath,hq⟩ := path_of_choices clientMachine
    (reconcile oneViewLoader sampleReconciler "tesla_u_homer" "abcdef0123456789" 0) sharedWarehouse
    (List.replicate 19 .done)
    (fun x => match x.2.1 with
      | .ret result => decide (result = { desiredViewCount := 1, removedViewCount := 1 })
      | _ => false) (by decide)
  have hresult : q = .ret { desiredViewCount := 1, removedViewCount := 1 } := by
    split at hq
    · rename_i result hreturned
      rw [of_decide_eq_true hq] at hreturned
      exact hreturned
    · cases hq
  subst hresult
  have hunique : ∀ definitions, oneViewLoader.analyticsViews sampleReconciler.projectId
      "tesla_u_homer" "" = .ok definitions → (definitions.map AnalyticsView.name).Nodup := by
    intro definitions hload
    cases hload
    simp
  obtain ⟨definitions,hload,hreconciled⟩ :=
    (reconcile_frames rfl sharedWarehouse_inDataset hunique hpath rfl).1 _ rfl
  cases hload
  exact ⟨es,w,hpath,hreconciled⟩

end Examples

end Woodhouse.BigQuery
