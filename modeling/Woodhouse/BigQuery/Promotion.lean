import Woodhouse.BigQuery.Views

namespace Woodhouse.BigQuery
open Effects

/-- What a promotion writes of a view. -/
structure ViewContent where
  description : Option String
  labels : Labels
  viewQuery : Option String
  viewUseLegacySql : Option Bool
  deriving DecidableEq

def Table.content (t : Table) : ViewContent :=
  { description := t.description
    labels := t.labels
    viewQuery := t.viewQuery
    viewUseLegacySql := t.viewUseLegacySql }

def ViewSnapshot.content (s : ViewSnapshot) : ViewContent :=
  { description := s.description
    labels := s.labels
    viewQuery := s.viewQuery
    viewUseLegacySql := s.viewUseLegacySql }

/-- The views by reference: which exist, and with what content. -/
abbrev Views := TableReference → Option ViewContent

def Warehouse.views (w : Warehouse) : Views := fun reference => (w.table reference).map Table.content

/-- What undoing one change leaves. -/
def undo (change : Change) (views : Views) : Views :=
  Function.update views change.1 (change.2.map ViewSnapshot.content)

/-- Undoing the changes, the latest first. -/
def undoAll (changes : List Change) (views : Views) : Views := changes.foldr undo views

@[simp] theorem undoAll_snoc (changes : List Change) (change : Change) (views : Views) :
    undoAll (changes ++ [change]) views = undoAll changes (undo change views) := by
  simp [undoAll]

/-- Undoing leaves alone what no change is about. -/
theorem undoAll_other {changes : List Change} {views : Views} {reference : TableReference}
    (h : ∀ change ∈ changes, change.1 ≠ reference) :
    undoAll changes views reference = views reference := by
  induction changes with
  | nil => rfl
  | cons change rest ih =>
    have hother := h change List.mem_cons_self
    have hrest := ih (fun c hc => h c (List.mem_cons_of_mem _ hc))
    exact (Function.update_of_ne (Ne.symm hother) ..).trans hrest

section Service
variable {w : Warehouse}

theorem views_eq {reference : TableReference} {t : Table} (h : w.table reference = some t) :
    w.views reference = some t.content := by
  unfold Warehouse.views
  rw [h]
  rfl

theorem views_none {reference : TableReference} (h : w.table reference = none) :
    w.views reference = none := by
  unfold Warehouse.views
  rw [h]
  rfl

theorem views_addTable {t : Table} (h : w.table t.reference = none) :
    (w.addTable t).views = Function.update w.views t.reference (some t.content) := by
  funext reference
  unfold Warehouse.views
  rw [Warehouse.table_addTable]
  by_cases hr : reference = t.reference
  · subst hr
    rw [Function.update_self, h]
    simp
  · rw [Function.update_of_ne hr, if_neg (Ne.symm hr)]
    simp

theorem views_setTable {t : Table} (h : w.table t.reference ≠ none) :
    (w.setTable t).views = Function.update w.views t.reference (some t.content) := by
  funext reference
  unfold Warehouse.views
  rw [Warehouse.table_setTable]
  by_cases hr : reference = t.reference
  · subst hr
    rw [Function.update_self, if_pos rfl]
    obtain ⟨stored, hstored⟩ := Option.ne_none_iff_exists'.mp h
    rw [hstored]
    rfl
  · rw [Function.update_of_ne hr, if_neg (Ne.symm hr)]

theorem views_removeTable (reference : TableReference) :
    (w.removeTable reference).views = Function.update w.views reference none := by
  funext other
  unfold Warehouse.views
  rw [Warehouse.table_removeTable]
  by_cases hr : other = reference
  · subst hr
    rw [Function.update_self, if_pos rfl]
    rfl
  · rw [Function.update_of_ne hr, if_neg (Ne.symm hr)]

/-- An update of the four fields writes the content of the view. -/
theorem update_content (stored written : Table) :
    (stored.update written viewFields).content = written.content := rfl

/-- What a call that gets through does to the views. -/
theorem updateTable_views {written : Table} {stored : Table}
    (h : w.table written.reference = some stored) :
    (w.answer (.updateTable written viewFields)).2.views =
      Function.update w.views written.reference (some written.content) := by
  have hstored := Warehouse.table_reference h
  have hreference : (stored.update written viewFields).reference = written.reference := by
    rw [Table.update_reference]
    exact hstored
  have hpresent : w.table (stored.update written viewFields).reference ≠ none := by
    rw [hreference, h]
    exact Option.some_ne_none stored
  simp only [Warehouse.answer, h]
  rw [views_setTable hpresent, hreference, update_content]

theorem createTable_views {t : Table} {existsOk : Bool} (h : w.table t.reference = none) :
    (w.answer (.createTable t existsOk)).2.views =
      Function.update w.views t.reference (some t.content) := by
  simp only [Warehouse.answer, h]
  exact views_addTable (t := Warehouse.created t) h

theorem deleteTable_views (reference : TableReference) :
    (w.answer (.deleteTable reference true)).2.views = Function.update w.views reference none := by
  cases h : w.table reference with
  | none =>
    simp only [Warehouse.answer, h]
    rw [if_pos trivial]
    funext other
    by_cases hr : other = reference
    · subst hr
      rw [Function.update_self]
      exact views_none h
    · rw [Function.update_of_ne hr]
  | some stored =>
    simp only [Warehouse.answer, h]
    exact views_removeTable reference

end Service

section Steps
variable {w w' : Warehouse} {c : Choice}

theorem machine_ok {call : Call} {a : call.Ret} (h : clientMachine w call c = some (.ok a,w')) :
    w.answer call = (.ok a,w') := by
  cases c with
  | done => exact Option.some.inj h
  | failed name => cases h
  | lost name => cases h

/-- A call that raises had no effect, or the one it would have had. -/
theorem machine_error {call : Call} {e : Exc}
    (h : clientMachine w call c = some (.error e,w')) : w' = w ∨ w' = (w.answer call).2 := by
  cases c with
  | done =>
    have hanswer := Option.some.inj h
    exact Or.inr (congrArg Prod.snd hanswer).symm
  | failed name => exact Or.inl (Prod.mk.inj (Option.some.inj h)).2.symm
  | lost name => exact Or.inr (Prod.mk.inj (Option.some.inj h)).2.symm

theorem getTable_answer (w : Warehouse) (reference : TableReference) :
    (w.answer (.getTable reference)).2 = w := by
  unfold Warehouse.answer
  dsimp only
  split <;> rfl

theorem getTable_ok {reference : TableReference} {t : Table}
    (h : clientMachine w (.getTable reference) c = some (.ok t,w')) :
    w' = w ∧ w.table reference = some t := by
  have hanswer := machine_ok h
  unfold Warehouse.answer at hanswer
  dsimp only at hanswer
  split at hanswer
  · cases hanswer
  · rename_i stored hstored
    obtain ⟨ht, rfl⟩ := Prod.mk.inj hanswer
    obtain rfl := Except.ok.inj ht
    exact ⟨rfl, hstored⟩

theorem getTable_error {reference : TableReference} {e : Exc}
    (h : clientMachine w (.getTable reference) c = some (.error e,w')) :
    w' = w ∧ (e = .notFound → w.table reference = none) := by
  have hsame : w' = w := by
    rcases machine_error h with hw | hw
    · exact hw
    · rw [hw, getTable_answer]
  refine ⟨hsame, ?_⟩
  intro he
  subst he
  cases c with
  | done =>
    have hanswer := Option.some.inj h
    unfold Warehouse.answer at hanswer
    dsimp only at hanswer
    split at hanswer
    · assumption
    · cases hanswer
  | failed name => cases h
  | lost name => cases h

theorem updateTable_ok {written stored : Table} (held : w.table written.reference = some stored)
    {u : Unit} (h : clientMachine w (.updateTable written viewFields) c = some (.ok u,w')) :
    w'.views = Function.update w.views written.reference (some written.content) := by
  have hanswer := machine_ok h
  rw [← updateTable_views held, hanswer]

theorem deleteTable_ok {reference : TableReference} {u : Unit}
    (h : clientMachine w (.deleteTable reference true) c = some (.ok u,w')) :
    w'.views = Function.update w.views reference none := by
  have hanswer := machine_ok h
  rw [← deleteTable_views reference, hanswer]

end Steps

section Rollback
variable {w w' : Warehouse} {es : List ClientEvent} {name reported : String}

/-- A rollback that has met an error reports it. -/
theorem rollback_spoiled {changes : List Change} {e : Exc}
    (h : Path clientMachine (rollbackChanges changes (some e) >>= reportPromotion name) w es
      (.raise (.viewReconciliation "promotion" reported)) w') : False := by
  induction changes generalizing w es with
  | nil =>
    obtain ⟨hq, _⟩ := Path.of_raise h
    simp at hq
  | cons change rest ih =>
    obtain ⟨reference, snapshot⟩ := change
    cases snapshot with
    | none =>
      obtain ⟨_, hq, _⟩ | ⟨c, r, s', rest', _, _, htail⟩ := Path.of_call h
      · cases hq
      · cases r with
        | error e' => exact ih htail
        | ok u => exact ih htail
    | some snapshot =>
      obtain ⟨_, hq, _⟩ | ⟨c, r, s', rest', _, _, htail⟩ := Path.of_call h
      · cases hq
      · cases r with
        | error e' => exact ih htail
        | ok current =>
          obtain ⟨_, hq, _⟩ | ⟨c, r, s', rest', _, _, htail⟩ := Path.of_call htail
          · cases hq
          · cases r with
            | error e' => exact ih htail
            | ok u => exact ih htail

/-- A rollback that reports no error undoes every change, and all its calls succeed. -/
theorem rollback_undoes {changes : List Change}
    (h : Path clientMachine (rollbackChanges changes none >>= reportPromotion name) w es
      (.raise (.viewReconciliation "promotion" reported)) w') :
    w'.views = undoAll changes.reverse w.views ∧ ∀ event ∈ es, ∃ a, event.ret = .ok a := by
  induction changes generalizing w es with
  | nil =>
    cases h with
    | refl => exact ⟨rfl, by simp⟩
  | cons change rest ih =>
    obtain ⟨reference, snapshot⟩ := change
    rw [List.reverse_cons, undoAll_snoc]
    cases snapshot with
    | none =>
      obtain ⟨_, hq, _⟩ | ⟨c, r, s', rest', hstep, rfl, htail⟩ := Path.of_call h
      · cases hq
      · cases r with
        | error e' => exact absurd htail (fun hbad => rollback_spoiled hbad)
        | ok u =>
          obtain ⟨hviews, hok⟩ := ih htail
          rw [hviews, deleteTable_ok hstep]
          refine ⟨rfl, ?_⟩
          intro event hevent
          rcases List.mem_cons.mp hevent with rfl | hevent
          · exact ⟨u, rfl⟩
          · exact hok event hevent
    | some snapshot =>
      obtain ⟨_, hq, _⟩ | ⟨c, r, s', rest', hstep, rfl, htail⟩ := Path.of_call h
      · cases hq
      · cases r with
        | error e' => exact absurd htail (fun hbad => rollback_spoiled hbad)
        | ok current =>
          obtain ⟨rfl, hcurrent⟩ := getTable_ok hstep
          have hreference := Warehouse.table_reference hcurrent
          obtain ⟨_, hq, _⟩ | ⟨c, r, s'', rest'', hstep', rfl, hlast⟩ := Path.of_call htail
          · cases hq
          · cases r with
            | error e' => exact absurd hlast (fun hbad => rollback_spoiled hbad)
            | ok u =>
              obtain ⟨hviews, hok⟩ := ih hlast
              have hheld : s'.table (withSnapshot current snapshot).reference = some current := by
                rw [← hcurrent, ← hreference]
                rfl
              have hwritten : s''.views = undo (reference,some snapshot) s'.views := by
                rw [updateTable_ok hheld hstep', ← hreference]
                rfl
              rw [hviews, hwritten]
              refine ⟨rfl, ?_⟩
              intro event hevent
              rcases List.mem_cons.mp hevent with rfl | hevent
              · exact ⟨current, rfl⟩
              · rcases List.mem_cons.mp hevent with rfl | hevent
                · exact ⟨u, rfl⟩
                · exact hok event hevent

/-- A rollback whose calls all succeed reports no error. -/
theorem rollback_reports {changes : List Change} {q : Program Unit}
    (h : Path clientMachine (rollbackChanges changes none >>= reportPromotion name) w es q w')
    (hfinished : q.finished = true) (hok : ∀ event ∈ es, ∃ a, event.ret = .ok a) :
    q = .raise (.viewReconciliation "promotion" name) := by
  induction changes generalizing w es with
  | nil => exact (Path.of_raise h).1
  | cons change rest ih =>
    obtain ⟨reference, snapshot⟩ := change
    cases snapshot with
    | none =>
      obtain ⟨_, rfl, _⟩ | ⟨c, r, s', rest', _, rfl, htail⟩ := Path.of_call h
      · cases hfinished
      · obtain ⟨a, ha⟩ := hok _ List.mem_cons_self
        cases r with
        | error e => cases ha
        | ok u => exact ih htail (fun event hevent => hok event (List.mem_cons_of_mem _ hevent))
    | some snapshot =>
      obtain ⟨_, rfl, _⟩ | ⟨c, r, s', rest', _, rfl, htail⟩ := Path.of_call h
      · cases hfinished
      · obtain ⟨a, ha⟩ := hok _ List.mem_cons_self
        cases r with
        | error e => cases ha
        | ok current =>
          obtain ⟨_, rfl, _⟩ | ⟨c, r, s'', rest'', _, rfl, hlast⟩ := Path.of_call htail
          · cases hfinished
          · obtain ⟨a, ha⟩ := hok _ (List.mem_cons_of_mem _ List.mem_cons_self)
            cases r with
            | error e => cases ha
            | ok u =>
              exact ih hlast (fun event hevent =>
                hok event (List.mem_cons_of_mem _ (List.mem_cons_of_mem _ hevent)))

end Rollback

section Promotion
variable {lib : Library} {self : AnalyticsViewReconciler} {datasetId : String}
  {w w₁ w₂ w' : Warehouse} {call : Call} {e : Exc} {reported : String}

/-- The raising call is a creation that took effect. -/
def LostCreation (call : Call) (before after : Warehouse) : Prop :=
  ∃ table existsOk, call = .createTable table existsOk ∧ before.views table.reference = none ∧
    after.views table.reference ≠ none

/-- The changes so far are of views that exist, and undoing them gives the views `initial`. -/
structure Undoable (changes : List Change) (w : Warehouse) (initial : Views) : Prop where
  undone : undoAll changes w.views = initial
  present : ∀ change ∈ changes, w.views change.1 ≠ none

/-- The canonical views of these definitions. -/
def canonicalViews (self : AnalyticsViewReconciler) (datasetId : String)
    (definitions : List AnalyticsView) : List TableReference :=
  definitions.map (fun definition => self.viewReference datasetId definition.name)

/-- A failed promotion either restores every view, or its raising call left a new one. -/
structure Settled (call : Call) (initial : Views) (w₁ w₂ w' : Warehouse)
    (references : List TableReference) : Prop where
  restored : ¬LostCreation call w₁ w₂ → w'.views = initial
  left : LostCreation call w₁ w₂ →
    ∃ reference ∈ references, initial reference = none ∧ w'.views reference ≠ none

/-- Nothing raised in the `try` block yet: a rollback that fails reports it. -/
theorem conclude_fails {attempt : Attempt}
    (h : Fails clientMachine (concludePromotion attempt) w call e w₁ w₂
      (.raise (.viewReconciliation "promotion" reported)) w') : False := by
  unfold concludePromotion at h
  cases hcause : attempt.cause with
  | none =>
    rw [hcause] at h
    exact Fails.not_ret h
  | some cause =>
    rw [hcause] at h
    obtain ⟨es, hpath, hmem⟩ := h.path
    obtain ⟨a, ha⟩ := (rollback_undoes hpath).2 _ hmem
    cases ha

/-- After the call that raised, the rollback undoes the changes. -/
theorem conclude_undoes {changes : List Change} {name : String} {es : List ClientEvent}
    (h : Path clientMachine
      (concludePromotion { changes := changes, activeViewName := name, cause := some e }) w es
      (.raise (.viewReconciliation "promotion" reported)) w') :
    w'.views = undoAll changes w.views := by
  have hviews := (rollback_undoes h).1
  rwa [List.reverse_reverse] at hviews

theorem Undoable.same {changes : List Change} {initial : Views} (h : Undoable changes w initial)
    (hsame : w'.views = w.views) : Undoable changes w' initial := by
  refine ⟨?_, ?_⟩
  · rw [hsame]
    exact h.undone
  · intro change hchange
    rw [hsame]
    exact h.present change hchange

/-- A change joins the log with what undoes it, before or after it is made. -/
theorem Undoable.snoc {changes : List Change} {initial : Views} {change : Change}
    (h : Undoable changes w initial) (hundo : undo change w'.views = w.views)
    (hpresent : w'.views change.1 ≠ none) : Undoable (changes ++ [change]) w' initial := by
  refine ⟨?_, ?_⟩
  · rw [undoAll_snoc, hundo]
    exact h.undone
  · intro other hother
    rcases List.mem_append.mp hother with hold | hnew
    · have hheld := h.present other hold
      by_cases hsame : other.1 = change.1
      · rw [hsame]
        exact hpresent
      · rw [← hundo] at hheld
        rwa [undo, Function.update_of_ne hsame] at hheld
    · obtain rfl := List.mem_singleton.mp hnew
      exact hpresent

/-- What the last change restores may be written again. -/
theorem Undoable.rewritten {changes : List Change} {change : Change} {initial : Views}
    {content : ViewContent} (h : Undoable (changes ++ [change]) w initial)
    (hw : w'.views = Function.update w.views change.1 (some content)) :
    Undoable (changes ++ [change]) w' initial := by
  refine ⟨?_, ?_⟩
  · rw [← h.undone, undoAll_snoc, undoAll_snoc, hw]
    simp only [undo, Function.update_idem]
  · intro other hother
    rw [hw]
    by_cases hsame : other.1 = change.1
    · rw [hsame, Function.update_self]
      exact Option.some_ne_none content
    · rw [Function.update_of_ne hsame]
      exact h.present other hother

theorem not_lost_of_call {before after : Warehouse}
    (h : ∀ table existsOk, call ≠ .createTable table existsOk) :
    ¬LostCreation call before after := by
  intro hlost
  obtain ⟨table, existsOk, hcall, _⟩ := hlost
  exact h table existsOk hcall

/-- The update of a view whose change is in the log, and the rest of the loop after it. -/
theorem updateView_fails {initial : Views} {current desired stored : Table}
    {changes : List Change} {change : Change} {name : String} {rest : Program Attempt}
    (hundo : Undoable (changes ++ [change]) w initial)
    (hheld : w.table current.reference = some stored) (hchange : change.1 = current.reference)
    (h : Fails clientMachine
      (updateView current desired (changes ++ [change]) name rest >>= concludePromotion) w call e
      w₁ w₂ (.raise (.viewReconciliation "promotion" reported)) w') :
    (¬LostCreation call w₁ w₂ ∧ w'.views = initial) ∨
    ∃ s, Undoable (changes ++ [change]) s initial ∧
      Fails clientMachine (rest >>= concludePromotion) s call e w₁ w₂
        (.raise (.viewReconciliation "promotion" reported)) w' := by
  have heffect : (w.answer (.updateTable (withDesired current desired) viewFields)).2.views =
      Function.update w.views current.reference (some (withDesired current desired).content) :=
    updateTable_views hheld
  rcases Fails.of_call h with ⟨rfl, rfl, c, es, hstep, hpath⟩ | ⟨c, r, s, hstep, hfails⟩
  · refine Or.inl ⟨not_lost_of_call (by simp), ?_⟩
    rw [conclude_undoes hpath]
    rcases machine_error hstep with rfl | rfl
    · exact hundo.undone
    · exact (hundo.rewritten (by rw [heffect, hchange])).undone
  · cases r with
    | error e' => exact (conclude_fails hfails).elim
    | ok u =>
      have hwritten : s.views =
          Function.update w.views current.reference (some (withDesired current desired).content) := by
        rw [← heffect, machine_ok hstep]
      exact Or.inr ⟨s, hundo.rewritten (by rw [hwritten, hchange]), hfails⟩

/-- The creation of an absent view: when it raises it may have taken effect without a change in
the log; otherwise the log has it before anything else can raise. -/
theorem createView_fails {initial : Views} {desired : Table} {references : List TableReference}
    {changes : List Change} {name : String} {rest : List Change → Program Attempt}
    (hundo : Undoable changes w initial) (hfree : w.table desired.reference = none)
    (hcanonical : desired.reference ∈ references)
    (h : Fails clientMachine (createView desired changes name rest >>= concludePromotion) w call e
      w₁ w₂ (.raise (.viewReconciliation "promotion" reported)) w') :
    Settled call initial w₁ w₂ w' references ∨
    ∃ s, Undoable (changes ++ [(desired.reference,none)]) s initial ∧
      Fails clientMachine (rest (changes ++ [(desired.reference,none)]) >>= concludePromotion) s
        call e w₁ w₂ (.raise (.viewReconciliation "promotion" reported)) w' := by
  have hnone := views_none hfree
  have heffect : (w.answer (.createTable desired false)).2.views =
      Function.update w.views desired.reference (some desired.content) := createTable_views hfree
  rcases Fails.of_call h with ⟨rfl, rfl, c, es, hstep, hpath⟩ | ⟨c, r, s, hstep, hfails⟩
  · have hundone := conclude_undoes hpath
    -- the log is about views that existed, so not about this one
    have hothers : ∀ change ∈ changes, change.1 ≠ desired.reference := by
      intro change hchange hsame
      have hpresent := hundo.present change hchange
      rw [hsame] at hpresent
      exact hpresent hnone
    refine Or.inl ⟨?_, ?_⟩
    · intro hkept
      rw [hundone]
      rcases machine_error hstep with rfl | rfl
      · exact hundo.undone
      · refine absurd ⟨desired, false, rfl, hnone, ?_⟩ hkept
        rw [heffect, Function.update_self]
        exact Option.some_ne_none _
    · intro hlost
      obtain ⟨table, existsOk, hcall, _, hcreated⟩ := hlost
      obtain ⟨rfl, rfl⟩ := Call.createTable.inj hcall
      refine ⟨_, hcanonical, ?_, ?_⟩
      · rw [← hundo.undone, undoAll_other hothers]
        exact hnone
      · rw [hundone, undoAll_other hothers]
        exact hcreated
  · cases r with
    | error e' => exact (conclude_fails hfails).elim
    | ok stored =>
      have hcreated : s.views =
          Function.update w.views desired.reference (some desired.content) := by
        rw [← heffect, machine_ok hstep]
      have hundo' : Undoable (changes ++ [(desired.reference,none)]) s initial := by
        refine hundo.snoc ?_ ?_
        · rw [hcreated, undo]
          simp only [Function.update_idem]
          rw [Function.update_eq_iff]
          exact ⟨hnone.symm, fun _ _ => rfl⟩
        · rw [hcreated, Function.update_self]
          exact Option.some_ne_none _
      rcases Fails.of_call hfails with ⟨rfl, rfl, c, es, hstep', hpath⟩ | ⟨c, r, s', hstep', hafter⟩
      · obtain ⟨rfl, _⟩ := getTable_error hstep'
        have hlost : ¬LostCreation (.getTable desired.reference) w₂ w₂ :=
          not_lost_of_call (by simp)
        exact Or.inl ⟨fun _ => (conclude_undoes hpath).trans hundo'.undone, fun h => (hlost h).elim⟩
      · cases r with
        | error e' => exact (conclude_fails hafter).elim
        | ok current =>
          obtain ⟨rfl, hcurrent⟩ := getTable_ok hstep'
          have hreference := Warehouse.table_reference hcurrent
          rw [← hreference] at hcurrent
          rcases updateView_fails hundo' hcurrent hreference.symm hafter with hdone | hrest
          · exact Or.inl ⟨fun _ => hdone.2, fun h => (hdone.1 h).elim⟩
          · exact Or.inr hrest

/-- The loop's rule: the definitions already promoted can be undone, and each further one
extends the log before its view changes, except for a creation that raises. -/
theorem promoteViews_fails {definitions : List AnalyticsView} {changes : List Change}
    {activeViewName : String} {initial : Views} (hundo : Undoable changes w initial)
    (hraised : ∀ reference, ¬(call = .getTable reference ∧ e = .notFound))
    (h : Fails clientMachine
      (promoteViews lib self datasetId definitions changes activeViewName >>= concludePromotion) w
      call e w₁ w₂ (.raise (.viewReconciliation "promotion" reported)) w') :
    Settled call initial w₁ w₂ w' (canonicalViews self datasetId definitions) := by
  induction definitions generalizing changes activeViewName w with
  | nil =>
    have hend : Fails clientMachine
        (concludePromotion { changes := changes, activeViewName := activeViewName, cause := none })
        w call e w₁ w₂ (.raise (.viewReconciliation "promotion" reported)) w' := h
    exact (conclude_fails hend).elim
  | cons definition rest ih =>
    have hlater : Settled call initial w₁ w₂ w' (canonicalViews self datasetId rest) →
        Settled call initial w₁ w₂ w' (canonicalViews self datasetId (definition::rest)) := by
      intro hs
      refine ⟨hs.restored, ?_⟩
      intro hlost
      obtain ⟨other, hother, hleft⟩ := hs.left hlost
      exact ⟨other, List.mem_cons_of_mem _ hother, hleft⟩
    have hdone : ¬LostCreation call w₁ w₂ ∧ w'.views = initial →
        Settled call initial w₁ w₂ w' (canonicalViews self datasetId (definition::rest)) := by
      intro hs
      exact ⟨fun _ => hs.2, fun hlost => (hs.1 hlost).elim⟩
    rcases Fails.of_call h with ⟨rfl, rfl, c, es, hstep, hpath⟩ | ⟨c, r, s, hstep, hfails⟩
    · -- the first read raises
      obtain ⟨rfl, _⟩ := getTable_error hstep
      refine hdone ⟨not_lost_of_call (by simp), ?_⟩
      cases e with
      | notFound => exact absurd ⟨rfl, rfl⟩ (hraised _)
      | _ => exact (conclude_undoes hpath).trans hundo.undone
    · cases r with
      | error e' =>
        obtain ⟨rfl, hfree⟩ := getTable_error hstep
        cases e' with
        | notFound =>
          have hcanonical : (desiredView lib self datasetId definition).reference ∈
              canonicalViews self datasetId (definition::rest) := List.mem_cons_self
          rcases createView_fails hundo (hfree rfl) hcanonical hfails with hsettled | hrest
          · exact hsettled
          · obtain ⟨s', hundo', hfails'⟩ := hrest
            exact hlater (ih hundo' hfails')
        | _ => exact (conclude_fails hfails).elim
      | ok current =>
        obtain ⟨rfl, hcurrent⟩ := getTable_ok hstep
        have hreference := Warehouse.table_reference hcurrent
        rw [← hreference] at hcurrent
        have hview := views_eq hcurrent
        by_cases hkind : current.tableType ≠ none ∧ current.tableType ≠ some .view
        · simp only [if_pos hkind] at hfails
          exact (conclude_fails hfails).elim
        · simp only [if_neg hkind] at hfails
          have hundo' : Undoable (changes ++ [(current.reference,some (viewSnapshot current))]) s
              initial := by
            refine hundo.snoc ?_ ?_
            · rw [undo, Function.update_eq_iff]
              exact ⟨hview.symm, fun _ _ => rfl⟩
            · rw [hview]
              exact Option.some_ne_none _
          rcases updateView_fails hundo' hcurrent rfl hfails with hrestored | hrest
          · exact hdone hrestored
          · obtain ⟨s', hundo'', hfails'⟩ := hrest
            exact hlater (ih hundo'' hfails')

/-- A promotion in which `call` raised between `w₁` and `w₂`, and whose rollback, which is then
made, met no error. A first read that finds no view does not raise. -/
structure FailedPromotion (lib : Library) (reconciler : AnalyticsViewReconciler)
    (datasetId : String) (definitions : List AnalyticsView) (w : Warehouse) (call : Call) (e : Exc)
    (w₁ w₂ w' : Warehouse) : Prop where
  raised : ∀ reference, ¬(call = .getTable reference ∧ e = .notFound)
  fails : ∃ name, Fails clientMachine (promote lib reconciler datasetId definitions) w call e w₁ w₂
    (.raise (.viewReconciliation "promotion" name)) w'

/-- Existence and content of the canonical views are as they were. -/
def CanonicalRestored (self : AnalyticsViewReconciler) (datasetId : String)
    (definitions : List AnalyticsView) (w w' : Warehouse) : Prop :=
  ∀ reference ∈ canonicalViews self datasetId definitions, w'.views reference = w.views reference

/-- Promotion is all or nothing exactly when the raising call is not a creation that took
effect. -/
theorem promotion_restored_iff {definitions : List AnalyticsView}
    (h : FailedPromotion lib self datasetId definitions w call e w₁ w₂ w') :
    CanonicalRestored self datasetId definitions w w' ↔ ¬LostCreation call w₁ w₂ := by
  obtain ⟨name, hfails⟩ := h.fails
  have hundo : Undoable [] w w.views := by
    refine ⟨rfl, ?_⟩
    intro change hchange
    cases hchange
  have hsettled := promoteViews_fails hundo h.raised hfails
  constructor
  · intro hrestored hlost
    obtain ⟨reference, hreference, hnone, hleft⟩ := hsettled.left hlost
    rw [hrestored reference hreference] at hleft
    exact hleft hnone
  · intro hkept reference _
    rw [hsettled.restored hkept]

end Promotion

section Examples

def sampleLibrary : Library := { sha256Hex := id, analyticsViews := fun _ _ _ => .ok [] }

def sampleReconciler : AnalyticsViewReconciler :=
  { projectId := "project", reconcilerServiceAccount := "reconciler@example.iam" }

def drivesView : AnalyticsView :=
  { name := "drives", description := "Drives.", sql := "SELECT 1" }

def priorDrives : Table :=
  { reference := { projectId := "project", datasetId := "tesla_u_homer", tableId := "drives" }
    tableType := some .view
    description := some "Prior drives definition."
    labels := [("definition_hash","prior")]
    viewQuery := some "SELECT 'prior' AS version"
    viewUseLegacySql := some false }

def priorWarehouse : Warehouse := { dataset := none, tables := [priorDrives] }

def emptyWarehouse : Warehouse := { dataset := none, tables := [] }

def drivesTable : Table := desiredView sampleLibrary sampleReconciler "tesla_u_homer" drivesView

/-- The update of an existing view takes effect and loses its answer: the view is restored. -/
theorem promotion_restored_prior :
    CanonicalRestored sampleReconciler "tesla_u_homer" [drivesView] priorWarehouse
      priorWarehouse := by
  have hfailed : FailedPromotion sampleLibrary sampleReconciler "tesla_u_homer" [drivesView]
      priorWarehouse (.updateTable (withDesired priorDrives drivesTable) viewFields)
      (.other "DeadlineExceeded") priorWarehouse
      (priorWarehouse.answer (.updateTable (withDesired priorDrives drivesTable) viewFields)).2
      priorWarehouse := by
    refine ⟨?_, "drives", .later (c := Choice.done) rfl (.here (c := Choice.lost "DeadlineExceeded") rfl
      (.call (c := Choice.done) rfl (.call (c := Choice.done) rfl (.refl _ _))))⟩
    intro reference hcall
    cases hcall.1
  refine (promotion_restored_iff hfailed).mpr ?_
  intro hlost
  obtain ⟨table, existsOk, hcall, _⟩ := hlost
  cases hcall

/-- A view whose creation takes effect without an answer stays. -/
theorem promotion_leaves_creation :
    ¬∀ lib reconciler datasetId definitions w call e w₁ w₂ w',
      FailedPromotion lib reconciler datasetId definitions w call e w₁ w₂ w' →
        CanonicalRestored reconciler datasetId definitions w w' := by
  intro hall
  have hfailed : FailedPromotion sampleLibrary sampleReconciler "tesla_u_homer" [drivesView]
      emptyWarehouse (.createTable drivesTable false) (.other "DeadlineExceeded") emptyWarehouse
      (emptyWarehouse.addTable (Warehouse.created drivesTable))
      (emptyWarehouse.addTable (Warehouse.created drivesTable)) := by
    refine ⟨?_, "drives",
      .later (c := Choice.done) rfl (.here (c := Choice.lost "DeadlineExceeded") rfl (.refl _ _))⟩
    intro reference hcall
    cases hcall.1
  have hrestored := hall _ _ _ _ _ _ _ _ _ _ hfailed drivesTable.reference List.mem_cons_self
  revert hrestored
  decide

end Examples

end Woodhouse.BigQuery
