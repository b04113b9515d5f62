import Mathlib.Data.List.Forall2
import Woodhouse.Commands.AtMostOnce

namespace Woodhouse.Commands
open Effects

section Values
variable (hides : String → Prop)

mutual

/-- Values that are the same up to the order of the entries of their objects and up to what
stands under hidden keys. -/
inductive Alike : Value → Value → Prop where
  | null : Alike .null .null
  | bool (b : Bool) : Alike (.bool b) (.bool b)
  | int (n : Int) : Alike (.int n) (.int n)
  | float (text : String) : Alike (.float text) (.float text)
  | str (s : String) : Alike (.str s) (.str s)
  | arr {values values' : List Value} (items : AlikeItems values values') :
    Alike (.arr values) (.arr values')
  | obj {fields arranged fields' : List (String × Value)} (perm : fields.Perm arranged)
    (entries : AlikeEntries arranged fields') : Alike (.obj fields) (.obj fields')

inductive AlikeItems : List Value → List Value → Prop where
  | nil : AlikeItems [] []
  | cons {v v' : Value} {rest rest' : List Value} (head : Alike v v')
    (tail : AlikeItems rest rest') : AlikeItems (v :: rest) (v' :: rest')

inductive AlikeEntries : List (String × Value) → List (String × Value) → Prop where
  | nil : AlikeEntries [] []
  | hidden {key : String} (hkey : hides key) (v v' : Value)
    {rest rest' : List (String × Value)} (tail : AlikeEntries rest rest') :
    AlikeEntries ((key,v) :: rest) ((key,v') :: rest')
  | shown (key : String) {v v' : Value} {rest rest' : List (String × Value)} (head : Alike v v')
    (tail : AlikeEntries rest rest') : AlikeEntries ((key,v) :: rest) ((key,v') :: rest')

end

/-- The same value, up to the order of the entries of its objects. -/
abbrev Same (v v' : Value) : Prop := Alike (fun _ => False) v v'

/-- Some object in the value, at any depth, has the entry. -/
inductive HasEntry (key : String) (x : Value) : Value → Prop where
  | here {fields : List (String × Value)} (h : (key,x) ∈ fields) : HasEntry key x (.obj fields)
  | field {name : String} {v : Value} {fields : List (String × Value)} (h : (name,v) ∈ fields)
    (hv : HasEntry key x v) : HasEntry key x (.obj fields)
  | item {v : Value} {values : List Value} (h : v ∈ values) (hv : HasEntry key x v) :
    HasEntry key x (.arr values)

end Values

section Redaction
variable {casefold : String → String}

def Sensitive (casefold : String → String) (key : String) : Prop := casefold key ∈ sensitiveKeys

theorem redactValues_eq_map (values : List Value) :
    redactValues casefold values = values.map (redact casefold) := by
  induction values with
  | nil => rw [redactValues,List.map_nil]
  | cons v rest ih => rw [redactValues,ih,List.map_cons]

theorem redactMapping_eq_map (fields : List (String × Value)) :
    redactMapping casefold fields = fields.map (fun entry =>
      (entry.1,if casefold entry.1 ∈ sensitiveKeys then .str redacted
        else redact casefold entry.2)) := by
  induction fields with
  | nil => rw [redactMapping,List.map_nil]
  | cons entry rest ih => rw [redactMapping,ih,List.map_cons]

theorem mem_redactMapping {fields : List (String × Value)} {key : String} {x : Value}
    (h : (key,x) ∈ redactMapping casefold fields) :
    x = .str redacted ∨ ∃ v, x = redact casefold v := by
  rw [redactMapping_eq_map] at h
  obtain ⟨entry,_,heq⟩ := List.mem_map.mp h
  obtain ⟨rfl,rfl⟩ := Prod.mk.inj heq
  split
  · exact .inl rfl
  · exact .inr ⟨entry.2,rfl⟩

/-- Every entry under a sensitive key is redacted, at every depth. -/
theorem hasEntry_redact {key : String} {x w : Value} (h : HasEntry key x w)
    (hkey : casefold key ∈ sensitiveKeys) : ∀ v, redact casefold v = w → x = .str redacted := by
  induction h with
  | @here fields hmem =>
    intro v hv
    cases v with
    | obj entries =>
      rw [redact] at hv
      cases hv
      rw [redactMapping_eq_map] at hmem
      obtain ⟨entry,_,heq⟩ := List.mem_map.mp hmem
      obtain ⟨rfl,rfl⟩ := Prod.mk.inj heq
      rw [if_pos hkey]
    | _ => simp [redact] at hv
  | @field name u fields hmem hu ih =>
    intro v hv
    cases v with
    | obj entries =>
      rw [redact] at hv
      cases hv
      rcases mem_redactMapping hmem with rfl | ⟨v,rfl⟩
      · cases hu
      · exact ih v rfl
    | _ => simp [redact] at hv
  | @item u values hmem hu ih =>
    intro v hv
    cases v with
    | arr items =>
      rw [redact] at hv
      cases hv
      rw [redactValues_eq_map] at hmem
      obtain ⟨v,_,rfl⟩ := List.mem_map.mp hmem
      exact ih v rfl
    | _ => simp [redact] at hv

/-- What a rearranged image comes from. -/
theorem exists_arranged {α β : Type} {f : α → β} {l : List α} {arranged : List β}
    (h : (l.map f).Perm arranged) : ∃ l', l.Perm l' ∧ arranged = l'.map f := by
  have himage : List.Forall₂ (fun b a => b = f a) (l.map f) l := by
    rw [List.forall₂_map_left_iff]
    exact List.forall₂_refl l
  obtain ⟨l',hforall,hperm⟩ := List.perm_comp_forall₂ h.symm himage
  refine ⟨l',hperm.symm,?_⟩
  rw [← List.forall₂_eq_eq_eq,List.forall₂_map_right_iff]
  exact hforall

mutual

/-- Redaction hides what stands under sensitive keys, and nothing else. -/
theorem redact_same_iff : ∀ v' v : Value,
    Same (redact casefold v) (redact casefold v') ↔ Alike (Sensitive casefold) v v'
  | .arr values', v => by
    cases v with
    | arr values =>
      rw [redact,redact]
      constructor
      · intro h
        cases h with
        | arr items => exact .arr ((redactValues_same_iff values' values).mp items)
      · intro h
        cases h with
        | arr items => exact .arr ((redactValues_same_iff values' values).mpr items)
    | _ =>
      constructor
      · intro h
        simp only [redact] at h
        cases h
      · intro h
        cases h
  | .obj fields', v => by
    cases v with
    | obj fields =>
      rw [redact,redact]
      constructor
      · intro h
        cases h with
        | obj perm entries =>
          rw [redactMapping_eq_map] at perm
          obtain ⟨arranged,hperm,rfl⟩ := exists_arranged perm
          rw [← redactMapping_eq_map] at entries
          exact .obj hperm ((redactMapping_same_iff fields' arranged).mp entries)
      · intro h
        cases h with
        | obj perm entries =>
          refine .obj ?_ ((redactMapping_same_iff fields' _).mpr entries)
          rw [redactMapping_eq_map,redactMapping_eq_map]
          exact perm.map _
    | _ =>
      constructor
      · intro h
        simp only [redact] at h
        cases h
      · intro h
        cases h
  | .null, v => by
    constructor
    · intro h
      cases v <;> simp only [redact] at h <;> cases h
      exact .null
    · intro h
      cases h
      exact .null
  | .bool b, v => by
    constructor
    · intro h
      cases v <;> simp only [redact] at h <;> cases h
      exact .bool b
    · intro h
      cases h
      exact .bool b
  | .int n, v => by
    constructor
    · intro h
      cases v <;> simp only [redact] at h <;> cases h
      exact .int n
    · intro h
      cases h
      exact .int n
  | .float text, v => by
    constructor
    · intro h
      cases v <;> simp only [redact] at h <;> cases h
      exact .float text
    · intro h
      cases h
      exact .float text
  | .str s, v => by
    constructor
    · intro h
      cases v <;> simp only [redact] at h <;> cases h
      exact .str s
    · intro h
      cases h
      exact .str s

theorem redactValues_same_iff : ∀ values' values : List Value,
    AlikeItems (fun _ => False) (redactValues casefold values) (redactValues casefold values') ↔
      AlikeItems (Sensitive casefold) values values'
  | [], values => by
    cases values with
    | nil => exact ⟨fun _ => .nil,fun _ => .nil⟩
    | cons v rest =>
      constructor
      · intro h
        cases h
      · intro h
        cases h
  | v' :: rest', values => by
    cases values with
    | nil =>
      constructor
      · intro h
        cases h
      · intro h
        cases h
    | cons v rest =>
      rw [redactValues,redactValues]
      constructor
      · intro h
        cases h with
        | cons head tail =>
          exact .cons ((redact_same_iff v' v).mp head) ((redactValues_same_iff rest' rest).mp tail)
      · intro h
        cases h with
        | cons head tail =>
          exact .cons ((redact_same_iff v' v).mpr head) ((redactValues_same_iff rest' rest).mpr tail)

theorem redactMapping_same_iff : ∀ fields' fields : List (String × Value),
    AlikeEntries (fun _ => False) (redactMapping casefold fields) (redactMapping casefold fields') ↔
      AlikeEntries (Sensitive casefold) fields fields'
  | [], fields => by
    cases fields with
    | nil => exact ⟨fun _ => .nil,fun _ => .nil⟩
    | cons entry rest =>
      constructor
      · intro h
        cases h
      · intro h
        cases h
  | (key',v') :: rest', fields => by
    cases fields with
    | nil =>
      constructor
      · intro h
        cases h
      · intro h
        cases h
    | cons entry rest =>
      obtain ⟨key,v⟩ := entry
      rw [redactMapping,redactMapping]
      constructor
      · intro h
        cases h with
        | hidden hfalse => exact hfalse.elim
        | shown _ head tail =>
          have htail := (redactMapping_same_iff rest' rest).mp tail
          by_cases hkey : casefold key' ∈ sensitiveKeys
          · have hsensitive : Sensitive casefold key' := hkey
            exact .hidden hsensitive v v' htail
          · rw [if_neg hkey,if_neg hkey] at head
            exact .shown key' ((redact_same_iff v' v).mp head) htail
      · intro h
        cases h with
        | hidden hkey _ _ tail =>
          have htail := (redactMapping_same_iff rest' rest).mpr tail
          refine .shown key' ?_ htail
          have hsensitive : casefold key' ∈ sensitiveKeys := hkey
          rw [if_pos hsensitive,if_pos hsensitive]
          exact .str redacted
        | shown _ head tail =>
          have htail := (redactMapping_same_iff rest' rest).mpr tail
          refine .shown key' ?_ htail
          dsimp only
          split
          · exact .str redacted
          · exact (redact_same_iff v' v).mpr head

end

end Redaction

section Parameters

/-- Arguments with the same names, in any order, that differ at most in what an audit does
not show. -/
def AlikeParameters (casefold : String → String) (spec : ToolSpec) (values values' : Fields) : Prop :=
  ∃ arranged, values.Perm arranged ∧ List.Forall₂ (fun entry entry' => entry.1 = entry'.1 ∧
    (entry.1 ∈ auditWholeValueFields spec.clientMethod ∨ Sensitive casefold entry.1 ∨
      Alike (Sensitive casefold) entry.2 entry'.2)) arranged values'

variable {casefold : String → String} {spec : ToolSpec} {values values' : Fields}

/-- What an audit shows of an argument. -/
def shownParameter (casefold : String → String) (spec : ToolSpec) (entry : String × Value) :
    String × Value :=
  (entry.1,if entry.1 ∈ auditWholeValueFields spec.clientMethod ∨ casefold entry.1 ∈ sensitiveKeys
    then .str redacted else redact casefold entry.2)

theorem redactCommandParameters_eq (values : Fields) :
    redactCommandParameters casefold spec values = values.map (shownParameter casefold spec) := by
  unfold redactCommandParameters
  rw [redactMapping_eq_map,List.map_map]
  refine List.map_congr_left ?_
  intro entry _
  unfold shownParameter
  by_cases hwhole : entry.1 ∈ auditWholeValueFields spec.clientMethod
  · simp [hwhole]
  · simp [hwhole]

theorem shownParameter_same_iff {entry entry' : String × Value} :
    (shownParameter casefold spec entry).1 = (shownParameter casefold spec entry').1 ∧
        Same (shownParameter casefold spec entry).2 (shownParameter casefold spec entry').2 ↔
      entry.1 = entry'.1 ∧ (entry.1 ∈ auditWholeValueFields spec.clientMethod ∨
        Sensitive casefold entry.1 ∨ Alike (Sensitive casefold) entry.2 entry'.2) := by
  unfold shownParameter
  refine and_congr_right ?_
  intro hname
  dsimp only at hname ⊢
  rw [← hname]
  by_cases hhidden : entry.1 ∈ auditWholeValueFields spec.clientMethod ∨
      casefold entry.1 ∈ sensitiveKeys
  · rw [if_pos hhidden,if_pos hhidden,← or_assoc]
    exact iff_of_true (.str redacted) (.inl hhidden)
  · rw [if_neg hhidden,if_neg hhidden,redact_same_iff,← or_assoc]
    exact (or_iff_right hhidden).symm

/-- Entries none of which is hidden are compared one by one. -/
theorem alikeEntries_iff {fields fields' : List (String × Value)} :
    AlikeEntries (fun _ => False) fields fields' ↔
      List.Forall₂ (fun entry entry' => entry.1 = entry'.1 ∧ Same entry.2 entry'.2)
        fields fields' := by
  constructor
  · intro h
    induction fields generalizing fields' with
    | nil =>
      cases h
      exact .nil
    | cons entry rest ih =>
      cases h with
      | hidden hfalse => exact hfalse.elim
      | shown key head tail => exact .cons ⟨rfl,head⟩ (ih tail)
  · intro h
    induction h with
    | nil => exact .nil
    | @cons entry entry' rest rest' head tail ih =>
      obtain ⟨key,v⟩ := entry
      obtain ⟨key',v'⟩ := entry'
      obtain ⟨rfl,hvalue⟩ := head
      exact .shown key hvalue ih

theorem redactCommandParameters_same_iff :
    Same (.obj (redactCommandParameters casefold spec values))
        (.obj (redactCommandParameters casefold spec values')) ↔
      AlikeParameters casefold spec values values' := by
  rw [redactCommandParameters_eq,redactCommandParameters_eq]
  constructor
  · intro h
    cases h with
    | obj perm entries =>
      obtain ⟨arranged,hperm,rfl⟩ := exists_arranged perm
      rw [alikeEntries_iff,List.forall₂_map_left_iff,List.forall₂_map_right_iff] at entries
      exact ⟨arranged,hperm,entries.imp (fun _ _ h => shownParameter_same_iff.mp h)⟩
  · rintro ⟨arranged,hperm,hentries⟩
    refine .obj (hperm.map _) ?_
    rw [alikeEntries_iff,List.forall₂_map_left_iff,List.forall₂_map_right_iff]
    exact hentries.imp (fun _ _ h => shownParameter_same_iff.mpr h)

/-- No entry of the parameters under a sensitive key, at any depth, shows its value. -/
theorem redactCommandParameters_clean {key : String} {x : Value}
    (h : HasEntry key x (.obj (redactCommandParameters casefold spec values)))
    (hkey : casefold key ∈ sensitiveKeys) : x = .str redacted := by
  rw [redactCommandParameters_eq] at h
  cases h with
  | here hmem =>
    obtain ⟨entry,_,heq⟩ := List.mem_map.mp hmem
    obtain ⟨rfl,rfl⟩ := Prod.mk.inj heq
    rw [if_pos (.inr hkey)]
  | @field name v _ hmem hv =>
    obtain ⟨entry,_,heq⟩ := List.mem_map.mp hmem
    obtain ⟨rfl,rfl⟩ := Prod.mk.inj heq
    split at hv
    · cases hv
    · exact hasEntry_redact hv hkey _ rfl

end Parameters

section Shows

/-- What an audit that a tool call begins may show: its own tool with the redacted arguments,
or the automatic wake of a command, which names the command and nothing else. -/
def AuditShows (casefold : String → String) (spec : ToolSpec) (values : Fields)
    (record : AuditRecord) : Prop :=
  record.toolName = spec.name ∧
      record.redactedParameters = redactCommandParameters casefold spec values ∨
    spec.isCommand = true ∧ record.toolName = wakeUpSpec.name ∧
      record.redactedParameters = [("automatic_for",.str spec.name)]

def Call.Shows (casefold : String → String) (spec : ToolSpec) (values : Fields) : Call → Prop
  | .beginCommandAudit record => AuditShows casefold spec values record
  | _ => True

variable {casefold : String → String} {spec : ToolSpec} {values : Fields} {α : Type}
  {userId : String} {maxReadRetries : Nat} {vehicle : Gateway.VehicleRecord}

theorem onboarding_shows (p : Gateway.Onboarding α) :
    Only (Call.Shows casefold spec values) (onboarding p) := by
  unfold onboarding
  induction p with
  | ret a => trivial
  | raise e => trivial
  | call op k ih =>
    rw [Prog.lift]
    refine ⟨trivial, ?_⟩
    intro r
    cases r with
    | ok value => exact ih (.ok value)
    | error e => exact ih (.error e.lower)

theorem execute_shows {operation : String → String → Commanding α}
    (h : ∀ accessToken baseUrl,
      Only (Call.Shows casefold spec values) (operation accessToken baseUrl)) :
    Only (Call.Shows casefold spec values) (execute userId operation) := by
  unfold execute
  refine Only.bind (onboarding_shows _) ?_
  intro context
  refine Only.tryCatch (h _ _) ?_
  intro e
  split
  · refine Only.bind (onboarding_shows _) ?_
    intro refreshed
    exact h _ _
  · trivial

theorem requestOnce_shows (request : Except Exc HttpRequest)
    (reply : HttpResponse → Except Exc α) :
    Only (Call.Shows casefold spec values) (requestOnce maxReadRetries request reply) := by
  unfold requestOnce
  refine Only.bind (only_ofExcept _) ?_
  intro sent
  rw [requestFrom_once]
  exact Only.bind ((only_perform _).mpr trivial) (fun _ => only_ofExcept _)

theorem liveVehicle_shows (vin : String) :
    Only (Call.Shows casefold spec values) (liveVehicle maxReadRetries userId vin) :=
  execute_shows (fun _ _ => requestOnce_shows _ _)

theorem wake_shows (vin : String) :
    Only (Call.Shows casefold spec values) (execute userId (wakeUp maxReadRetries vin)) :=
  execute_shows (fun _ _ => requestOnce_shows _ _)

theorem beginAudit_shows {record : AuditRecord} (h : AuditShows casefold spec values record)
    (message : String) : Only (Call.Shows casefold spec values) (beginAudit record message) := by
  unfold beginAudit
  refine Only.tryCatch ((only_perform _).mpr h) ?_
  intro e
  trivial

theorem finalizeAudit_shows (auditId result : String) (errorCategory : Option String) :
    Only (Call.Shows casefold spec values) (finalizeAudit auditId result errorCategory) := by
  unfold finalizeAudit
  refine Only.tryCatch ((only_perform _).mpr trivial) ?_
  intro e
  trivial

theorem auditingFailure_shows {p : Commanding α} (hp : Only (Call.Shows casefold spec values) p)
    (auditId : String) : Only (Call.Shows casefold spec values) (auditingFailure auditId p) := by
  unfold auditingFailure
  refine Only.tryCatch hp ?_
  intro e
  exact Only.bind (finalizeAudit_shows _ _ _) (fun _ => trivial)

theorem pollOnline_shows (vin correlationId : String) (left : Nat) :
    Only (Call.Shows casefold spec values)
      (pollOnline maxReadRetries userId vin correlationId left) := by
  induction left with
  | zero => trivial
  | succ left ih =>
    unfold pollOnline
    refine Only.bind ((only_perform _).mpr trivial) ?_
    intro _
    refine Only.bind (liveVehicle_shows vin) ?_
    intro live
    split
    · trivial
    · exact ih

theorem wakeAndPoll_shows (hcommand : spec.isCommand = true) :
    Only (Call.Shows casefold spec values) (wakeAndPoll maxReadRetries userId spec vehicle) := by
  unfold wakeAndPoll
  refine Only.bind ((only_perform _).mpr trivial) ?_
  intro auditToken
  refine Only.bind ((only_perform _).mpr trivial) ?_
  intro correlationToken
  refine Only.bind ((only_perform _).mpr trivial) ?_
  intro timestamp
  refine Only.bind (beginAudit_shows (.inr ⟨hcommand, rfl, rfl⟩) _) ?_
  intro _
  refine Only.bind (auditingFailure_shows (wake_shows _) _) ?_
  intro wakeResult
  refine Only.bind (finalizeAudit_shows _ _ _) ?_
  intro _
  split
  · trivial
  · exact pollOnline_shows _ _ _

theorem ensureVehicleOnline_shows (hcommand : spec.isCommand = true) :
    Only (Call.Shows casefold spec values)
      (ensureVehicleOnline maxReadRetries userId spec vehicle) := by
  unfold ensureVehicleOnline
  refine Only.bind (liveVehicle_shows _) ?_
  intro live
  split
  · trivial
  · exact wakeAndPoll_shows hcommand

variable {Request : Type} (requests : CommandRequests Request)

theorem executeWrite_shows (sent : Fields) :
    Only (Call.Shows casefold spec values)
      (executeWrite requests maxReadRetries userId spec vehicle sent) := by
  unfold executeWrite
  refine Only.bind (only_ofExcept _) ?_
  intro request
  split
  · exact Only.bind (execute_shows (fun _ _ => requestOnce_shows _ _)) (fun _ => trivial)
  · exact Only.bind (wake_shows _) (fun _ => trivial)

theorem wakeAndExecute_shows (sent : Fields) :
    Only (Call.Shows casefold spec values)
      (wakeAndExecute requests maxReadRetries userId spec vehicle sent) := by
  unfold wakeAndExecute
  refine Only.bind (only_ofExcept _) ?_
  intro _
  have hwrite : ∀ wakeCorrelationId : Option String, Only (Call.Shows casefold spec values) (do
      let result ← executeWrite requests maxReadRetries userId spec vehicle sent
      return (wakeCorrelationId, result)) := by
    intro wakeCorrelationId
    exact Only.bind (executeWrite_shows requests sent) (fun _ => trivial)
  split
  · rename_i hcommand
    exact Only.bind (ensureVehicleOnline_shows hcommand) hwrite
  · exact hwrite none

theorem executeAudited_shows (correlationId : String) :
    Only (Call.Shows casefold spec values)
      (executeAudited casefold requests maxReadRetries userId spec vehicle values correlationId) := by
  unfold executeAudited
  refine Only.bind ((only_perform _).mpr trivial) ?_
  intro auditToken
  refine Only.bind ((only_perform _).mpr trivial) ?_
  intro timestamp
  refine Only.bind (beginAudit_shows (.inl ⟨rfl, rfl⟩) _) ?_
  intro _
  refine Only.bind (auditingFailure_shows (wakeAndExecute_shows requests values) _) ?_
  intro outcome
  exact Only.bind (finalizeAudit_shows _ _ _) (fun _ => trivial)

theorem resolveVehicle_shows (selected : Option Value) :
    Only (Call.Shows casefold spec values) (resolveVehicle userId selected) := by
  unfold resolveVehicle
  split
  · trivial
  · trivial
  · split
    · trivial
    · refine ⟨trivial, ?_⟩
      intro r
      dsimp only
      split
      · trivial
      · trivial
      · split
        · trivial
        · trivial
      · trivial
  · trivial

theorem eligibleVehicle_shows :
    Only (Call.Shows casefold spec values) (eligibleVehicle userId) := by
  unfold eligibleVehicle
  refine Only.bind ((only_perform _).mpr trivial) ?_
  intro stored
  split
  · trivial
  · trivial
  · trivial

/-- The arguments that reach the audit. -/
def auditedValues (arguments : Fields) : Fields :=
  (arguments.without "explicit_current_turn_intent").without "vehicle_id"

theorem callWriteTool_shows (arguments : Fields) (correlationId : String) :
    Only (Call.Shows casefold spec (auditedValues arguments))
      (callWriteTool casefold requests maxReadRetries userId spec arguments correlationId) := by
  unfold callWriteTool
  refine Only.bind (only_ofExcept _) ?_
  intro _
  refine Only.bind ((only_perform _).mpr trivial) ?_
  intro connection
  refine Only.bind (only_ofExcept _) ?_
  intro _
  refine Only.bind (resolveVehicle_shows _) ?_
  intro selected
  cases selected with
  | some vehicle => exact executeAudited_shows requests correlationId
  | none =>
    refine Only.bind eligibleVehicle_shows ?_
    intro vehicle
    exact executeAudited_shows requests correlationId

end Shows

section Runs
variable {ι ι' Request Request' : Type} [DecidableEq ι] [DecidableEq ι']
  {casefold : String → String} {requests : CommandRequests Request}
  {requests' : CommandRequests Request'} {maxReadRetries maxReadRetries' : Nat}
  {calls : ι → ToolCall} {calls' : ι' → ToolCall}
  {audits₀ audits audits₀' audits' : List String} {log : CommandLog ι} {log' : CommandLog ι'}
  {ps : ι → Commanding Document} {ps' : ι' → Commanding Document}

/-- A tool call's arguments as its audit receives them. -/
def ToolCall.auditedValues (toolCall : ToolCall) : Fields :=
  match toolCall.arguments with
  | .obj arguments => Commands.auditedValues arguments
  | _ => []

theorem program_shows (toolCall : ToolCall) :
    Only (Call.Shows casefold toolCall.spec toolCall.auditedValues)
      (toolCall.program casefold requests maxReadRetries) := by
  unfold ToolCall.program call
  refine Only.bind ((only_perform _).mpr trivial) ?_
  intro token
  unfold ToolCall.auditedValues
  rw [toolCall.named]
  cases toolCall.arguments with
  | obj arguments => exact callWriteTool_shows requests arguments _
  | _ => trivial

/-- The call began the audit, committed or not. -/
def Began (log : CommandLog ι) (i : ι) (record : AuditRecord) : Prop :=
  ∃ r, (i,⟨.beginCommandAudit record,r⟩) ∈ log

theorem began_shows (run : Reached casefold requests maxReadRetries calls audits₀ log ps audits)
    {i : ι} {record : AuditRecord} (h : Began log i record) :
    AuditShows casefold (calls i).spec (calls i).auditedValues record := by
  obtain ⟨r, hm⟩ := h
  obtain ⟨pre, post, rfl⟩ := List.append_of_mem hm
  obtain ⟨qs, t, c, k, t', before, turn, _, _⟩ := run.at_event
  have ho : Obeys (fun _ op => Call.Shows casefold (calls i).spec (calls i).auditedValues op)
      (fun h _ => [] <+: h) ((calls i).program casefold requests maxReadRetries) [] :=
    (program_shows (calls i)).obeys (fun _ _ hop => hop) []
  exact before.allowed ho turn

/-- The audit of the call's own tool. -/
def BeganOwn (calls : ι → ToolCall) (log : CommandLog ι) (i : ι) (record : AuditRecord) : Prop :=
  Began log i record ∧ record.toolName = (calls i).spec.name

theorem own_parameters (run : Reached casefold requests maxReadRetries calls audits₀ log ps audits)
    {i : ι} {record : AuditRecord} (h : BeganOwn calls log i record) :
    record.redactedParameters =
      redactCommandParameters casefold (calls i).spec (calls i).auditedValues := by
  obtain ⟨hbegan, htool⟩ := h
  rcases began_shows run hbegan with ⟨_, hparameters⟩ | ⟨hcommand, hwake, _⟩
  · exact hparameters
  · have hspec : (calls i).spec ∈ writeToolSpecs := List.mem_of_find?_eq_some (calls i).named
    exact absurd (htool.symm.trans hwake) ((command_named hspec).1 hcommand)

/-- What the audits of two runs show of the arguments of their calls. -/
structure AuditsRedacted (casefold : String → String) (calls : ι → ToolCall) (log : CommandLog ι)
    (calls' : ι' → ToolCall) (log' : CommandLog ι') : Prop where
  /-- No object in an own audit, at any depth, shows a value under a sensitive key. -/
  clean : ∀ i record key x, BeganOwn calls log i record →
    HasEntry key x (.obj record.redactedParameters) → casefold key ∈ sensitiveKeys →
      x = .str redacted
  /-- The values that are sensitive as a whole are not shown. -/
  whole : ∀ i record name x, BeganOwn calls log i record → (name,x) ∈ record.redactedParameters →
    name ∈ auditWholeValueFields (calls i).spec.clientMethod → x = .str redacted
  /-- Every other audit is of a command's wake, and shows the command's tool alone. -/
  wakes : ∀ i record, Began log i record → record.toolName ≠ (calls i).spec.name →
    (calls i).spec.isCommand = true ∧ record.toolName = wakeUpSpec.name ∧
      record.redactedParameters = [("automatic_for",.str (calls i).spec.name)]
  /-- Two own audits of one tool, in any two runs, show the same up to the order of the
  entries exactly when their arguments differ at most in that and in what is hidden. -/
  told_apart : ∀ i j record record', BeganOwn calls log i record → BeganOwn calls' log' j record' →
    (calls i).spec = (calls' j).spec →
      (Same (.obj record.redactedParameters) (.obj record'.redactedParameters) ↔
        AlikeParameters casefold (calls i).spec (calls i).auditedValues (calls' j).auditedValues)

theorem audits_redacted (run : Reached casefold requests maxReadRetries calls audits₀ log ps audits)
    (run' : Reached casefold requests' maxReadRetries' calls' audits₀' log' ps' audits') :
    AuditsRedacted casefold calls log calls' log' := by
  constructor
  case clean =>
    intro i record key x hown hentry hkey
    rw [own_parameters run hown] at hentry
    exact redactCommandParameters_clean hentry hkey
  case whole =>
    intro i record name x hown hentry hname
    rw [own_parameters run hown, redactCommandParameters_eq] at hentry
    obtain ⟨entry, _, heq⟩ := List.mem_map.mp hentry
    obtain ⟨rfl, rfl⟩ := Prod.mk.inj heq
    rw [if_pos (.inl hname)]
  case wakes =>
    intro i record hbegan hother
    rcases began_shows run hbegan with ⟨htool, _⟩ | hwake
    · exact absurd htool hother
    · exact hwake
  case told_apart =>
    intro i j record record' hown hown' hspec
    rw [own_parameters run hown, own_parameters run' hown', ← hspec]
    exact redactCommandParameters_same_iff

end Runs

section Witness

def pinRequests : CommandRequests Unit :=
  { demoRequests with
    fields := fun command =>
      if command = "set_pin_to_drive" then some ["on","password"] else none }

theorem named_setPin :
    writeToolNamed "tesla_set_pin_to_drive" = some (commandSpec "set_pin_to_drive") := by
  have hname : (commandSpec "set_pin_to_drive").name = "tesla_set_pin_to_drive" := by decide
  rw [← hname]
  exact writeToolNamed_command (by decide +kernel) (by decide +kernel)

/-- A call that sets the pin, with its arguments in the client's order. -/
def pinCall (arguments : Fields) : ToolCall :=
  { userId := "usr_1", name := "tesla_set_pin_to_drive"
    arguments := .obj (("explicit_current_turn_intent",.bool true) :: arguments)
    spec := commandSpec "set_pin_to_drive", named := named_setPin }

def firstPin : Fields := [("on",.bool true),("password",.str "1234")]

def secondPin : Fields := [("password",.str "9876"),("on",.bool true)]

/-- The audits that show the switch and a redacted pin. -/
def pinAudits (log : CommandLog Unit) : Nat :=
  log.countP (fun entry =>
    match entry.2 with
    | ⟨.beginCommandAudit record,.ok _⟩ =>
      match record.redactedParameters.get "password" with
      | some (.str shown) =>
        decide (shown = redacted) && isTrue (record.redactedParameters.get "on")
      | _ => false
    | _ => false)

set_option maxRecDepth 100000 in
theorem audits_redacted_pins :
    ∃ log ps audits log' ps' audits',
      Reached id pinRequests 2 (fun _ : Unit => pinCall firstPin) [] log ps audits ∧
      Reached id pinRequests 2 (fun _ : Unit => pinCall secondPin) [] log' ps' audits' ∧
      pinAudits log = 1 ∧ pinAudits log' = 1 ∧
      AuditsRedacted id (fun _ : Unit => pinCall firstPin) log
        (fun _ : Unit => pinCall secondPin) log' := by
  obtain ⟨log, ps, audits, run, hp⟩ := run_of_schedule commandMachine
    (fun _ : Unit => (pinCall firstPin).program id pinRequests 2) [] demoSchedule
    (fun out => decide (pinAudits out.1 = 1)) (by decide +kernel)
  obtain ⟨log', ps', audits', run', hp'⟩ := run_of_schedule commandMachine
    (fun _ : Unit => (pinCall secondPin).program id pinRequests 2) [] demoSchedule
    (fun out => decide (pinAudits out.1 = 1)) (by decide +kernel)
  exact ⟨log, ps, audits, log', ps', audits', run, run', of_decide_eq_true hp, of_decide_eq_true hp',
    audits_redacted run run'⟩

end Witness

end Woodhouse.Commands
