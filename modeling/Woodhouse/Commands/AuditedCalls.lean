import Woodhouse.Commands.Wakes

namespace Woodhouse.Commands
open Effects

section Commands
variable {userId : String} {spec : ToolSpec} {vehicle : Gateway.VehicleRecord}
  {base l h : List CommandEvent} {own : AuditRecord} {maxReadRetries : Nat} {α : Type}

/-- A wake that was attempted went through. -/
def Awake (h : List CommandEvent) : Prop := WakeAttempted h → WakeSucceeded h

/-- Whether a wake was attempted shows in the audit calls after the own begin. -/
theorem wakeAttempted_of_stage (ho : OwnAudit userId spec vehicle base own)
    (hcommand : spec.isCommand = true) {base' posts : List CommandEvent}
    (hs : Stage base' (⟨.beginCommandAudit own,.ok ()⟩ :: (l ++ posts)) h)
    (hp : ¬ WakeAttempted posts) (ha : WakeAttempted h) : WakeAttempted l := by
  obtain ⟨record, r, hm, htool⟩ := ha
  rcases List.mem_cons.mp ((hs.mem rfl).mp hm) with he | hm
  · cases he
    exact absurd (ho.tool.symm.trans htool) (ho.named hcommand)
  · rcases wakeAttempted_append.mp ⟨record, r, hm, htool⟩ with hl | hl
    · exact hl
    · exact absurd hl hp

theorem ensureVehicleOnline_obeys (ho : OwnAudit userId spec vehicle base own)
    (hcommand : spec.isCommand = true) (hs : Stage base [⟨.beginCommandAudit own,.ok ()⟩] h) :
    Obeys (fun h op => CallRules h userId spec op)
      (fun h' r => ∃ l, Stage base (⟨.beginCommandAudit own,.ok ()⟩ :: l) h' ∧ Unsettled spec l ∧
        Unsent l ∧ ∀ c, r = .ok c → OnlineAt h' vehicle.vin ∧ Awake h')
      (ensureVehicleOnline maxReadRetries userId spec vehicle) h := by
  unfold ensureVehicleOnline
  refine (liveVehicle_obeys hs).bind ?_ ?_
  · rintro h' live ⟨hs', honline⟩
    split
    · rename_i hstate
      refine ⟨[], hs', unsettled_nil, unsent_nil, fun c _ => ⟨honline live rfl hstate, ?_⟩⟩
      intro hattempted
      have hnone : ¬ WakeAttempted [] := by
        rintro ⟨record, r, hm, _⟩
        cases hm
      have hs₂ : Stage base (⟨.beginCommandAudit own,.ok ()⟩ :: ([] ++ [])) h' := hs'
      exact absurd (wakeAttempted_of_stage ho hcommand hs₂ hnone hattempted) hnone
    · refine (wakeAndPoll_obeys ho hcommand hs').mono ?_
      rintro h₂ r ⟨l, hs₂, hunsettled, hunsent, hr⟩
      exact ⟨l, hs₂, hunsettled, hunsent, fun c hc => ⟨(hr c hc).1, fun _ => (hr c hc).2⟩⟩
  · rintro h' e ⟨hs', _⟩
    exact ⟨[], hs', unsettled_nil, unsent_nil, fun c hc => by cases hc⟩

/-- The command POSTs so far, all of them refused. -/
def AllRefused (own : AuditRecord) (l base : List CommandEvent) (command : String)
    (h : List CommandEvent) : Prop :=
  ∃ posts, Stage base (⟨.beginCommandAudit own,.ok ()⟩ :: (l ++ posts)) h ∧
    PostsTo (.command command) posts ∧
    ∀ request r, (⟨.httpRequest request,r⟩ : CommandEvent) ∈ posts → Refused r

theorem AllRefused.rule {command vin : String} (ho : OwnAudit userId spec vehicle base own)
    (hcommand : spec.isCommand = true) (hmethod : command = spec.clientMethod)
    (hs : Stage base (⟨.beginCommandAudit own,.ok ()⟩ :: l) h) (hunsettled : Unsettled spec l)
    (hunsent : Unsent l) (honline : OnlineAt h vehicle.vin) (hawake : Awake h)
    {h' : List CommandEvent} (hr : AllRefused own l h command h') (hvin : pathPart vehicle.vin = .ok vin) :
    RequestRule h' userId spec vin (.command command) := by
  obtain ⟨posts, hs', hp, hrefused⟩ := hr
  have hbase : base <+: h' := hs.extends_base.trans hs'.extends_base
  have hbegun : Begun h' own := hs'.of_mem (by simp)
  refine ⟨hmethod, hcommand, ⟨own, ?_, ?_⟩, ?_, ?_, ?_⟩
  · exact ho.audited hbase hbegun ho.tool ho.owner ho.vehicle vin hvin
  · exact own_open hs' ho.tool ho.named (hunsettled.append hp)
  · exact (honline vin hvin).mono hs'.extends_base
  · intro hattempted
    obtain ⟨record, r, hm, htool⟩ :=
      wakeAttempted_of_stage ho hcommand hs' hp.unattempted hattempted
    have hbefore : WakeAttempted h := ⟨record, r, hs.of_mem (List.mem_cons_of_mem _ hm), htool⟩
    exact (hawake hbefore).mono hs'.extends_base
  · rintro command' request r ⟨hm, he⟩
    have hq : (Call.httpRequest request).quiet = false := by
      simp [Call.quiet, he]
    rcases List.mem_cons.mp ((hs'.mem hq).mp hm) with hc | hm
    · cases hc
    · rcases List.mem_append.mp hm with hm | hm
      · exact absurd ⟨hm, he⟩ (hunsent command' request r)
      · exact hrefused request r hm

theorem command_exchange (ho : OwnAudit userId spec vehicle base own) (hcommand : spec.isCommand = true)
    (hs : Stage base (⟨.beginCommandAudit own,.ok ()⟩ :: l) h) (hunsettled : Unsettled spec l)
    (hunsent : Unsent l) (honline : OnlineAt h vehicle.vin) (hawake : Awake h) :
    Exchange (fun h op => CallRules h userId spec op) (.command spec.clientMethod) vehicle.vin
      (AllRefused own l h spec.clientMethod) (AllRefused own l h spec.clientMethod)
      (fun h' => ∃ posts, Stage h (⟨.beginCommandAudit own,.ok ()⟩ :: (l ++ posts)) h' ∧
        PostsTo (.command spec.clientMethod) posts) := by
  have hpost : ∀ {posts h' : List CommandEvent} {request : HttpRequest}
      (r : Except Exc HttpResponse), request.endpoint = .command spec.clientMethod →
      Stage h (⟨.beginCommandAudit own,.ok ()⟩ :: (l ++ posts)) h' →
      Stage h (⟨.beginCommandAudit own,.ok ()⟩ :: (l ++ (posts ++ [⟨.httpRequest request,r⟩])))
        (h' ++ [⟨.httpRequest request,r⟩]) := by
    intro posts h' request r he hs'
    have hq : (Call.httpRequest request).quiet = false := by
      simp [Call.quiet, he]
    have hloud := @Stage.loudly _ _ _ (.httpRequest request) r hs' hq
    simpa using hloud
  have hquiet : ∀ h' op r, op.quiet = true → AllRefused own l h spec.clientMethod h' →
      AllRefused own l h spec.clientMethod (h' ++ [⟨op,r⟩]) := by
    rintro h' op r hq ⟨posts, hs', hp, hrefused⟩
    exact ⟨posts, hs'.quietly hq, hp, hrefused⟩
  have hallowed : ∀ h' request, AllRefused own l h spec.clientMethod h' →
      Addressed (.command spec.clientMethod) vehicle.vin request →
      CallRules h' userId spec (.httpRequest request) := by
    intro h' request hr ha
    simp only [CallRules, ha.1]
    exact hr.rule ho hcommand rfl hs hunsettled hunsent honline hawake ha.2
  have hsent : ∀ h' request r, AllRefused own l h spec.clientMethod h' →
      Addressed (.command spec.clientMethod) vehicle.vin request →
      ∃ posts, Stage h (⟨.beginCommandAudit own,.ok ()⟩ :: (l ++ posts))
          (h' ++ [⟨.httpRequest request,r⟩]) ∧ PostsTo (.command spec.clientMethod) posts := by
    rintro h' request r ⟨posts, hs', hp, _⟩ ha
    exact ⟨_, hpost r ha.1 hs', hp.snoc ha.1 r⟩
  have hunsentYet : ∀ h', AllRefused own l h spec.clientMethod h' →
      ∃ posts, Stage h (⟨.beginCommandAudit own,.ok ()⟩ :: (l ++ posts)) h' ∧
        PostsTo (.command spec.clientMethod) posts := by
    rintro h' ⟨posts, hs', hp, _⟩
    exact ⟨posts, hs', hp⟩
  constructor
  case quietly => exact hquiet
  case quietlyRefused => exact hquiet
  case first => exact hallowed
  case second => exact hallowed
  case refused =>
    rintro h' request r ⟨posts, hs', hp, hrefused⟩ ha hr
    refine ⟨_, hpost r ha.1 hs', hp.snoc ha.1 r, ?_⟩
    intro request' r' hm
    rcases List.mem_append.mp hm with hm | hm
    · exact hrefused request' r' hm
    · cases List.mem_singleton.mp hm
      exact hr
  case sent => exact hsent
  case resent => exact hsent
  case unsent => exact hunsentYet
  case unsentAgain => exact hunsentYet

/-- After the audited part: the own audit is still open, and a command that returned was sent. -/
def Executed (spec : ToolSpec) (base : List CommandEvent) (own : AuditRecord) (h : List CommandEvent)
    (r : Except Exc α) : Prop :=
  ∃ l, Stage base (⟨.beginCommandAudit own,.ok ()⟩ :: l) h ∧ Unsettled spec l ∧
    ∀ a, r = .ok a → spec.isCommand = true → ∃ request r', Posted h spec.clientMethod request r'

theorem Executed.error {e e' : Exc} {α' : Type}
    (hx : Executed spec base own h (.error e : Except Exc α)) :
    Executed spec base own h (.error e' : Except Exc α') := by
  obtain ⟨l, hs, hl, _⟩ := hx
  exact ⟨l, hs, hl, fun a ha => by cases ha⟩

variable {Request : Type} (requests : CommandRequests Request) {values : Fields}

theorem executeCommand_obeys (ho : OwnAudit userId spec vehicle base own)
    (hcommand : spec.isCommand = true) (hs : Stage base (⟨.beginCommandAudit own,.ok ()⟩ :: l) h)
    (hunsettled : Unsettled spec l) (hunsent : Unsent l) (honline : OnlineAt h vehicle.vin)
    (hawake : Awake h) :
    Obeys (fun h op => CallRules h userId spec op) (Executed spec base own)
      (executeWrite requests maxReadRetries userId spec vehicle values) h := by
  unfold executeWrite
  cases requestInstance requests spec values with
  | error e => exact ⟨l, hs, hunsettled, fun a ha => by cases ha⟩
  | ok request =>
    simp only [Prog.ofExcept_ok, Prog.ret_bind, hcommand, ↓reduceIte]
    have hstart : AllRefused own l h spec.clientMethod h :=
      ⟨[], by simpa using hs.rebase, postsTo_nil, fun request r hm => by cases hm⟩
    apply (execute_obeys (fun _ op hq => callRules_quiet op hq) commandReply_rejects
      (requestOnce_sends maxReadRetries .vehicleCommandProxy (.command spec.clientMethod) vehicle.vin
        (some ((request.map requests.toPayload).getD [])) commandReply)
      (command_exchange ho hcommand hs hunsettled hunsent honline hawake) hstart).bind
    · rintro h' result ⟨⟨posts, hs', hp⟩, hr⟩
      refine ⟨l ++ posts, hs'.debase hs.extends_base, hunsettled.append hp, ?_⟩
      intro _ _ _
      obtain ⟨sent, response, hm, ha, _⟩ := hr result rfl
      exact ⟨sent, .ok response, hm, ha.1⟩
    · rintro h' e ⟨⟨posts, hs', hp⟩, _⟩
      exact ⟨l ++ posts, hs'.debase hs.extends_base, hunsettled.append hp, fun a ha => by cases ha⟩

theorem executeWake_obeys (ho : OwnAudit userId spec vehicle base own)
    (hcommand : spec.isCommand = false) (hs : Stage base [⟨.beginCommandAudit own,.ok ()⟩] h) :
    Obeys (fun h op => CallRules h userId spec op) (Executed spec base own)
      (executeWrite requests maxReadRetries userId spec vehicle values) h := by
  have hnotCommand : ¬ spec.isCommand = true := by
    rw [hcommand]
    exact Bool.false_ne_true
  unfold executeWrite
  cases requestInstance requests spec values with
  | error e => exact ⟨[], hs, unsettled_nil, fun a ha => by cases ha⟩
  | ok request =>
    simp only [Prog.ofExcept_ok, Prog.ret_bind, hnotCommand]
    have hsent : ∀ posts, PostsTo .wakeUp posts → Unsettled spec posts := by
      intro posts hp
      have hnil : Unsettled spec [] := unsettled_nil
      simpa using hnil.append hp
    apply (wake_obeys own ?_ ?_ ?_ hs).bind
    · rintro h' live ⟨⟨posts, hs', hp⟩, _⟩
      exact ⟨posts, hs', hsent posts hp, fun _ _ hc => absurd hc hnotCommand⟩
    · rintro h' e ⟨⟨posts, hs', hp⟩, _⟩
      exact ⟨posts, hs', hsent posts hp, fun a ha => by cases ha⟩
    · intro h' hp hb
      exact ho.audited hp hb (ho.tool.trans (ho.wakes hcommand)) ho.owner ho.vehicle
    · rintro auditId ⟨result, category, r, hm⟩
      cases List.mem_singleton.mp hm
    · exact List.mem_singleton.mpr rfl

theorem wakeAndExecute_obeys (ho : OwnAudit userId spec vehicle base own)
    (hs : Stage base [⟨.beginCommandAudit own,.ok ()⟩] h) :
    Obeys (fun h op => CallRules h userId spec op) (Executed spec base own)
      (wakeAndExecute requests maxReadRetries userId spec vehicle values) h := by
  have hreturn : ∀ {h' : List CommandEvent} {result : WriteResult} {c : Option String},
      Executed spec base own h' (.ok result) →
      Executed spec base own h' (.ok (c,result) : Except Exc (Option String × WriteResult)) := by
    rintro h' result c ⟨l, hs', hl, hsent⟩
    exact ⟨l, hs', hl, fun _ _ hcommand => hsent result rfl hcommand⟩
  unfold wakeAndExecute
  cases virtualKeyCheck spec vehicle with
  | error e => exact ⟨[], hs, unsettled_nil, fun a ha => by cases ha⟩
  | ok _ =>
    simp only [Prog.ofExcept_ok, Prog.ret_bind]
    cases hcommand : spec.isCommand with
    | true =>
      simp only [↓reduceIte]
      apply (ensureVehicleOnline_obeys ho hcommand hs).bind
      · rintro h' c ⟨l, hs', hunsettled, hunsent, hc⟩
        obtain ⟨honline, hawake⟩ := hc c rfl
        apply (executeCommand_obeys requests ho hcommand hs' hunsettled hunsent honline hawake).bind
        · intro h₂ result hx
          exact hreturn hx
        · intro h₂ e hx
          exact hx.error
      · rintro h' e ⟨l, hs', hunsettled, _, _⟩
        exact ⟨l, hs', hunsettled, fun a ha => by cases ha⟩
    | false =>
      simp only [Bool.false_eq_true, ↓reduceIte, Prog.pure_eq, Prog.ret_bind]
      apply (executeWake_obeys requests ho hcommand hs).bind
      · intro h' result hx
        exact hreturn hx
      · intro h' e hx
        exact hx.error

/-- The completion of the own audit. -/
theorem Executed.rule (ho : OwnAudit userId spec vehicle base own) {result : String}
    {category : Option String} {r : Except Exc α} (hx : Executed spec base own h r)
    (hresult : (∃ a, r = .ok a) ∨ result = "failure") :
    CallRules h userId spec (.completeCommandAudit own.auditId result category) := by
  obtain ⟨l, hs, hl, hsent⟩ := hx
  refine ⟨own_open hs ho.tool ho.named hl, own, hs.of_mem (by simp), rfl, ?_⟩
  intro _ hcommand hfailure
  rcases hresult with ⟨a, ha⟩ | hf
  · exact hsent a ha hcommand
  · exact absurd hf hfailure

variable (casefold : String → String)

theorem executeAudited_obeys {correlationId : String} (hselected : Selected base userId vehicle)
    (hnamed : spec.isCommand = true → spec.name ≠ wakeUpSpec.name)
    (hwakes : spec.isCommand = false → spec.name = wakeUpSpec.name) (hs : Stage base [] h) :
    Obeys (fun h op => CallRules h userId spec op) (fun _ _ => True)
      (executeAudited casefold requests maxReadRetries userId spec vehicle values correlationId) h := by
  apply quiet_bind rfl hs
  · intro _ _ _
    trivial
  intro h₁ auditToken hs₁
  apply quiet_bind rfl hs₁
  · intro _ _ _
    trivial
  intro h₂ timestamp hs₂
  dsimp only
  generalize hw : (AuditRecord.mk _ timestamp userId vehicle.vehicleId spec.name _ correlationId _) = own
  have hid : own.auditId = "audit_" ++ auditToken := by rw [← hw]
  have ho : OwnAudit userId spec vehicle base own := by
    rw [← hw]
    exact ⟨hselected, rfl, rfl, rfl, hnamed, hwakes⟩
  rw [← hid]
  apply audit_bind
  · refine ⟨.inl ho.tool, ?_⟩
    rintro command request r ⟨hm, he⟩
    have hq : (Call.httpRequest request).quiet = false := by
      simp [Call.quiet, he]
    cases (hs₂.mem hq).mp hm
  · intro _
    trivial
  · intro _
    have hpart : Obeys (fun h op => CallRules h userId spec op) (Executed spec base own)
        (wakeAndExecute requests maxReadRetries userId spec vehicle values)
        (h₂ ++ [⟨.beginCommandAudit own,.ok ()⟩]) := wakeAndExecute_obeys requests ho (hs₂.loudly rfl)
    apply (auditingFailure_obeys hpart (R := fun h' r => ∀ a, r = .ok a → Executed spec base own h' r)
      ?_ ?_ ?_).bind
    · rintro h' ⟨wakeCorrelationId, result⟩ hx
      apply audit_bind ((hx _ rfl).rule ho (.inl ⟨_, rfl⟩))
      · intro _
        trivial
      · intro _
        trivial
    · intro _ _ _
      trivial
    · intro h' a hx _ _
      exact hx
    · intro h' e category hx
      exact hx.rule ho (.inr rfl)
    · intro h' e category r e' _ a ha
      cases ha

theorem resolveVehicle_obeys {selected : Option Value} (hs : Stage [] [] h) :
    Obeys (fun h op => CallRules h userId spec op)
      (fun h' r => Stage [] [] h' ∧ ∀ found, r = .ok (some found) → Selected h' userId found)
      (resolveVehicle userId selected) h := by
  have hraise : ∀ {h' : List CommandEvent} (e : Exc), Stage [] [] h' →
      Stage [] [] h' ∧ ∀ found, Except.error e = (.ok (some found) : Except Exc _) →
        Selected h' userId found := by
    intro h' e hs'
    exact ⟨hs', fun found hf => by cases hf⟩
  have hnothing : Stage [] [] h ∧ ∀ found, Except.ok none = (.ok (some found) : Except Exc _) →
      Selected h userId found := ⟨hs, fun found hf => by cases hf⟩
  unfold resolveVehicle
  split
  · exact hnothing
  · exact hnothing
  · rename_i id
    split
    · exact hraise _ hs
    · refine ⟨callRules_quiet _ rfl, ?_⟩
      intro r
      cases r with
      | ok found =>
        refine ⟨hs.quietly rfl, ?_⟩
        intro found' hf
        cases hf
        exact .inl ⟨id, by simp⟩
      | error e =>
        have hs' : Stage [] [] (h ++ [⟨.onboarding (.getVehicle userId id),.error e⟩]) :=
          hs.quietly rfl
        cases e with
        | mcpTool category message => exact hraise _ hs'
        | gateway e =>
          cases e with
          | crossUserAccess message => exact hraise _ hs'
          | _ =>
            dsimp only
            split
            · exact hraise _ hs'
            · exact hraise _ hs'
  · exact hraise _ hs

theorem eligibleVehicle_obeys (hs : Stage [] [] h) :
    Obeys (fun h op => CallRules h userId spec op)
      (fun h' r => Stage [] [] h' ∧ ∀ found, r = .ok found → Selected h' userId found)
      (eligibleVehicle userId) h := by
  unfold eligibleVehicle perform
  rw [obeys_perform_bind]
  refine ⟨callRules_quiet _ rfl, ?_, ?_⟩
  · intro e
    exact ⟨hs.quietly rfl, fun found hf => by cases hf⟩
  · intro stored
    have hs' : Stage [] [] (h ++ [⟨.listStoredVehicles userId,.ok stored⟩]) := hs.quietly rfl
    split
    · exact ⟨hs', fun found hf => by cases hf⟩
    · rename_i only hfilter
      refine ⟨hs', ?_⟩
      intro found hf
      cases hf
      have hm : only ∈ stored.filter (fun vehicle => vehicle.authorizationStatus = .active) := by
        rw [hfilter]
        exact List.mem_singleton.mpr rfl
      exact .inr ⟨stored, by simp, List.mem_of_mem_filter hm⟩
    · exact ⟨hs', fun found hf => by cases hf⟩

theorem command_named (hspec : spec ∈ writeToolSpecs) :
    (spec.isCommand = true → spec.name ≠ wakeUpSpec.name) ∧
    (spec.isCommand = false → spec.name = wakeUpSpec.name) := by
  rcases List.mem_cons.mp hspec with rfl | hm
  · refine ⟨?_, fun _ => rfl⟩
    intro hcommand
    have hno : wakeUpSpec.isCommand = false := by decide
    rw [hno] at hcommand
    cases hcommand
  · obtain ⟨command, hkept, rfl⟩ := List.mem_map.mp hm
    have hcommands := (List.mem_filter.mp hkept).1
    refine ⟨fun _ => commandSpec_ne_wakeUp command hcommands, ?_⟩
    intro hcommand
    have hyes : (commandSpec command).isCommand = true := decide_eq_true hcommands
    rw [hyes] at hcommand
    cases hcommand

theorem callWriteTool_obeys {arguments : Fields} {correlationId : String}
    (hspec : spec ∈ writeToolSpecs) (hs : Stage [] [] h) :
    Obeys (fun h op => CallRules h userId spec op) (fun _ _ => True)
      (callWriteTool casefold requests maxReadRetries userId spec arguments correlationId) h := by
  obtain ⟨hnamed, hwakes⟩ := command_named hspec
  unfold callWriteTool
  cases checkArguments requests spec arguments with
  | error e => trivial
  | ok _ =>
    simp only [Prog.ofExcept_ok, Prog.ret_bind]
    apply quiet_bind rfl hs
    · intro _ _ _
      trivial
    intro h₁ connection hs₁
    cases requireScopes spec connection with
    | error e => trivial
    | ok _ =>
      simp only [Prog.ofExcept_ok, Prog.ret_bind]
      refine (resolveVehicle_obeys hs₁).bind ?_ (fun _ _ _ => trivial)
      rintro h₂ selected ⟨hs₂, hselected⟩
      cases selected with
      | some vehicle =>
        exact executeAudited_obeys requests casefold (hselected vehicle rfl) hnamed hwakes hs₂.rebase
      | none =>
        refine (eligibleVehicle_obeys hs₂).bind ?_ (fun _ _ _ => trivial)
        rintro h₃ vehicle ⟨hs₃, hfound⟩
        exact executeAudited_obeys requests casefold (hfound vehicle rfl) hnamed hwakes hs₃.rebase

theorem call_obeys {name : String} {arguments : Value} (hname : writeToolNamed name = some spec) :
    Obeys (fun h op => CallRules h userId spec op) (fun _ _ => True)
      (call casefold requests maxReadRetries userId name arguments) [] := by
  have hspec : spec ∈ writeToolSpecs := List.mem_of_find?_eq_some hname
  have hempty : Stage [] [] [] := ⟨List.prefix_refl _, rfl⟩
  apply quiet_bind rfl hempty
  · intro _ _ _
    trivial
  intro h₁ token hs₁
  dsimp only
  split
  · rw [hname]
    exact callWriteTool_obeys requests casefold hspec hs₁
  · trivial

end Commands

end Woodhouse.Commands
