import Woodhouse.Commands.Audits

namespace Woodhouse.Commands
open Effects

section Phases
variable {userId : String} {spec : ToolSpec} {vehicle : Gateway.VehicleRecord}
  {base l h : List CommandEvent} {own : AuditRecord} {maxReadRetries : Nat} {α β : Type}

theorem quiet_bind {op : Call} {f : op.Ret → Commanding α} (hq : op.quiet = true)
    {Q : List CommandEvent → Except Exc α → Prop} (hs : Stage base l h)
    (herr : ∀ h' e, Stage base l h' → Q h' (.error e))
    (hok : ∀ h' a, Stage base l h' → Obeys (fun h op => CallRules h userId spec op) Q (f a) h') :
    Obeys (fun h op => CallRules h userId spec op) Q (perform op >>= f) h := by
  unfold perform
  rw [obeys_perform_bind]
  exact ⟨callRules_quiet op hq, fun e => herr _ e (hs.quietly hq), fun a => hok _ a (hs.quietly hq)⟩

/-- A call whose exception is replaced. -/
theorem audit_bind {op : Call} {f : op.Ret → Commanding α} {e' : Exc}
    {Q : List CommandEvent → Except Exc α → Prop} (ha : CallRules h userId spec op)
    (herr : ∀ e, Q (h ++ [⟨op,.error e⟩]) (.error e'))
    (hok : ∀ a, Obeys (fun h op => CallRules h userId spec op) Q (f a) (h ++ [⟨op,.ok a⟩])) :
    Obeys (fun h op => CallRules h userId spec op) Q
      (tryCatch (perform op) (fun _ => throw e') >>= f) h := by
  refine ⟨ha, ?_⟩
  intro r
  cases r with
  | ok a => exact hok a
  | error e => exact herr e

theorem read_exchange {vin : String} :
    Exchange (fun h op => CallRules h userId spec op) .vehicle vin (Stage base l) (Stage base l)
      (Stage base l) := by
  apply Exchange.steady
  · intro h op r hq hs
    exact hs.quietly hq
  · intro h request _ ha
    exact callRules_quiet _ (decide_eq_true ha.1)
  · intro h request r hs ha
    exact hs.quietly (decide_eq_true ha.1)

theorem liveVehicle_obeys {vin : String} (hs : Stage base l h) :
    Obeys (fun h op => CallRules h userId spec op)
      (fun h' r => Stage base l h' ∧ ∀ live, r = .ok live → live.state = some "online" →
        OnlineAt h' vin)
      (liveVehicle maxReadRetries userId vin) h := by
  unfold liveVehicle
  refine (execute_obeys (fun _ op hq => callRules_quiet op hq) vehicleReply_rejects
    (requestOnce_sends maxReadRetries .teslaFleetApi .vehicle vin none vehicleReply)
    read_exchange hs).mono ?_
  intro h' r hq
  refine ⟨hq.1, ?_⟩
  intro live hr hstate part hpart
  exact online_of_reply (hq.2 live hr) hpart (.inl rfl) hstate

theorem pollOnline_obeys {vin correlationId : String} (left : Nat) (hs : Stage base l h) :
    Obeys (fun h op => CallRules h userId spec op)
      (fun h' r => Stage base l h' ∧ ∀ c, r = .ok c → OnlineAt h' vin)
      (pollOnline maxReadRetries userId vin correlationId left) h := by
  induction left generalizing h with
  | zero => exact ⟨hs, fun c hc => by cases hc⟩
  | succ left ih =>
    apply quiet_bind rfl hs
    · intro h' e hs'
      exact ⟨hs', fun c hc => by cases hc⟩
    · intro h' _ hs'
      refine (liveVehicle_obeys hs').bind ?_ ?_
      · intro h₂ live hq
        split
        · rename_i honline
          exact ⟨hq.1, fun c _ => hq.2 live rfl honline⟩
        · exact ih hq.1
      · intro h₂ e hq
        exact ⟨hq.1, fun c hc => by cases hc⟩

/-- The begun audit of the wake, and the wake POSTs after it. -/
theorem wake_exchange {wake : AuditRecord} {vin : String}
    (hwake : ∀ h, base <+: h → Begun h wake → ∀ part, pathPart vin = .ok part →
      Audited h userId wakeUpSpec.name part wake) (hl : ∀ auditId, ¬ Completed l auditId)
    (hbegun : Begun l wake) :
    Exchange (fun h op => CallRules h userId spec op) .wakeUp vin
      (fun h => ∃ posts, Stage base (l ++ posts) h ∧ PostsTo .wakeUp posts)
      (fun h => ∃ posts, Stage base (l ++ posts) h ∧ PostsTo .wakeUp posts)
      (fun h => ∃ posts, Stage base (l ++ posts) h ∧ PostsTo .wakeUp posts) := by
  apply Exchange.steady
  · rintro h op r hq ⟨posts, hs, hp⟩
    exact ⟨posts, hs.quietly hq, hp⟩
  · rintro h request ⟨posts, hs, hp⟩ ha
    simp only [CallRules, ha.1, RequestRule]
    refine ⟨wake, hwake h hs.extends_base (hs.of_mem (List.mem_append_left _ hbegun)) _ ha.2, ?_⟩
    rintro _ ⟨result, category, r, hm⟩
    rcases completed_append.mp ⟨result, category, r, (hs.mem rfl).mp hm⟩ with hc | hc
    · exact hl _ hc
    · exact hp.uncompleted _ hc
  · rintro h request r ⟨posts, hs, hp⟩ ha
    refine ⟨posts ++ [⟨.httpRequest request,r⟩], ?_, hp.snoc ha.1 r⟩
    rw [← List.append_assoc]
    apply hs.loudly
    simp [Call.quiet, ha.1]

theorem wake_obeys (wake : AuditRecord) {vin : String}
    (hwake : ∀ h, base <+: h → Begun h wake → ∀ part, pathPart vin = .ok part →
      Audited h userId wakeUpSpec.name part wake) (hl : ∀ auditId, ¬ Completed l auditId)
    (hbegun : Begun l wake) (hs : Stage base l h) :
    Obeys (fun h op => CallRules h userId spec op)
      (fun h' r => (∃ posts, Stage base (l ++ posts) h' ∧ PostsTo .wakeUp posts) ∧
        ∀ live, r = .ok live → Replied h' .wakeUp vin vehicleReply live)
      (execute userId (wakeUp maxReadRetries vin)) h := by
  apply execute_obeys (fun _ op hq => callRules_quiet op hq) vehicleReply_rejects
    (requestOnce_sends maxReadRetries .teslaFleetApi .wakeUp vin none vehicleReply)
    (wake_exchange hwake hl hbegun)
  exact ⟨[], by simpa using hs, postsTo_nil⟩

theorem OwnAudit.audited {vehicle : Gateway.VehicleRecord} {record : AuditRecord} {toolName : String}
    (ho : OwnAudit userId spec vehicle base own) (hp : base <+: h) (hb : Begun h record)
    (htool : record.toolName = toolName) (howner : record.ownerUserId = userId)
    (hvehicle : record.vehicleId = vehicle.vehicleId) :
    ∀ part, pathPart vehicle.vin = .ok part → Audited h userId toolName part record := by
  intro part hpart
  exact ⟨hb, htool, howner, vehicle, ho.selected.mono hp, hvehicle, hpart⟩

/-- The handler of `_execute_audited` and of the wake: complete with 'failure', then raise. -/
theorem auditingFailure_obeys {auditId : String} {p : Commanding α}
    {Q R : List CommandEvent → Except Exc α → Prop}
    (hp : Obeys (fun h op => CallRules h userId spec op) Q p h)
    (hok : ∀ h' a, Q h' (.ok a) → R h' (.ok a))
    (hrule : ∀ h' e category, Q h' (.error e) →
      CallRules h' userId spec (.completeCommandAudit auditId "failure" category))
    (hfail : ∀ h' e category r e', Q h' (.error e) →
      R (h' ++ [⟨.completeCommandAudit auditId "failure" category,r⟩]) (.error e')) :
    Obeys (fun h op => CallRules h userId spec op) R (auditingFailure auditId p) h := by
  apply hp.tryCatch hok
  intro h' e hq
  apply audit_bind (hrule h' e _ hq)
  · intro e'
    exact hfail h' e _ _ _ hq
  · intro _
    exact hfail h' e _ _ _ hq

section Waking
variable {wake : AuditRecord} {posts rest : List CommandEvent}

/-- What follows the begin of the wake's audit: POSTs of the wake, and its completion. -/
structure WakeLog (wake : AuditRecord) (posts rest : List CommandEvent) : Prop where
  tool : wake.toolName = wakeUpSpec.name
  posts : PostsTo .wakeUp posts
  completes : ∀ e ∈ rest, ∃ result category, e.op = .completeCommandAudit wake.auditId result category

theorem WakeLog.unsettled (hw : WakeLog wake posts rest) (hcommand : spec.isCommand = true) :
    Unsettled spec (⟨.beginCommandAudit wake,.ok ()⟩ :: (posts ++ rest)) := by
  constructor
  rintro auditId ⟨result, category, r, hm⟩
  refine ⟨hcommand, wake, by simp [Begun], ?_, hw.tool⟩
  rcases List.mem_cons.mp hm with he | hm
  · cases he
  · rcases List.mem_append.mp hm with hm | hm
    · exact absurd ⟨result, category, r, hm⟩ (hw.posts.uncompleted auditId)
    · obtain ⟨result', category', he⟩ := hw.completes _ hm
      cases he
      rfl

theorem WakeLog.unsent (hw : WakeLog wake posts rest) :
    Unsent (⟨.beginCommandAudit wake,.ok ()⟩ :: (posts ++ rest)) := by
  rintro command request r ⟨hm, he⟩
  rcases List.mem_cons.mp hm with hc | hm
  · cases hc
  · rcases List.mem_append.mp hm with hm | hm
    · exact hw.posts.unsent command request r ⟨hm, he⟩
    · obtain ⟨result, category, hc⟩ := hw.completes _ hm
      cases hc

/-- The completion of the wake's audit. -/
theorem wake_completion (hname : wake.toolName ≠ spec.name) (hp : PostsTo .wakeUp posts)
    (hs : Stage base (⟨.beginCommandAudit own,.ok ()⟩ :: ⟨.beginCommandAudit wake,.ok ()⟩ :: posts) h)
    (result : String) (category : Option String) :
    CallRules h userId spec (.completeCommandAudit wake.auditId result category) := by
  refine ⟨?_, wake, hs.of_mem (by simp), rfl, fun ht => absurd ht hname⟩
  rintro _ ⟨result', category', r, hm⟩
  have hl := (hs.mem rfl).mp hm
  simp only [List.mem_cons] at hl
  rcases hl with he | he | hm'
  · cases he
  · cases he
  · exact hp.uncompleted _ ⟨result', category', r, hm'⟩

theorem wake_completed (htool : wake.toolName = wakeUpSpec.name) (hp : PostsTo .wakeUp posts)
    (hs : Stage base (⟨.beginCommandAudit own,.ok ()⟩ :: ⟨.beginCommandAudit wake,.ok ()⟩ :: posts) h)
    (result : String) (category : Option String) (r : Except Exc Unit) :
    WakeLog wake posts [⟨.completeCommandAudit wake.auditId result category,r⟩] ∧
    Stage base (⟨.beginCommandAudit own,.ok ()⟩ :: ⟨.beginCommandAudit wake,.ok ()⟩ ::
        (posts ++ [⟨.completeCommandAudit wake.auditId result category,r⟩]))
      (h ++ [⟨.completeCommandAudit wake.auditId result category,r⟩]) := by
  refine ⟨⟨htool, hp, ?_⟩, hs.loudly rfl⟩
  intro e he
  rw [List.mem_singleton.mp he]
  exact ⟨result, category, rfl⟩

/-- After the wake: answered and its audit still open, or failed and its audit completed. -/
def WakeSent (base : List CommandEvent) (own wake : AuditRecord) (vin : String) (h : List CommandEvent) :
    Except Exc Gateway.TeslaVehicle → Prop
  | .ok live => ∃ posts, Stage base (⟨.beginCommandAudit own,.ok ()⟩ ::
        ⟨.beginCommandAudit wake,.ok ()⟩ :: posts) h ∧ PostsTo .wakeUp posts ∧
      Replied h .wakeUp vin vehicleReply live
  | .error _ => ∃ posts rest, Stage base (⟨.beginCommandAudit own,.ok ()⟩ ::
        ⟨.beginCommandAudit wake,.ok ()⟩ :: (posts ++ rest)) h ∧ WakeLog wake posts rest

theorem sendWake_obeys (ho : OwnAudit userId spec vehicle base own)
    (htool : wake.toolName = wakeUpSpec.name) (hname : wake.toolName ≠ spec.name)
    (howner : wake.ownerUserId = userId) (hvehicle : wake.vehicleId = vehicle.vehicleId)
    (hs : Stage base [⟨.beginCommandAudit own,.ok ()⟩,⟨.beginCommandAudit wake,.ok ()⟩] h) :
    Obeys (fun h op => CallRules h userId spec op) (WakeSent base own wake vehicle.vin)
      (auditingFailure wake.auditId (execute userId (wakeUp maxReadRetries vehicle.vin))) h := by
  refine auditingFailure_obeys (wake_obeys wake ?_ ?_ ?_ hs) ?_ ?_ ?_
  · intro h' hp hb
    exact ho.audited hp hb htool howner hvehicle
  · rintro auditId ⟨result, category, r, hm⟩
    simp at hm
  · simp [Begun]
  · rintro h' live ⟨⟨posts, hs', hp⟩, hr⟩
    exact ⟨posts, hs', hp, hr live rfl⟩
  · rintro h' e category ⟨⟨posts, hs', hp⟩, _⟩
    exact wake_completion hname hp hs' "failure" category
  · rintro h' e category r e' ⟨⟨posts, hs', hp⟩, _⟩
    obtain ⟨hlog, hs''⟩ := wake_completed htool hp hs' "failure" category r
    exact ⟨posts, _, hs'', hlog⟩

theorem wakeBegun_obeys (ho : OwnAudit userId spec vehicle base own)
    (hcommand : spec.isCommand = true) (htool : wake.toolName = wakeUpSpec.name)
    (howner : wake.ownerUserId = userId) (hvehicle : wake.vehicleId = vehicle.vehicleId)
    (correlationId : String)
    (hs : Stage base [⟨.beginCommandAudit own,.ok ()⟩,⟨.beginCommandAudit wake,.ok ()⟩] h) :
    Obeys (fun h op => CallRules h userId spec op)
      (fun h' r => ∃ l, Stage base (⟨.beginCommandAudit own,.ok ()⟩ :: l) h' ∧ Unsettled spec l ∧
        Unsent l ∧ ∀ c, r = .ok c → OnlineAt h' vehicle.vin ∧ WakeSucceeded h')
      (auditingFailure wake.auditId (execute userId (wakeUp maxReadRetries vehicle.vin)) >>=
        fun wakeResult => finalizeAudit wake.auditId "success" none >>= fun _ =>
          if wakeResult.state = some "online" then pure (some correlationId)
          else pollOnline maxReadRetries userId vehicle.vin correlationId wakePollAttempts) h := by
  have hname : wake.toolName ≠ spec.name := by
    rw [htool]
    exact (ho.named hcommand).symm
  apply (sendWake_obeys ho htool hname howner hvehicle hs).bind
  · rintro h' live ⟨posts, hs', hp, hr⟩
    apply audit_bind (wake_completion hname hp hs' "success" none)
    · intro e
      obtain ⟨hlog, hs''⟩ := wake_completed htool hp hs' "success" none (.error e)
      exact ⟨_, hs'', hlog.unsettled hcommand, hlog.unsent, fun c hc => by cases hc⟩
    · intro _
      obtain ⟨hlog, hs''⟩ := wake_completed htool hp hs' "success" none (.ok ())
      have hgrows := List.prefix_append h'
        [(⟨.completeCommandAudit wake.auditId "success" none,.ok ()⟩ : CommandEvent)]
      have hsucceeded : WakeSucceeded
          (h' ++ [⟨.completeCommandAudit wake.auditId "success" none,.ok ()⟩]) := by
        obtain ⟨request, response, hm, ha, hreply⟩ := hr
        exact ⟨wake, request, response, live, hs''.of_mem (by simp), htool, hgrows.subset hm, ha.1,
          hreply, by simp⟩
      split
      · rename_i honline
        refine ⟨_, hs'', hlog.unsettled hcommand, hlog.unsent, fun c _ => ⟨?_, hsucceeded⟩⟩
        have hreported : OnlineAt h' vehicle.vin :=
          fun part hpart => online_of_reply hr hpart (.inr rfl) honline
        exact hreported.mono hgrows
      · refine (pollOnline_obeys wakePollAttempts hs''.rebase).mono ?_
        rintro h₂ r ⟨hs₂, hr₂⟩
        exact ⟨_, hs₂.debase hs''.extends_base, hlog.unsettled hcommand, hlog.unsent,
          fun c hc => ⟨hr₂ c hc, hsucceeded.mono hs₂.extends_base⟩⟩
  · rintro h' e ⟨posts, rest, hs', hlog⟩
    exact ⟨_, hs', hlog.unsettled hcommand, hlog.unsent, fun c hc => by cases hc⟩

end Waking

theorem wakeAndPoll_obeys (ho : OwnAudit userId spec vehicle base own) (hcommand : spec.isCommand = true)
    (hs : Stage base [⟨.beginCommandAudit own,.ok ()⟩] h) :
    Obeys (fun h op => CallRules h userId spec op)
      (fun h' r => ∃ l, Stage base (⟨.beginCommandAudit own,.ok ()⟩ :: l) h' ∧ Unsettled spec l ∧
        Unsent l ∧ ∀ c, r = .ok c → OnlineAt h' vehicle.vin ∧ WakeSucceeded h')
      (wakeAndPoll maxReadRetries userId spec vehicle) h := by
  have hnone : ∀ h' (e : Exc), Stage base [⟨.beginCommandAudit own,.ok ()⟩] h' →
      ∃ l, Stage base (⟨.beginCommandAudit own,.ok ()⟩ :: l) h' ∧ Unsettled spec l ∧
        Unsent l ∧ ∀ c, Except.error e = (.ok c : Except Exc (Option String)) →
          OnlineAt h' vehicle.vin ∧ WakeSucceeded h' := by
    intro h' e hs'
    exact ⟨[], hs', unsettled_nil, unsent_nil, fun c hc => by cases hc⟩
  apply quiet_bind rfl hs hnone
  intro h₁ auditToken hs₁
  apply quiet_bind rfl hs₁ hnone
  intro h₂ correlationToken hs₂
  apply quiet_bind rfl hs₂ hnone
  intro h₃ timestamp hs₃
  dsimp only
  generalize hw : (AuditRecord.mk _ timestamp userId vehicle.vehicleId wakeUpSpec.name _ _ _) = wake
  have hid : wake.auditId = "audit_" ++ auditToken := by rw [← hw]
  have htool : wake.toolName = wakeUpSpec.name := by rw [← hw]
  have howner : wake.ownerUserId = userId := by rw [← hw]
  have hvehicle : wake.vehicleId = vehicle.vehicleId := by rw [← hw]
  rw [← hid]
  apply audit_bind
  · refine ⟨.inr ⟨hcommand, htool⟩, ?_⟩
    exact unsent_of_stage hs₃ unsent_nil
  · intro e
    refine ⟨[⟨.beginCommandAudit wake,.error e⟩], hs₃.loudly rfl, ?_, ?_, fun c hc => by cases hc⟩
    · constructor
      rintro auditId ⟨result, category, r, hm⟩
      cases List.mem_singleton.mp hm
    · rintro command request r ⟨hm, _⟩
      cases List.mem_singleton.mp hm
  · intro _
    exact wakeBegun_obeys ho hcommand htool howner hvehicle _ (hs₃.loudly rfl)

end Phases

end Woodhouse.Commands
