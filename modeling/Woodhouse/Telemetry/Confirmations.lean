import Woodhouse.Telemetry.Changes

namespace Woodhouse.Telemetry
open Effects Python
open Gateway (Exc TelemetryConfigurationState VehicleRecord)

/-- `I` after an exception, `K` after a value. -/
def Ends {α : Type} (I : List TelemetryEvent → Prop) (K : List TelemetryEvent → α → Prop)
    (h : List TelemetryEvent) : Except Exc α → Prop
  | .ok a => K h a
  | .error _ => I h

section Client
variable {A : List TelemetryEvent → Call → Prop} {I : List TelemetryEvent → Prop}
  {h : List TelemetryEvent} {α : Type}

theorem perform_ends {op : Call} {K : List TelemetryEvent → op.Ret → Prop} (ha : A h op)
    (herr : ∀ e, I (h ++ [⟨op,.error e⟩])) (hok : ∀ a, K (h ++ [⟨op,.ok a⟩]) a) :
    Obeys A (Ends I K) (perform op) h := by
  unfold perform
  rw [obeys_perform]
  refine ⟨ha, ?_⟩
  intro r
  cases r with
  | ok a => exact hok a
  | error e => exact herr e

theorem onboarding_keeps (hallowed : ∀ h call, A h (.onboarding call))
    (hkeeps : ∀ h call r, I h → I (h ++ [⟨.onboarding call,r⟩])) (p : Gateway.Onboarding α)
    (start : I h) : Obeys A (fun h' _ => I h') (onboarding p) h := by
  apply obeys_lift
  · intro h op _
    exact hallowed h op
  · intro h op r hi
    exact hkeeps h op r hi
  · exact start

theorem execute_obeys {K : List TelemetryEvent → α → Prop}
    {operation : String → String → Controlling α} (userId : String)
    (hallowed : ∀ h call, A h (.onboarding call))
    (hkeeps : ∀ h call r, I h → I (h ++ [⟨.onboarding call,r⟩]))
    (hoperation : ∀ h, I h → ∀ token base, Obeys A (Ends I K) (operation token base) h)
    (start : I h) : Obeys A (Ends I K) (execute userId operation) h := by
  apply (onboarding_keeps hallowed hkeeps (Gateway.accessForUser userId false none) start).bind
  · intro h' context hi
    apply (hoperation h' hi context.accessToken context.baseUrl).tryCatch
    · intro h'' a hk
      exact hk
    · intro h'' e hi''
      split
      · apply (onboarding_keeps hallowed hkeeps (Gateway.accessForUser userId true none) hi'').bind
        · intro h₃ refreshed hi₃
          exact hoperation h₃ hi₃ refreshed.accessToken refreshed.baseUrl
        · intro h₃ e' hi₃
          exact hi₃
      · exact hi''
  · intro h' e hi
    exact hi

end Client

section Operations
variable {control : Control} {userId vehicleId : String} {P : ConfigAudit → Prop}
  {base h : List TelemetryEvent} {α : Type}

theorem free_onboarding (h : List TelemetryEvent) (call : Gateway.Call) :
    ConfigRules control userId P h (.onboarding call) := configRules_free rfl

theorem steps_onboarding (h : List TelemetryEvent) (call : Gateway.Call)
    (r : Except Exc call.Ret) (hs : Steps base h) : Steps base (h ++ [⟨.onboarding call,r⟩]) :=
  hs.step rfl

/-- A call that no rule is about, in a program that continues from any answer. -/
theorem free_bind {op : Call} {f : op.Ret → Controlling α} (hf : op.free = true)
    {K : List TelemetryEvent → α → Prop} (hs : Steps base h)
    (hok : ∀ a, Steps base (h ++ [⟨op,.ok a⟩]) →
      Obeys (ConfigRules control userId P) (Ends (Steps base) K) (f a) (h ++ [⟨op,.ok a⟩])) :
    Obeys (ConfigRules control userId P) (Ends (Steps base) K) (perform op >>= f) h := by
  unfold perform
  rw [obeys_perform_bind]
  have hwork : op.working = true := working_of_free hf
  exact ⟨configRules_free hf, fun e => hs.step hwork, fun a => hok a (hs.step hwork)⟩

theorem free_execute {operation : String → String → Controlling α}
    {K : List TelemetryEvent → α → Prop} (hs : Steps base h)
    (hoperation : ∀ h, Steps base h → ∀ token url,
      Obeys (ConfigRules control userId P) (Ends (Steps base) K) (operation token url) h) :
    Obeys (ConfigRules control userId P) (Ends (Steps base) K) (execute userId operation) h :=
  execute_obeys userId free_onboarding steps_onboarding hoperation hs

theorem profileOf_reviewed {vin : String} {statuses : String → Option Gateway.FleetStatus}
    {profile : FleetTelemetryProfile} (hp : profileOf control vin statuses = .ok profile) :
    Reviewed control profile := by
  unfold profileOf at hp
  split at hp
  · cases hp
  · rename_i status _
    cases hs : supportsBroadProfile status.fleetTelemetryVersion with
    | error e =>
      rw [hs] at hp
      cases hp
    | ok supported =>
      rw [hs] at hp
      cases supported with
      | false => cases hp
      | true => exact ⟨_, hp⟩

theorem eligibleVehicle_obeys (hs : Steps base h) :
    Obeys (ConfigRules control userId P)
      (Ends (Steps base) (fun h' vehicle => Steps base h' ∧
        vehicle.authorizationStatus = .active ∧
        (⟨.onboarding (.getVehicle userId vehicleId),.ok vehicle⟩ : TelemetryEvent) ∈ h'))
      (eligibleVehicle userId vehicleId) h := by
  apply free_bind rfl hs
  intro vehicle hs₁
  split
  · exact hs₁
  · rename_i hactive
    split
    · exact hs₁
    · apply free_bind rfl hs₁
      intro connection hs₂
      split
      · exact hs₂
      · refine ⟨hs₂, not_not.mp hactive, ?_⟩
        simp

theorem capabilityProfile_obeys (vehicle : VehicleRecord) (hs : Steps base h) :
    Obeys (ConfigRules control userId P)
      (Ends (Steps base) (fun h' profile => Steps base h' ∧ Reviewed control profile))
      (capabilityProfile control userId vehicle) h := by
  have hread : Obeys (ConfigRules control userId P) (Ends (Steps base) (fun h' _ => Steps base h'))
      (execute userId (fun accessToken baseUrl =>
        perform (.onboarding (.fleetStatus accessToken baseUrl [vehicle.vin])))) h := by
    apply free_execute hs
    intro h' hs' token url
    exact perform_ends (configRules_free rfl) (fun e => hs'.step rfl) (fun a => hs'.step rfl)
  apply hread.bind
  · intro h' statuses hs'
    rw [obeys_ofExcept]
    cases hp : profileOf control vehicle.vin statuses with
    | error e => exact hs'
    | ok profile => exact ⟨hs', profileOf_reviewed hp⟩
  · intro h' e hs'
    exact hs'

theorem relevantErrors_obeys (errors : Json) (hs : Steps base h) :
    Obeys (ConfigRules control userId P)
      (Ends (Steps base) (fun h' relevant => ∃ now rest, h' = h ++ rest ∧ Working rest ∧
        relevant = hasRelevantErrors now errors ∧
        ∀ items, errors = .arr items → rest = [⟨.onboarding .utcNow,.ok now⟩]))
      (relevantErrors errors) h := by
  unfold relevantErrors
  split
  · apply free_bind rfl hs
    intro now _
    exact ⟨now, _, rfl, Working.single rfl, rfl, fun _ _ => rfl⟩
  · rename_i hlist
    refine ⟨0, [], by simp, working_nil, ?_, ?_⟩
    · cases errors <;> first | rfl | exact absurd rfl (hlist _)
    · intro items he
      exact absurd he (hlist items)

theorem compareAnswer_in_sync {desired : FleetTelemetryConfig} {response : Dict Json}
    {difference : ConfigDiff} (hc : compareAnswer control desired response = .ok difference)
    (hstatus : difference.status = "in_sync") :
    ∃ current, parseTeslaConfig response = .ok (some current) ∧
      configDiff control.sha256Hex control.loadPemCertificates (some current) desired =
        .ok difference := by
  have hchecked : ∀ {β : Type} {x : Except Exc β} {b : β}, checkedConfiguration x = .ok b → x = .ok b := by
    intro β x b hx
    cases x with
    | ok a => exact hx
    | error e =>
      unfold checkedConfiguration at hx
      dsimp only at hx
      split at hx <;> cases hx
  unfold compareAnswer at hc
  cases hp : checkedConfiguration (parseTeslaConfig response) with
  | error e =>
    rw [hp] at hc
    cases hc
  | ok current =>
    rw [hp] at hc
    have hdiff := hchecked hc
    cases current with
    | none =>
      unfold configDiff configDiffBy at hdiff
      cases hsafe : safeConfigDocument control.sha256Hex control.loadPemCertificates desired with
      | error e =>
        rw [hsafe] at hdiff
        cases hdiff
      | ok document =>
        rw [hsafe] at hdiff
        cases hdiff
        exact absurd hstatus (by decide)
    | some current => exact ⟨current, hchecked hp, hdiff⟩

/-- The history is `base` and then working calls that confirmed the configuration. -/
def ConfirmedSince (control : Control) (base : List TelemetryEvent) (vin : String)
    (desired : FleetTelemetryConfig) (h : List TelemetryEvent) : Prop :=
  ∃ mid, h = base ++ mid ∧ Working mid ∧ Confirmed control mid vin desired

/-- The answer to the error list, with the working calls since the configuration was read. -/
theorem telemetryErrors_obeys {vin : String} (hs : Steps base h) :
    Obeys (ConfigRules control userId P)
      (Ends (Steps base) (fun h' errors => ∃ mid token url, Working mid ∧
        h' = h ++ mid ++ [⟨.telemetryErrors token url vin,.ok errors⟩]))
      (execute userId (fun accessToken baseUrl =>
        perform (.telemetryErrors accessToken baseUrl vin))) h := by
  have hread : Obeys (ConfigRules control userId P)
      (Ends (Steps h) (fun h' errors => ∃ mid token url, Working mid ∧
        h' = h ++ mid ++ [⟨.telemetryErrors token url vin,.ok errors⟩]))
      (execute userId (fun accessToken baseUrl =>
        perform (.telemetryErrors accessToken baseUrl vin))) h := by
    apply free_execute steps_refl
    intro h' hs' token url
    apply perform_ends (configRules_free rfl)
    · intro e
      exact hs'.step rfl
    · intro errors
      obtain ⟨mid, rfl, hmid⟩ := hs'
      exact ⟨mid, token, url, hmid, rfl⟩
  apply hread.mono
  intro h' r hends
  cases r with
  | ok errors => exact hends
  | error e => exact hs.trans hends

/-- The second half of an attempt: the error list after an answer that is in sync. -/
theorem errorsChecked_obeys {vin token url : String} {desired : FleetTelemetryConfig}
    {response : Dict Json} {difference : ConfigDiff} (hs : Steps base h)
    (hsynced : isSynced response = true) (hc : compareAnswer control desired response = .ok difference)
    (hstatus : difference.status = "in_sync") :
    Obeys (ConfigRules control userId P)
      (Ends (Steps base) (fun h' confirmed => Steps base h' ∧
        (confirmed = true → ConfirmedSince control base vin desired h')))
      (do
        let errors ← execute userId (fun accessToken baseUrl =>
          perform (.telemetryErrors accessToken baseUrl vin))
        let relevant ← relevantErrors errors
        if relevant then
          throw (.telemetryConfiguration "tesla_reported_errors"
            "Tesla reports telemetry configuration errors")
        else return true)
      (h ++ [⟨.configGet token url vin,.ok response⟩]) := by
  obtain ⟨current, hparse, hdiff⟩ := compareAnswer_in_sync hc hstatus
  have hs₁ : Steps base (h ++ [⟨.configGet token url vin,.ok response⟩]) := hs.step rfl
  obtain ⟨mid₀, rfl, hmid₀⟩ := hs
  apply (telemetryErrors_obeys hs₁).bind
  · intro h₂ errors hread
    obtain ⟨mid, token', url', hmid, rfl⟩ := hread
    have hworking : Working (mid₀ ++ [⟨.configGet token url vin,.ok response⟩] ++ mid ++
        [⟨.telemetryErrors token' url' vin,.ok errors⟩]) :=
      ((hmid₀.append (Working.single rfl)).append hmid).append (Working.single rfl)
    have hs₂ : Steps base (base ++ mid₀ ++ [⟨.configGet token url vin,.ok response⟩] ++ mid ++
        [⟨.telemetryErrors token' url' vin,.ok errors⟩]) := ⟨_, by simp, hworking⟩
    apply (relevantErrors_obeys errors hs₂).bind
    · intro h₃ relevant hclock
      obtain ⟨now, rest, rfl, hrest, rfl, hitems⟩ := hclock
      have hs₃ := hs₂.trans ⟨rest, rfl, hrest⟩
      split
      · exact hs₃
      · rename_i hrelevant
        refine ⟨hs₃, ?_⟩
        intro _
        refine ⟨_, ?_, hworking.append hrest, mid₀, token, url, response, current, difference,
          mid, token', url', errors, rest, now, ?_, hsynced, hparse, hdiff, hstatus, ?_, ?_⟩
        · simp
        · simp
        · simpa using hrelevant
        · intro items he
          exact ⟨[], hitems items he⟩
    · intro h₃ e hs₃
      exact hs₃
  · intro h₂ e hs₂
    exact hs₂

theorem confirmOnce_obeys {vin : String} {desired : FleetTelemetryConfig} (hs : Steps base h) :
    Obeys (ConfigRules control userId P)
      (Ends (Steps base) (fun h' confirmed => Steps base h' ∧
        (confirmed = true → ConfirmedSince control base vin desired h')))
      (confirmOnce control userId vin desired) h := by
  have hget : Obeys (ConfigRules control userId P)
      (Ends (Steps base) (fun h' response => ∃ h₀ token url, Steps base h₀ ∧
        h' = h₀ ++ [⟨.configGet token url vin,.ok response⟩]))
      (execute userId (fun accessToken baseUrl => perform (.configGet accessToken baseUrl vin))) h := by
    apply free_execute hs
    intro h' hs' token url
    exact perform_ends (configRules_free rfl) (fun e => hs'.step rfl)
      (fun response => ⟨h', token, url, hs', rfl⟩)
  apply hget.bind
  · intro h₁ response hread
    obtain ⟨h₀, token, url, hs₀, rfl⟩ := hread
    have hs₁ : Steps base (h₀ ++ [⟨.configGet token url vin,.ok response⟩]) := hs₀.step rfl
    cases hc : compareAnswer control desired response with
    | error e => exact hs₁
    | ok difference =>
      rw [Prog.ofExcept_ok, Prog.ret_bind]
      split
      · rename_i hsynced
        exact errorsChecked_obeys hs₀ hsynced.1 hc hsynced.2
      · refine ⟨hs₁, ?_⟩
        intro hconfirmed
        cases hconfirmed
  · intro h₁ e hs₁
    exact hs₁

theorem waitUntilSynced_obeys {vin : String} {desired : FleetTelemetryConfig} (left : Nat)
    (hs : Steps base h) :
    Obeys (ConfigRules control userId P)
      (Ends (Steps base) (fun h' _ => ConfirmedSince control base vin desired h'))
      (waitUntilSynced control userId vin desired left) h := by
  induction left generalizing h with
  | zero => exact hs
  | succ left ih =>
    apply (confirmOnce_obeys hs).bind
    · intro h₁ confirmed hread
      obtain ⟨hs₁, hconfirmed⟩ := hread
      split
      · rename_i hc
        exact hconfirmed hc
      · split
        · exact ih hs₁
        · apply free_bind rfl hs₁
          intro _ hs₂
          exact ih hs₂
    · intro h₁ e hs₁
      exact hs₁

end Operations

end Woodhouse.Telemetry
