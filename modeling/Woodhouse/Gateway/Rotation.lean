import Woodhouse.Gateway.Connection

namespace Woodhouse.Gateway
open Effects

variable {ι : Type} {sha256Hex : String → String} {user : String}

abbrev GatewayLog (ι : Type) := Log ι Call Call.Ret Exc

/-- An absent connection counts as version 0. -/
def tokenVersion (user : String) (w : World) : Nat :=
  ((w.db.connections user).map ConnectionDocument.tokenVersion).getD 0

def storedTokens (user : String) (w : World) : Option TokenSet :=
  (w.db.connections user).map ConnectionDocument.encryptedTokens

def writeCount (user : String) (log : GatewayLog ι) : Nat :=
  log.countP (fun entry => (writes user entry.2).isSome)

/-- Exactly the committed token writes move the version, by one, and the stored tokens. -/
def WritesTokens (user : String) (e : OnboardingEvent) (w w' : World) : Prop :=
  match writes user e with
  | some tokens => tokenVersion user w' = tokenVersion user w + 1 ∧ storedTokens user w' = some tokens
  | none => tokenVersion user w' = tokenVersion user w ∧ storedTokens user w' = storedTokens user w

theorem writesTokens_of_docStep {e : OnboardingEvent} {w w' : World}
    (h : DocStep user e (w.db.connections user) (w'.db.connections user)) :
    WritesTokens user e w w' := by
  unfold WritesTokens tokenVersion storedTokens
  generalize w.db.connections user = old at h
  generalize w'.db.connections user = new at h
  cases h with
  | save old tokens baseUrl c doc ht hv =>
    simp only [writes, if_true, Option.map_some, Option.getD_some]
    exact ⟨hv, by rw [ht]⟩
  | rotate data tokens c doc ht hv hs =>
    simp only [writes, if_true, Option.map_some, Option.getD_some]
    exact ⟨hv, by rw [ht]⟩
  | complete data region baseUrl => exact ⟨rfl, rfl⟩
  | mark data => exact ⟨rfl, rfl⟩
  | read data c => exact ⟨rfl, rfl⟩
  | other _ _ hw =>
    rw [hw]
    exact ⟨rfl, rfl⟩

theorem writes_step (user : String) {w w' : World} {call : Call} {choice : Choice}
    {r : Except Exc call.Ret}
    (does : onboardingMachine sha256Hex w call choice = some (r,w')) :
    WritesTokens user ⟨call,r⟩ w w' :=
  writesTokens_of_docStep (docStep sha256Hex user does)

theorem no_write_of_count {log : GatewayLog ι} (h : writeCount user log = 0) :
    ∀ entry ∈ log, writes user entry.2 = none := by
  intro entry hm
  have := List.countP_eq_zero.mp h entry hm
  simpa using this

variable [DecidableEq ι] {α : Type} {ps₀ ps : ι → Onboarding α} {w₀ w : World} {log : GatewayLog ι}

/-- Along any run of any programs the version counts the token writes. -/
theorem version_run (run : Run (onboardingMachine sha256Hex) ps₀ w₀ log ps w) :
    tokenVersion user w = tokenVersion user w₀ + writeCount user log := by
  refine run.invariant (I := fun log w =>
    tokenVersion user w = tokenVersion user w₀ + writeCount user log) rfl ?_
  intro log ps w i call k c r w' _ _ does ih
  have hs := writes_step user does
  unfold WritesTokens at hs
  unfold writeCount at ih ⊢
  rw [List.countP_append, List.countP_singleton]
  cases hw : writes user ⟨call,r⟩ with
  | some tokens =>
    rw [hw] at hs
    simp only [Option.isSome_some, if_true]
    have := hs.1
    omega
  | none =>
    rw [hw] at hs
    simp only [Option.isSome_none, Bool.false_eq_true, if_false]
    have := hs.1
    omega

theorem read_step {t t' : World} {c : TeslaConnection} {choice : Choice}
    (does : onboardingMachine sha256Hex t (.getConnection user) choice = some (.ok c,t')) :
    tokenVersion user t = c.tokenVersion ∧ storedTokens user t = some c.tokens ∧
      tokenVersion user t' = c.tokenVersion := by
  have hs := docStep sha256Hex user does
  unfold tokenVersion storedTokens
  generalize t.db.connections user = old at hs
  generalize t'.db.connections user = new at hs
  cases hs with
  | read data _ ht hv _ => exact ⟨hv.symm, congrArg some ht.symm, hv.symm⟩
  | other _ _ _ hr => simp [reads] at hr

/-- The version a request read, plus the token writes since. -/
theorem version_since_read {pre post : GatewayLog ι} {i : ι} {c : TeslaConnection}
    (run : Run (onboardingMachine sha256Hex) ps₀ w₀
      (pre ++ (i,⟨.getConnection user,.ok c⟩) :: post) ps w) :
    tokenVersion user w = c.tokenVersion + writeCount user post := by
  obtain ⟨_, t, _, _, t', _, _, does, after⟩ := run.at_event
  obtain ⟨_, _, hv⟩ := read_step does
  rw [version_run after, hv]

/-- A call that loses its version check changes nothing. -/
theorem error_step {t t' : World} {owner : String} {v : Nat} {tokens : TokenSet} {choice : Choice}
    {e : Exc} (does : onboardingMachine sha256Hex t (.rotateTokens owner v tokens) choice =
      some (.error e,t')) : t' = t := by
  cases choice with
  | failure e' => exact (failure_step does).2.1
  | success =>
    rcases commit_eq (Option.some.inj does) with ⟨_, _, _, hr, _⟩ | ⟨_, _, _, rfl⟩
    · cases hr
    · rfl
  | _ => cases does

/-- The version check of the transaction, from both sides. -/
theorem rotate_step {t t' : World} {v : Nat} {tokens : TokenSet} {choice : Choice}
    {r : Except Exc TeslaConnection} {data : ConnectionDocument}
    (hd : t.db.connections user = some data)
    (does : onboardingMachine sha256Hex t (.rotateTokens user v tokens) choice = some (r,t')) :
    (data.tokenVersion ≠ v →
      r = .error (.concurrentTokenRotation "Tesla token was already rotated") ∨
      ∃ name, r = .error (.other name)) ∧
    (∀ message, r = .error (.concurrentTokenRotation message) → data.tokenVersion ≠ v) := by
  cases choice with
  | failure e =>
    obtain ⟨rfl, _, hc⟩ := failure_step does
    cases e with
    | other name => exact ⟨fun _ => .inr ⟨name, rfl⟩, by simp⟩
    | _ => cases hc
  | success =>
    constructor
    · intro hv
      have hx := Option.some.inj does
      rw [rotateTokens_conflict hd hv] at hx
      exact .inl (Prod.mk.inj hx).1.symm
    · intro message hr hv
      subst hr hv
      rcases commit_eq (Option.some.inj does) with ⟨_, _, _, hr, _⟩ | ⟨e, hx, hr, _⟩
      · cases hr
      · obtain rfl := Except.error.inj hr
        unfold Database.rotateTokens at hx
        rw [hd] at hx
        simp only [ne_eq, not_true, if_false] at hx
        split at hx
        · cases hx
        · split at hx
          · rename_i hf
            unfold Database.connectionFromData at hf
            split at hf
            · cases hf
              cases hx
            · cases hf
          · cases hx
  | _ => cases does

/-- The request stands where its program may make the call it makes. -/
theorem allowed_at {requests : ι → Request} {pre post : GatewayLog ι} {i : ι} {call : Call}
    {r : Except Exc call.Ret} {ps : ι → Onboarding Reply}
    (run : Run (onboardingMachine sha256Hex) (fun i => requestProgram user (requests i)) w₀
      (pre ++ (i,⟨call,r⟩) :: post) ps w) : Allowed user (localEvents i pre) call := by
  obtain ⟨qs, t, c, k, t', before, turn, _, _⟩ := run.at_event
  exact before.allowed (allowed_request user (requests i)) turn

/-- A committed rotation is preceded by the read that gave it its version, and no
request stored tokens since that read. -/
theorem rotation_unraced {requests : ι → Request} {pre post : GatewayLog ι} {i : ι} {v : Nat}
    {tokens : TokenSet} {c : TeslaConnection} {ps : ι → Onboarding Reply}
    (run : Run (onboardingMachine sha256Hex) (fun i => requestProgram user (requests i)) w₀
      (pre ++ (i,⟨.rotateTokens user v tokens,.ok c⟩) :: post) ps w) :
    ∃ p₀ p₁ read, pre = p₀ ++ (i,⟨.getConnection user,.ok read⟩) :: p₁ ∧ read.tokenVersion = v ∧
      (∀ e ∈ localEvents i p₁, reads user e = none) ∧
      ∀ entry ∈ p₁, writes user entry.2 = none := by
  obtain ⟨_, read, hread, hv, _⟩ := allowed_at run
  obtain ⟨before, after, hl, hn⟩ := lastRead_split hread
  obtain ⟨p₀, p₁, rfl, _, hp₁⟩ := local_split hl
  refine ⟨p₀, p₁, read, rfl, hv, by rw [hp₁]; exact hn, ?_⟩
  obtain ⟨qs, t, choice, k, t', before, _, does, _⟩ := run.at_event
  have hcount := version_since_read before
  have hstored : tokenVersion user t = v := by
    have hs := docStep sha256Hex user does
    unfold tokenVersion
    generalize t.db.connections user = old at hs
    generalize t'.db.connections user = new at hs
    cases hs with
    | rotate => rfl
    | other _ _ hw => simp [writes] at hw
  exact no_write_of_count (by omega)

end Woodhouse.Gateway
