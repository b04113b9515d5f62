import Mathlib.Data.List.Infix
import Woodhouse.Identity.Bindings

namespace Woodhouse.Identity

variable (sha256Hex casefold : String → String)

def BoundTo (d : Directory) (issuer subject userId : String) : Prop :=
  ∃ b, d.oidcIdentities (identityDocumentId sha256Hex issuer subject) = some b ∧
    b.oidcIssuer = issuer ∧ b.oidcSubject = subject ∧ b.userId = userId

def Operation.generatedUserId : Operation → Option String
  | .ensureInvitation _ newUserId _ => some newUserId
  | _ => none

/-- No user id is generated twice. -/
def FreshUserIds (operations : List Operation) : Prop :=
  (operations.filterMap Operation.generatedUserId).Nodup

/-- The records with an identity on them. -/
def Directory.boundRecords (d : Directory) : Set String :=
  { id | ∃ data issuer subject, d.allowedUsers id = some data ∧
    data.oidcIssuer = some issuer ∧ data.oidcSubject = some subject }

/-- The document id of the identity on a record. -/
def Directory.identityOf (d : Directory) (id : String) : String :=
  match d.allowedUsers id with
  | some data => identityDocumentId sha256Hex (data.oidcIssuer.getD "") (data.oidcSubject.getD "")
  | none => ""

def Directory.identityDocuments (d : Directory) : Set String :=
  { key | ∃ b, d.oidcIdentities key = some b }

variable {sha256Hex casefold} {d d' : Directory}

section Mirror

theorem identityOf_eq {id issuer subject : String} {data : AllowedUserDocument}
    (hd : d.allowedUsers id = some data) (hi : data.oidcIssuer = some issuer)
    (hs : data.oidcSubject = some subject) :
    d.identityOf sha256Hex id = identityDocumentId sha256Hex issuer subject := by
  simp [Directory.identityOf, hd, hi, hs]

/-- The mirror is a bijection between bound records and identity documents. -/
theorem Mirrored.bijOn (hm : Mirrored sha256Hex casefold d) :
    Set.BijOn (d.identityOf sha256Hex) d.boundRecords d.identityDocuments := by
  refine ⟨?_, ?_, ?_⟩
  · rintro id ⟨data, issuer, subject, hd, hi, hs⟩
    obtain ⟨b, hb, _⟩ := hm.bound id data issuer subject hd hi hs
    rw [identityOf_eq hd hi hs]
    exact ⟨b, hb⟩
  · rintro id ⟨data, issuer, subject, hd, hi, hs⟩ id' ⟨data', issuer', subject', hd', hi', hs'⟩ hsame
    obtain ⟨b, hb, _, _, he⟩ := hm.bound id data issuer subject hd hi hs
    obtain ⟨b', hb', _, _, he'⟩ := hm.bound id' data' issuer' subject' hd' hi' hs'
    rw [identityOf_eq hd hi hs, identityOf_eq hd' hi' hs'] at hsame
    rw [hsame, hb'] at hb
    obtain rfl := Option.some.inj hb
    exact Except.ok.inj (he.symm.trans he')
  · rintro key ⟨b, hb⟩
    obtain ⟨rfl, id, data, _, hd, hi, hs, _⟩ := hm.documented key b hb
    exact ⟨id, ⟨data, _, _, hd, hi, hs⟩, identityOf_eq hd hi hs⟩

theorem Speaks.boundTo {issuer subject : String} {c : UserContext}
    (hm : Mirrored sha256Hex casefold d) (h : Speaks sha256Hex casefold d issuer subject c) :
    BoundTo sha256Hex d issuer subject c.userId := by
  obtain ⟨b, id, data, hb, hu, he, hd, hi, hs, _, _, _⟩ := h.record
  obtain ⟨_, id', data', he', hd', hi', hs', _⟩ := hm.documented _ b hb
  obtain rfl := Except.ok.inj (he.symm.trans he')
  obtain rfl := Option.some.inj (hd.symm.trans hd')
  exact ⟨b, hb, Option.some.inj (hi'.symm.trans hi), Option.some.inj (hs'.symm.trans hs), hu⟩

end Mirror

section Steps
variable {operation : Operation}

theorem DirectoryStep.keeps_ids (hs : DirectoryStep sha256Hex casefold d operation d')
    {id : String} {data : AllowedUserDocument} (hd : d.allowedUsers id = some data) :
    ∃ data', d'.allowedUsers id = some data' ∧ data'.userId = data.userId ∧
      data'.datasetId = data.datasetId := by
  cases hs with
  | unchanged => exact ⟨data, hd, rfl, rfl⟩
  | bound identity email id₀ data₀ key held unbound active free =>
    rw [Directory.createIdentity_users]
    by_cases hsame : id = id₀
    · subst hsame
      obtain rfl := Option.some.inj (held.symm.trans hd)
      exact ⟨_, d.setUser_self .., rfl, rfl⟩
    · exact ⟨data, (d.setUser_other hsame _).trans hd, rfl, rfl⟩
  | invited email id₀ newUserId newDatasetId free =>
    have hne : id ≠ id₀ := by
      intro hsame
      rw [hsame, free] at hd
      cases hd
    exact ⟨data, (d.setUser_other hne _).trans hd, rfl, rfl⟩
  | relabelled _ id₀ data₀ status held admin =>
    by_cases hsame : id = id₀
    · subst hsame
      obtain rfl := Option.some.inj (held.symm.trans hd)
      exact ⟨_, d.setUser_self .., rfl, rfl⟩
    · exact ⟨data, (d.setUser_other hsame _).trans hd, rfl, rfl⟩
  | reset email id₀ expectedUserId data₀ user held confirmed issuer subject =>
    by_cases hsame : id = id₀
    · subst hsame
      obtain rfl := Option.some.inj (held.symm.trans hd)
      exact ⟨_, Directory.setUser_self .., rfl, rfl⟩
    · refine ⟨data, (Directory.setUser_other _ hsame _).trans ?_, rfl, rfl⟩
      unfold Directory.withoutIdentity
      split <;> exact hd

/-- The only record that an operation adds, with the user id it generates. -/
structure Adds (d : Directory) (operation : Operation) (d' : Directory) (id userId : String) :
    Prop where
  free : d.allowedUsers id = none
  generated : operation.generatedUserId = some userId
  only : ∀ id', d.allowedUsers id' = none → d'.allowedUsers id' ≠ none → id' = id

/-- A record is as old as its user id, which only an invitation generates. -/
theorem DirectoryStep.user_ids (hs : DirectoryStep sha256Hex casefold d operation d')
    {id : String} {data' : AllowedUserDocument} (hd' : d'.allowedUsers id = some data') :
    (∃ data, d.allowedUsers id = some data ∧ data.userId = data'.userId) ∨
      Adds d operation d' id data'.userId := by
  cases hold : d.allowedUsers id with
  | some data =>
    obtain ⟨data'', hd'', hu, _⟩ := hs.keeps_ids hold
    obtain rfl := Option.some.inj (hd''.symm.trans hd')
    exact .inl ⟨data, rfl, hu.symm⟩
  | none =>
    cases hs with
    | unchanged =>
      rw [hold] at hd'
      cases hd'
    | bound identity email id₀ data₀ key held unbound active free =>
      have hne : id ≠ id₀ := by
        intro hsame
        rw [← hsame, hold] at held
        cases held
      rw [Directory.createIdentity_users, d.setUser_other hne, hold] at hd'
      cases hd'
    | invited email id₀ newUserId newDatasetId free =>
      rcases Directory.setUser_eq_some hd' with ⟨rfl, rfl⟩ | ⟨_, hd'⟩
      · refine .inr ⟨free, rfl, ?_⟩
        intro id' hfree hnew
        by_contra hne
        exact hnew ((d.setUser_other hne _).trans hfree)
      · rw [hold] at hd'
        cases hd'
    | relabelled _ id₀ data₀ status held admin =>
      have hne : id ≠ id₀ := by
        intro hsame
        rw [← hsame, hold] at held
        cases held
      rw [d.setUser_other hne, hold] at hd'
      cases hd'
    | reset email id₀ expectedUserId data₀ user held confirmed issuer subject =>
      have hne : id ≠ id₀ := by
        intro hsame
        rw [← hsame, hold] at held
        cases held
      rw [Directory.setUser_other _ hne] at hd'
      have hsame : (d.withoutIdentity sha256Hex user).allowedUsers = d.allowedUsers := by
        unfold Directory.withoutIdentity
        split <;> rfl
      rw [hsame, hold] at hd'
      cases hd'

/-- A login changes no status. -/
theorem DirectoryStep.login_status {identity : VerifiedIdentity}
    (hs : DirectoryStep sha256Hex casefold d (.resolveOrBind identity) d') {id : String}
    {data : AllowedUserDocument} (hd : d.allowedUsers id = some data) :
    ∃ data', d'.allowedUsers id = some data' ∧ data'.status = data.status ∧
      data'.userId = data.userId := by
  cases hs with
  | unchanged => exact ⟨data, hd, rfl, rfl⟩
  | bound identity email id₀ data₀ key held unbound active free =>
    rw [Directory.createIdentity_users]
    by_cases hsame : id = id₀
    · subst hsame
      obtain rfl := Option.some.inj (held.symm.trans hd)
      exact ⟨_, d.setUser_self .., rfl, rfl⟩
    · exact ⟨data, (d.setUser_other hsame _).trans hd, rfl, rfl⟩
  | relabelled _ id₀ data₀ status held admin => exact absurd rfl (admin identity)

/-- A binding stays until its user's identity is reset. -/
theorem DirectoryStep.keeps_binding {issuer subject userId : String}
    (hm : Mirrored sha256Hex casefold d) (hs : DirectoryStep sha256Hex casefold d operation d')
    (hb : BoundTo sha256Hex d issuer subject userId)
    (hreset : ∀ email, operation ≠ .resetIdentity email userId) :
    BoundTo sha256Hex d' issuer subject userId := by
  obtain ⟨b, hb, hrest⟩ := hb
  refine ⟨b, ?_, hrest⟩
  cases hs with
  | unchanged => exact hb
  | bound identity email id₀ data₀ key held unbound active free =>
    rw [Directory.createIdentity_other]
    · exact hb
    · intro hkey
      rw [hkey, free] at hb
      cases hb
  | invited email id₀ newUserId newDatasetId free => exact hb
  | relabelled _ id₀ data₀ status held admin => exact hb
  | reset email id₀ expectedUserId data₀ user held confirmed hissuer hsubject =>
    rw [Directory.setUser_identities]
    unfold Directory.withoutIdentity
    rw [hissuer, hsubject]
    split
    · rename_i issuer₀ subject₀ hi hs
      rw [Directory.deleteIdentity_other]
      · exact hb
      · -- the document deleted is the one of the user who is reset
        intro hkey
        obtain ⟨own, hown, _, _, he⟩ := hm.bound id₀ data₀ issuer₀ subject₀ held hi hs
        rw [hkey, hown] at hb
        obtain rfl := Option.some.inj hb
        obtain ⟨_, id, data, he', hd, _, _, hu⟩ := hm.documented _ own hown
        obtain rfl := Except.ok.inj (he.symm.trans he')
        obtain rfl := Option.some.inj (held.symm.trans hd)
        have huser : expectedUserId = userId := confirmed.symm.trans (hu.trans hrest.2.2)
        exact hreset email (huser ▸ rfl)
    · exact hb

end Steps

section Histories
variable {pre post : List Operation}

theorem history_mirrored (pre : List Operation) :
    Mirrored sha256Hex casefold (directoryAfter sha256Hex casefold pre) := by
  induction pre using List.reverseRecOn with
  | nil => exact mirrored_empty
  | append_singleton pre operation ih =>
    rw [directoryAfter_snoc]
    exact (apply_step ih).mirrored ih

theorem history_step (pre : List Operation) (operation : Operation) :
    DirectoryStep sha256Hex casefold (directoryAfter sha256Hex casefold pre) operation
      (directoryAfter sha256Hex casefold (pre ++ [operation])) := by
  rw [directoryAfter_snoc]
  exact apply_step (history_mirrored pre)

theorem history_ids (post : List Operation) {id : String} {data : AllowedUserDocument}
    (hd : (directoryAfter sha256Hex casefold pre).allowedUsers id = some data) :
    ∃ data', (directoryAfter sha256Hex casefold (pre ++ post)).allowedUsers id = some data' ∧
      data'.userId = data.userId ∧ data'.datasetId = data.datasetId := by
  induction post using List.reverseRecOn with
  | nil => exact ⟨data, by simpa using hd, rfl, rfl⟩
  | append_singleton post operation ih =>
    obtain ⟨data', hd', hu', hset'⟩ := ih
    rw [← List.append_assoc]
    obtain ⟨data'', hd'', hu'', hset''⟩ := (history_step (pre ++ post) operation).keeps_ids hd'
    exact ⟨data'', hd'', hu''.trans hu', hset''.trans hset'⟩

variable (sha256Hex casefold) in
/-- No reset of the user's identity is committed along `mid`. -/
def NoReset (pre mid : List Operation) (userId : String) : Prop :=
  ∀ before email after, mid = before ++ .resetIdentity email userId :: after →
    ∃ e, (directoryAfter sha256Hex casefold (pre ++ before)).resetIdentity sha256Hex casefold email
      userId = .error e

theorem history_binding {post : List Operation} {issuer subject userId : String}
    (hb : BoundTo sha256Hex (directoryAfter sha256Hex casefold pre) issuer subject userId)
    (hreset : NoReset sha256Hex casefold pre post userId) :
    BoundTo sha256Hex (directoryAfter sha256Hex casefold (pre ++ post)) issuer subject userId := by
  induction post using List.reverseRecOn with
  | nil => simpa using hb
  | append_singleton post operation ih =>
    have hbefore : BoundTo sha256Hex (directoryAfter sha256Hex casefold (pre ++ post)) issuer
        subject userId := by
      refine ih ?_
      intro before email after hpost
      exact hreset before email (after ++ [operation]) (by rw [hpost]; simp)
    rw [← List.append_assoc]
    by_cases hattempt : ∃ email, operation = .resetIdentity email userId
    · -- a reset that fails leaves the directory as it is
      obtain ⟨email, rfl⟩ := hattempt
      obtain ⟨e, he⟩ := hreset post email [] rfl
      rw [directoryAfter_snoc]
      simpa [Operation.apply, Operation.run, he, Except.map] using hbefore
    · refine (history_step (pre ++ post) operation).keeps_binding (history_mirrored _) hbefore ?_
      intro email hop
      exact hattempt ⟨email, hop⟩

/-- Different records never share a user id. -/
structure Distinct (operations : List Operation) (d : Directory) : Prop where
  generated : ∀ id data, d.allowedUsers id = some data →
    data.userId ∈ operations.filterMap Operation.generatedUserId
  unique : ∀ id id' data data', d.allowedUsers id = some data → d.allowedUsers id' = some data' →
    data.userId = data'.userId → id = id'

theorem history_distinct (fresh : FreshUserIds pre) :
    Distinct pre (directoryAfter sha256Hex casefold pre) := by
  induction pre using List.reverseRecOn with
  | nil =>
    constructor
    · intro id data hd
      cases hd
    · intro id id' data data' hd
      cases hd
  | append_singleton pre operation ih =>
    unfold FreshUserIds at fresh
    rw [List.filterMap_append, List.nodup_append] at fresh
    obtain ⟨hpre, _, hnew⟩ := fresh
    have hold := ih hpre
    have hstep : DirectoryStep sha256Hex casefold (directoryAfter sha256Hex casefold pre) operation
        (directoryAfter sha256Hex casefold (pre ++ [operation])) := history_step pre operation
    have hgenerated : ∀ {userId}, operation.generatedUserId = some userId →
        userId ∈ [operation].filterMap Operation.generatedUserId := by
      intro userId hg
      simp [hg]
    constructor
    · intro id data hd
      rw [List.filterMap_append, List.mem_append]
      rcases hstep.user_ids hd with ⟨data₀, hd₀, hu⟩ | hadds
      · exact .inl (hu ▸ hold.generated id data₀ hd₀)
      · exact .inr (hgenerated hadds.generated)
    · intro id id' data data' hd hd' hsame
      rcases hstep.user_ids hd with ⟨data₀, hd₀, hu⟩ | hadds
      · rcases hstep.user_ids hd' with ⟨data₀', hd₀', hu'⟩ | hadds'
        · exact hold.unique id id' data₀ data₀' hd₀ hd₀' (by rw [hu, hu', hsame])
        · have hmem := hold.generated id data₀ hd₀
          rw [hu, hsame] at hmem
          exact absurd rfl (hnew _ hmem _ (hgenerated hadds'.generated))
      · rcases hstep.user_ids hd' with ⟨data₀', hd₀', hu'⟩ | hadds'
        · have hmem := hold.generated id' data₀' hd₀'
          rw [hu', ← hsame] at hmem
          exact absurd rfl (hnew _ hmem _ (hgenerated hadds.generated))
        · refine hadds'.only id hadds.free ?_
          rw [hd]
          simp

variable (sha256Hex casefold) in
/-- Identity binding over all the states of a history. -/
structure OneToOneAndPermanent (operations : List Operation) : Prop where
  oneToOne : ∀ pre, pre <+: operations →
    Set.BijOn ((directoryAfter sha256Hex casefold pre).identityOf sha256Hex)
      (directoryAfter sha256Hex casefold pre).boundRecords
      (directoryAfter sha256Hex casefold pre).identityDocuments
  agrees : ∀ pre key b, pre <+: operations →
    (directoryAfter sha256Hex casefold pre).oidcIdentities key = some b →
    key = identityDocumentId sha256Hex b.oidcIssuer b.oidcSubject ∧
    ∃ id data, normalizeEmail casefold b.allowlistEmail = .ok id ∧
      (directoryAfter sha256Hex casefold pre).allowedUsers id = some data ∧
      data.oidcIssuer = some b.oidcIssuer ∧ data.oidcSubject = some b.oidcSubject ∧
      data.userId = b.userId
  binds : ∀ pre identity c d, pre ++ [.resolveOrBind identity] <+: operations →
    (directoryAfter sha256Hex casefold pre).resolveOrBind sha256Hex casefold identity = .ok (c,d) →
    c.oidcIssuer = identity.issuer ∧ c.oidcSubject = identity.subject ∧
    BoundTo sha256Hex (directoryAfter sha256Hex casefold (pre ++ [.resolveOrBind identity]))
      identity.issuer identity.subject c.userId
  permanent : ∀ pre mid identity userId c d,
    pre ++ mid ++ [.resolveOrBind identity] <+: operations →
    BoundTo sha256Hex (directoryAfter sha256Hex casefold pre) identity.issuer identity.subject userId →
    NoReset sha256Hex casefold pre mid userId →
    (directoryAfter sha256Hex casefold (pre ++ mid)).resolveOrBind sha256Hex casefold identity =
      .ok (c,d) → c.userId = userId
  ids : ∀ pre post id data, pre ++ post <+: operations →
    (directoryAfter sha256Hex casefold pre).allowedUsers id = some data →
    ∃ data', (directoryAfter sha256Hex casefold (pre ++ post)).allowedUsers id = some data' ∧
      data'.userId = data.userId ∧ data'.datasetId = data.datasetId
  disabled : ∀ pre identity c d id data, pre ++ [.resolveOrBind identity] <+: operations →
    (directoryAfter sha256Hex casefold pre).resolveOrBind sha256Hex casefold identity = .ok (c,d) →
    (directoryAfter sha256Hex casefold pre).allowedUsers id = some data → data.userId = c.userId →
    data.status = .active

theorem apply_resolved {identity : VerifiedIdentity} {c : UserContext}
    (h : d.resolveOrBind sha256Hex casefold identity = .ok (c,d')) :
    Operation.apply sha256Hex casefold d (.resolveOrBind identity) = d' := by
  simp [Operation.apply, Operation.run, h, Except.map]

theorem BoundTo.unique {issuer subject userId userId' : String}
    (h : BoundTo sha256Hex d issuer subject userId)
    (h' : BoundTo sha256Hex d issuer subject userId') : userId = userId' := by
  obtain ⟨b, hb, _, _, hu⟩ := h
  obtain ⟨b', hb', _, _, hu'⟩ := h'
  obtain rfl := Option.some.inj (hb.symm.trans hb')
  exact hu.symm.trans hu'

/-- The user of a context is active, and so is every record with the user's id. -/
theorem active_of_resolved {identity : VerifiedIdentity} {c : UserContext} {pre : List Operation}
    (fresh : FreshUserIds (pre ++ [.resolveOrBind identity]))
    (hr : (directoryAfter sha256Hex casefold pre).resolveOrBind sha256Hex casefold identity =
      .ok (c,d))
    {id : String} {data : AllowedUserDocument}
    (hd : (directoryAfter sha256Hex casefold pre).allowedUsers id = some data)
    (hu : data.userId = c.userId) : data.status = .active := by
  obtain ⟨hstep, hspeaks⟩ := resolveOrBind_ok (history_mirrored pre) hr
  obtain ⟨b, id', data', _, _, _, hd', _, _, hactive, hu', _⟩ := hspeaks.record
  obtain ⟨data'', hd'', hstatus, hu''⟩ := hstep.login_status hd
  have hdistinct : Distinct (pre ++ [.resolveOrBind identity])
      (directoryAfter sha256Hex casefold (pre ++ [.resolveOrBind identity])) := history_distinct fresh
  rw [directoryAfter_snoc, apply_resolved hr] at hdistinct
  obtain rfl := hdistinct.unique id id' data'' data' hd'' hd' (by rw [hu'', hu, hu'])
  obtain rfl := Option.some.inj (hd''.symm.trans hd')
  exact hstatus.symm.trans hactive

theorem FreshUserIds.earlier {operations : List Operation} (fresh : FreshUserIds operations)
    {pre : List Operation} (hpre : pre <+: operations) : FreshUserIds pre := by
  obtain ⟨post, rfl⟩ := hpre
  unfold FreshUserIds at fresh
  rw [List.filterMap_append] at fresh
  exact (List.nodup_append.mp fresh).1

theorem binding_one_to_one_permanent (sha256Hex casefold : String → String)
    (operations : List Operation) (fresh : FreshUserIds operations) :
    OneToOneAndPermanent sha256Hex casefold operations := by
  constructor
  case oneToOne =>
    intro pre _
    exact (history_mirrored pre).bijOn
  case agrees =>
    intro pre key b _ hb
    exact (history_mirrored pre).documented key b hb
  case binds =>
    intro pre identity c d _ hr
    obtain ⟨hstep, hspeaks⟩ := resolveOrBind_ok (history_mirrored pre) hr
    rw [directoryAfter_snoc, apply_resolved hr]
    exact ⟨hspeaks.issuer, hspeaks.subject, hspeaks.boundTo (hstep.mirrored (history_mirrored pre))⟩
  case permanent =>
    intro pre mid identity userId c d _ hb hreset hr
    have hbefore : BoundTo sha256Hex (directoryAfter sha256Hex casefold (pre ++ mid)) identity.issuer
        identity.subject userId := history_binding hb hreset
    obtain ⟨hstep, hspeaks⟩ := resolveOrBind_ok (history_mirrored (pre ++ mid)) hr
    have hafter := hstep.keeps_binding (history_mirrored (pre ++ mid)) hbefore (by simp)
    have hc := hspeaks.boundTo (hstep.mirrored (history_mirrored (pre ++ mid)))
    exact hc.unique hafter
  case ids =>
    intro pre post id data _ hd
    exact history_ids post hd
  case disabled =>
    intro pre identity c d id data hpre hr hd hu
    exact active_of_resolved (fresh.earlier hpre) hr hd hu

section Witness

def annClaims : VerifiedIdentity :=
  { issuer := "https://id.example.org/", subject := "auth0|ann", email := some "Ann@example.org",
    emailVerified := true, issuer_nonempty := by decide, subject_nonempty := by decide }

def benClaims : VerifiedIdentity :=
  { issuer := "https://id.example.org/", subject := "auth0|ben", email := some "ben@example.org",
    emailVerified := true, issuer_nonempty := by decide, subject_nonempty := by decide }

/-- The account that replaces the one of `benClaims`. -/
def benReplacement : VerifiedIdentity :=
  { issuer := "https://id.example.org/", subject := "auth0|ben2", email := some "ben@example.org",
    emailVerified := true, issuer_nonempty := by decide, subject_nonempty := by decide }

/-- Two invited users log in. The first reset confirms the wrong user and fails. -/
def annHistory : List Operation :=
  [.ensureInvitation "ann@example.org" "usr_1" "tesla_u_1",
   .ensureInvitation "ben@example.org" "usr_2" "tesla_u_2",
   .activate "ann@example.org",.activate "ben@example.org",
   .resolveOrBind annClaims,.resolveOrBind benClaims,
   .resetIdentity "ben@example.org" "usr_1",.resetIdentity "ben@example.org" "usr_2",
   .resolveOrBind benReplacement]

/-- The digests of the identities of the history. -/
def annDigest (text : String) : String :=
  if text = "https://id.example.org/\x00auth0|ann" then
    "569c49708e4a583837ea973f61aec1b28383de64ce0088f6a21adc633f3dd66d"
  else if text = "https://id.example.org/\x00auth0|ben" then
    "30747da2c5e2f956d39391977c71f3df70440a400f98070793e9c2f8ae9095c6"
  else if text = "https://id.example.org/\x00auth0|ben2" then
    "dd5e881703bfa0ab459f8ca2061f33ca303338026fcf60f398c6e8066d080134"
  else ""

/-- `casefold` of the emails of the history. -/
def annCasefold (text : String) : String :=
  if text = "Ann@example.org" then "ann@example.org" else text

theorem binding_one_to_one_permanent_ann :
    [annClaims,benClaims,benReplacement].map (fun identity =>
        ((directoryAfter annDigest annCasefold annHistory).resolveOrBind annDigest annCasefold
          identity).map (fun (c,_) => c.userId)) =
      [.ok "usr_1",
       .error (.identityMismatch "Invitation is bound to another identity"),
       .ok "usr_2"] ∧
    OneToOneAndPermanent annDigest annCasefold annHistory :=
  ⟨by decide +kernel,
    binding_one_to_one_permanent annDigest annCasefold annHistory
      (by unfold FreshUserIds; decide)⟩

end Witness

end Histories

end Woodhouse.Identity
