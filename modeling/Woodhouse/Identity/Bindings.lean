import Mathlib.Data.Set.Function
import Woodhouse.Identity.Store

namespace Woodhouse.Identity

variable (sha256Hex casefold : String → String)

/-- Identity documents and bound allowlist records mirror each other. -/
structure Mirrored (d : Directory) : Prop where
  documented : ∀ key b, d.oidcIdentities key = some b →
    key = identityDocumentId sha256Hex b.oidcIssuer b.oidcSubject ∧
    ∃ id data, normalizeEmail casefold b.allowlistEmail = .ok id ∧
      d.allowedUsers id = some data ∧ data.oidcIssuer = some b.oidcIssuer ∧
      data.oidcSubject = some b.oidcSubject ∧ data.userId = b.userId
  bound : ∀ id data issuer subject, d.allowedUsers id = some data →
    data.oidcIssuer = some issuer → data.oidcSubject = some subject →
    ∃ b, d.oidcIdentities (identityDocumentId sha256Hex issuer subject) = some b ∧
      b.oidcIssuer = issuer ∧ b.oidcSubject = subject ∧
      normalizeEmail casefold b.allowlistEmail = .ok id
  paired : ∀ id data, d.allowedUsers id = some data →
    data.oidcIssuer.isNone = data.oidcSubject.isNone

/-- What a committed operation did. -/
inductive DirectoryStep (d : Directory) : Operation → Directory → Prop
  | unchanged (operation : Operation) : DirectoryStep d operation d
  | bound (identity : VerifiedIdentity) (email id : String) (data : AllowedUserDocument)
      (key : normalizeEmail casefold email = .ok id) (held : d.allowedUsers id = some data)
      (unbound : data.oidcIssuer = none) (active : data.status = .active)
      (free : d.oidcIdentities (identityDocumentId sha256Hex identity.issuer identity.subject) = none) :
      DirectoryStep d (.resolveOrBind identity)
        ((d.setUser id { data with
            oidcIssuer := some identity.issuer, oidcSubject := some identity.subject }).createIdentity
          (identityDocumentId sha256Hex identity.issuer identity.subject)
          { allowlistEmail := email, oidcIssuer := identity.issuer,
            oidcSubject := identity.subject, userId := data.userId })
  | invited (email id newUserId newDatasetId : String) (free : d.allowedUsers id = none) :
      DirectoryStep d (.ensureInvitation email newUserId newDatasetId)
        (d.setUser id { userId := newUserId, datasetId := newDatasetId, status := .disabled,
                        oidcIssuer := none, oidcSubject := none })
  | relabelled (operation : Operation) (id : String) (data : AllowedUserDocument)
      (status : UserStatus) (held : d.allowedUsers id = some data)
      (admin : ∀ identity, operation ≠ .resolveOrBind identity) :
      DirectoryStep d operation (d.setUser id { data with status })
  | reset (email id expectedUserId : String) (data : AllowedUserDocument) (user : AllowedUser)
      (held : d.allowedUsers id = some data) (confirmed : data.userId = expectedUserId)
      (issuer : user.oidcIssuer = data.oidcIssuer) (subject : user.oidcSubject = data.oidcSubject) :
      DirectoryStep d (.resetIdentity email expectedUserId)
        ((d.withoutIdentity sha256Hex user).setUser id
          { data with oidcIssuer := none, oidcSubject := none })

/-- The user an identity is bound to speaks through it. -/
structure Speaks (d : Directory) (issuer subject : String) (c : UserContext) : Prop where
  record : ∃ b id data,
    d.oidcIdentities (identityDocumentId sha256Hex issuer subject) = some b ∧
    b.userId = c.userId ∧ normalizeEmail casefold b.allowlistEmail = .ok id ∧
    d.allowedUsers id = some data ∧ data.oidcIssuer = some issuer ∧
    data.oidcSubject = some subject ∧ data.status = .active ∧ data.userId = c.userId ∧
    data.datasetId = c.datasetId
  issuer : c.oidcIssuer = issuer
  subject : c.oidcSubject = subject

variable {sha256Hex casefold} {d d' : Directory}

theorem map_snd_ok {α : Type} {x : Except Exc (α × Directory)} (h : x.map Prod.snd = .ok d') :
    ∃ a, x = .ok (a,d') := by
  cases x with
  | error e => cases h
  | ok pair =>
    obtain ⟨a, e⟩ := pair
    obtain rfl := Except.ok.inj h
    exact ⟨a, rfl⟩

section Transactions

theorem allowedUser_ok {email id : String} {found : Option AllowedUserDocument}
    (h : d.allowedUser casefold email = .ok (id,found)) :
    normalizeEmail casefold email = .ok id ∧ d.allowedUsers id = found := by
  unfold Directory.allowedUser at h
  split at h
  · cases h
  · rename_i id' hid
    obtain ⟨rfl, hfound⟩ := Prod.mk.inj (Except.ok.inj h)
    exact ⟨hid, hfound⟩

theorem resolveBound_speaks {identity : VerifiedIdentity} {binding : IdentityDocument}
    {c : UserContext}
    (hb : d.oidcIdentities (identityDocumentId sha256Hex identity.issuer identity.subject) =
      some binding)
    (h : d.resolveBound casefold identity binding = .ok c) :
    Speaks sha256Hex casefold d identity.issuer identity.subject c := by
  unfold Directory.resolveBound at h
  split at h
  · cases h
  · split at h
    · cases h
    · cases h
    · rename_i id data hread
      obtain ⟨hid, hdata⟩ := allowedUser_ok hread
      split at h
      · cases h
      · rename_i user huser
        split at h
        · cases h
        · rename_i hsame
          obtain ⟨hactive, hissuer, hsubject, rfl⟩ := context_eq h
          obtain rfl := recordFromData_eq huser
          exact ⟨⟨binding, id, data, hb, not_not.mp hsame, hid, hdata, hissuer, hsubject, hactive,
            rfl, rfl⟩, rfl, rfl⟩

/-- Under the mirror a first login finds an unbound record of an active user. -/
theorem bindFirst_ok {identity : VerifiedIdentity} {c : UserContext}
    (hm : Mirrored sha256Hex casefold d)
    (hfree : d.oidcIdentities (identityDocumentId sha256Hex identity.issuer identity.subject) = none)
    (h : d.bindFirst sha256Hex casefold identity = .ok (c,d')) :
    DirectoryStep sha256Hex casefold d (.resolveOrBind identity) d' ∧
      Speaks sha256Hex casefold d' identity.issuer identity.subject c := by
  unfold Directory.bindFirst at h
  split at h
  · cases h
  · rename_i email _
    split at h
    · cases h
    · cases h
    · rename_i id data hread
      obtain ⟨hid, hdata⟩ := allowedUser_ok hread
      split at h
      · cases h
      · rename_i user huser
        obtain rfl := recordFromData_eq huser
        split at h
        · cases h
        · rename_i hactive
          have hactive := requireActive_ok hactive
          split at h
          · cases h
          · rename_i user' bound hbind
            unfold Directory.bindRecord at hbind
            split at hbind
            · rename_i hbound
              split at hbind
              · cases hbind
              · rename_i hsame
                -- a record bound to this identity has its document
                obtain ⟨hissuer, hsubject⟩ := Prod.mk.inj (not_not.mp hsame)
                obtain ⟨b, hb, _⟩ := hm.bound id data _ _ hdata hissuer hsubject
                rw [hfree] at hb
                cases hb
            · rename_i hunbound
              push Not at hunbound
              obtain ⟨rfl, rfl⟩ := Prod.mk.inj (Except.ok.inj hbind)
              split at h
              · cases h
              · rename_i c' hc
                obtain ⟨_, _, _, rfl⟩ := context_eq hc
                obtain ⟨rfl, rfl⟩ := Prod.mk.inj (Except.ok.inj h)
                refine ⟨.bound identity email id data hid hdata hunbound.1 hactive hfree, ?_⟩
                refine ⟨⟨_, id, _, Function.update_self .., rfl, hid, Function.update_self .., rfl,
                  rfl, hactive, rfl, rfl⟩, rfl, rfl⟩

theorem resolveOrBind_ok {identity : VerifiedIdentity} {c : UserContext}
    (hm : Mirrored sha256Hex casefold d)
    (h : d.resolveOrBind sha256Hex casefold identity = .ok (c,d')) :
    DirectoryStep sha256Hex casefold d (.resolveOrBind identity) d' ∧
      Speaks sha256Hex casefold d' identity.issuer identity.subject c := by
  unfold Directory.resolveOrBind at h
  split at h
  · rename_i binding hb
    cases hc : d.resolveBound casefold identity binding with
    | error e =>
      rw [hc] at h
      cases h
    | ok c' =>
      rw [hc] at h
      obtain ⟨rfl, rfl⟩ := Prod.mk.inj (Except.ok.inj h)
      exact ⟨.unchanged _, resolveBound_speaks hb hc⟩
  · rename_i hfree
    exact bindFirst_ok hm hfree h

theorem ensureInvitation_step {email newUserId newDatasetId : String} {user : AllowedUser}
    (h : d.ensureInvitation casefold email newUserId newDatasetId = .ok (user,d')) :
    DirectoryStep sha256Hex casefold d (.ensureInvitation email newUserId newDatasetId) d' := by
  unfold Directory.ensureInvitation at h
  split at h
  · cases h
  · split at h
    · cases h
    · rename_i id data hread
      cases hr : recordFromData _ data with
      | error e =>
        rw [hr] at h
        cases h
      | ok user' =>
        rw [hr] at h
        obtain ⟨_, rfl⟩ := Prod.mk.inj (Except.ok.inj h)
        exact .unchanged _
    · rename_i id hread
      obtain ⟨_, hfree⟩ := allowedUser_ok hread
      obtain ⟨_, rfl⟩ := Prod.mk.inj (Except.ok.inj h)
      exact .invited email id newUserId newDatasetId hfree

theorem setStatus_step {email : String} {status : UserStatus} {user : AllowedUser}
    (operation : Operation) (admin : ∀ identity, operation ≠ .resolveOrBind identity)
    (h : d.setStatus casefold email status = .ok (user,d')) :
    DirectoryStep sha256Hex casefold d operation d' := by
  unfold Directory.setStatus at h
  split at h
  · cases h
  · split at h
    · cases h
    · cases h
    · rename_i id data hread
      obtain ⟨_, hdata⟩ := allowedUser_ok hread
      split at h
      · cases h
      · obtain ⟨_, rfl⟩ := Prod.mk.inj (Except.ok.inj h)
        exact .relabelled operation id data status hdata admin

theorem resetIdentity_step {email expectedUserId : String} {user : AllowedUser}
    (h : d.resetIdentity sha256Hex casefold email expectedUserId = .ok (user,d')) :
    DirectoryStep sha256Hex casefold d (.resetIdentity email expectedUserId) d' := by
  unfold Directory.resetIdentity at h
  split at h
  · cases h
  · split at h
    · cases h
    · cases h
    · rename_i id data hread
      obtain ⟨_, hdata⟩ := allowedUser_ok hread
      split at h
      · cases h
      · rename_i user' huser
        split at h
        · cases h
        · rename_i hsame
          obtain ⟨_, rfl⟩ := Prod.mk.inj (Except.ok.inj h)
          obtain rfl := recordFromData_eq huser
          exact .reset email id expectedUserId data _ hdata (not_not.mp hsame) rfl rfl

theorem run_step {operation : Operation} (hm : Mirrored sha256Hex casefold d)
    (h : operation.run sha256Hex casefold d = .ok d') :
    DirectoryStep sha256Hex casefold d operation d' := by
  cases operation with
  | resolveOrBind identity =>
    obtain ⟨c, hc⟩ := map_snd_ok h
    exact (resolveOrBind_ok hm hc).1
  | ensureInvitation email newUserId newDatasetId =>
    obtain ⟨user, hu⟩ := map_snd_ok h
    exact ensureInvitation_step hu
  | activate email =>
    obtain ⟨user, hu⟩ := map_snd_ok h
    exact setStatus_step _ (fun _ => by simp) hu
  | disable email =>
    obtain ⟨user, hu⟩ := map_snd_ok h
    exact setStatus_step _ (fun _ => by simp) hu
  | resetIdentity email expectedUserId =>
    obtain ⟨user, hu⟩ := map_snd_ok h
    exact resetIdentity_step hu

theorem apply_step {operation : Operation} (hm : Mirrored sha256Hex casefold d) :
    DirectoryStep sha256Hex casefold d operation (operation.apply sha256Hex casefold d) := by
  unfold Operation.apply
  split
  · rename_i hrun
    exact run_step hm hrun
  · exact .unchanged operation

end Transactions

section Mirror

theorem mirrored_empty : Mirrored sha256Hex casefold emptyDirectory := by
  constructor
  · intro key b hb
    cases hb
  · intro id data issuer subject hd
    cases hd
  · intro id data hd
    cases hd

/-- A write of a record that keeps the identity on it keeps the mirror. -/
theorem Mirrored.setUser {id : String} {data data' : AllowedUserDocument}
    (hm : Mirrored sha256Hex casefold d) (held : d.allowedUsers id = some data)
    (hissuer : data'.oidcIssuer = data.oidcIssuer) (hsubject : data'.oidcSubject = data.oidcSubject)
    (hid : data'.userId = data.userId) : Mirrored sha256Hex casefold (d.setUser id data') := by
  constructor
  · intro key b hb
    obtain ⟨hkey, id₀, data₀, he, hd, hi, hs, hu⟩ := hm.documented key b hb
    refine ⟨hkey, id₀, ?_⟩
    by_cases hsame : id₀ = id
    · subst hsame
      obtain rfl := Option.some.inj (held.symm.trans hd)
      exact ⟨data', he, d.setUser_self .., hissuer.trans hi, hsubject.trans hs, hid.trans hu⟩
    · exact ⟨data₀, he, (d.setUser_other hsame data').trans hd, hi, hs, hu⟩
  · intro id₀ data₀ issuer subject hd hi hs
    rcases Directory.setUser_eq_some hd with ⟨rfl, rfl⟩ | ⟨_, hd⟩
    · exact hm.bound id₀ data issuer subject held (hissuer.symm.trans hi) (hsubject.symm.trans hs)
    · exact hm.bound id₀ data₀ issuer subject hd hi hs
  · intro id₀ data₀ hd
    rcases Directory.setUser_eq_some hd with ⟨rfl, rfl⟩ | ⟨_, hd⟩
    · rw [hissuer, hsubject]
      exact hm.paired id₀ data held
    · exact hm.paired id₀ data₀ hd

theorem Mirrored.bind {identity : VerifiedIdentity} {email id : String}
    {data : AllowedUserDocument} (hm : Mirrored sha256Hex casefold d)
    (key : normalizeEmail casefold email = .ok id) (held : d.allowedUsers id = some data)
    (unbound : data.oidcIssuer = none)
    (free : d.oidcIdentities (identityDocumentId sha256Hex identity.issuer identity.subject) = none) :
    Mirrored sha256Hex casefold
      ((d.setUser id { data with
          oidcIssuer := some identity.issuer, oidcSubject := some identity.subject }).createIdentity
        (identityDocumentId sha256Hex identity.issuer identity.subject)
        { allowlistEmail := email, oidcIssuer := identity.issuer,
          oidcSubject := identity.subject, userId := data.userId }) := by
  constructor
  · intro key' b hb
    by_cases hkey : key' = identityDocumentId sha256Hex identity.issuer identity.subject
    · subst hkey
      rw [Directory.createIdentity_self] at hb
      obtain rfl := Option.some.inj hb
      exact ⟨rfl, id, _, key, Directory.setUser_self .., rfl, rfl, rfl⟩
    · rw [Directory.createIdentity_other _ hkey] at hb
      obtain ⟨hkey', id₀, data₀, he, hd, hi, hs, hu⟩ := hm.documented key' b hb
      have hne : id₀ ≠ id := by
        intro hsame
        subst hsame
        obtain rfl := Option.some.inj (held.symm.trans hd)
        rw [unbound] at hi
        cases hi
      exact ⟨hkey', id₀, data₀, he, (d.setUser_other hne _).trans hd, hi, hs, hu⟩
  · intro id₀ data₀ issuer subject hd hi hs
    rw [Directory.createIdentity_users] at hd
    rcases Directory.setUser_eq_some hd with ⟨rfl, rfl⟩ | ⟨_, hd⟩
    · obtain rfl := Option.some.inj hi
      obtain rfl := Option.some.inj hs
      exact ⟨_, Directory.createIdentity_self .., rfl, rfl, key⟩
    · obtain ⟨b, hb, hrest⟩ := hm.bound id₀ data₀ issuer subject hd hi hs
      refine ⟨b, ?_, hrest⟩
      rw [Directory.createIdentity_other]
      · exact hb
      · intro hkey
        rw [hkey, free] at hb
        cases hb
  · intro id₀ data₀ hd
    rw [Directory.createIdentity_users] at hd
    rcases Directory.setUser_eq_some hd with ⟨rfl, rfl⟩ | ⟨_, hd⟩
    · rfl
    · exact hm.paired id₀ data₀ hd

/-- A record and its identity document are cleared together. -/
theorem Mirrored.reset {id : String} {data : AllowedUserDocument} {user : AllowedUser}
    (hm : Mirrored sha256Hex casefold d) (held : d.allowedUsers id = some data)
    (hissuer : user.oidcIssuer = data.oidcIssuer) (hsubject : user.oidcSubject = data.oidcSubject) :
    Mirrored sha256Hex casefold
      ((d.withoutIdentity sha256Hex user).setUser id
        { data with oidcIssuer := none, oidcSubject := none }) := by
  have hpaired := hm.paired id data held
  unfold Directory.withoutIdentity
  rw [hissuer, hsubject]
  cases hi : data.oidcIssuer with
  | none =>
    have hs : data.oidcSubject = none := by
      simpa [hi] using hpaired
    exact hm.setUser held hi.symm hs.symm rfl
  | some issuer =>
    obtain ⟨subject, hs⟩ : ∃ subject, data.oidcSubject = some subject := by
      cases hs : data.oidcSubject with
      | none => simp [hi,hs] at hpaired
      | some subject => exact ⟨subject, rfl⟩
    rw [hs]
    obtain ⟨own, hown, _, _, hownEmail⟩ := hm.bound id data issuer subject held hi hs
    constructor
    · intro key b hb
      have hkey : key ≠ identityDocumentId sha256Hex issuer subject := by
        intro hkey
        subst hkey
        rw [Directory.setUser_identities, Directory.deleteIdentity_self] at hb
        cases hb
      rw [Directory.setUser_identities, Directory.deleteIdentity_other _ hkey] at hb
      obtain ⟨hkey', id₀, data₀, he, hd, hi₀, hs₀, hu⟩ := hm.documented key b hb
      have hne : id₀ ≠ id := by
        intro hsame
        subst hsame
        obtain rfl := Option.some.inj (held.symm.trans hd)
        obtain rfl := Option.some.inj (hi.symm.trans hi₀)
        obtain rfl := Option.some.inj (hs.symm.trans hs₀)
        exact hkey hkey'
      exact ⟨hkey', id₀, data₀, he, (Directory.setUser_other _ hne _).trans hd, hi₀, hs₀, hu⟩
    · intro id₀ data₀ issuer₀ subject₀ hd hi₀ hs₀
      rcases Directory.setUser_eq_some hd with ⟨rfl, rfl⟩ | ⟨hsame, hd⟩
      · cases hi₀
      · obtain ⟨b, hb, hbi, hbs, hbe⟩ := hm.bound id₀ data₀ issuer₀ subject₀ hd hi₀ hs₀
        refine ⟨b, ?_, hbi, hbs, hbe⟩
        rw [Directory.setUser_identities, Directory.deleteIdentity_other]
        · exact hb
        · intro hkey
          rw [hkey, hown] at hb
          obtain rfl := Option.some.inj hb
          exact hsame (Except.ok.inj (hbe.symm.trans hownEmail))
    · intro id₀ data₀ hd
      rcases Directory.setUser_eq_some hd with ⟨rfl, rfl⟩ | ⟨_, hd⟩
      · rfl
      · exact hm.paired id₀ data₀ hd

theorem Mirrored.invite {id newUserId newDatasetId : String} (hm : Mirrored sha256Hex casefold d)
    (free : d.allowedUsers id = none) :
    Mirrored sha256Hex casefold
      (d.setUser id { userId := newUserId, datasetId := newDatasetId, status := .disabled,
                      oidcIssuer := none, oidcSubject := none }) := by
  constructor
  · intro key b hb
    obtain ⟨hkey, id₀, data₀, he, hd, hrest⟩ := hm.documented key b hb
    have hne : id₀ ≠ id := by
      intro hsame
      rw [hsame, free] at hd
      cases hd
    exact ⟨hkey, id₀, data₀, he, (d.setUser_other hne _).trans hd, hrest⟩
  · intro id₀ data₀ issuer subject hd hi hs
    rcases Directory.setUser_eq_some hd with ⟨rfl, rfl⟩ | ⟨_, hd⟩
    · cases hi
    · exact hm.bound id₀ data₀ issuer subject hd hi hs
  · intro id₀ data₀ hd
    rcases Directory.setUser_eq_some hd with ⟨rfl, rfl⟩ | ⟨_, hd⟩
    · rfl
    · exact hm.paired id₀ data₀ hd

theorem DirectoryStep.mirrored {operation : Operation} (hm : Mirrored sha256Hex casefold d)
    (hs : DirectoryStep sha256Hex casefold d operation d') : Mirrored sha256Hex casefold d' := by
  cases hs with
  | unchanged => exact hm
  | bound identity email id data key held unbound active free => exact hm.bind key held unbound free
  | invited email id newUserId newDatasetId free => exact hm.invite free
  | relabelled _ id data status held admin => exact hm.setUser held rfl rfl rfl
  | reset email id expectedUserId data user held confirmed issuer subject =>
    exact hm.reset held issuer subject

end Mirror

end Woodhouse.Identity
