import Mathlib.Data.List.Pairwise
import Woodhouse.Certificates.Renewer

namespace Woodhouse.Certificates
open Effects

def VersionName.number? : VersionName → Option Nat
  | .number n => some n
  | _ => none

def Payload.release? : Payload → Option ReleaseDocument
  | .releaseManifest document => some document
  | _ => none

/-- The version of a material secret that a release names. -/
def ReleaseDocument.reference (document : ReleaseDocument) : Secret → Option Nat
  | .cert => document.certVersion.bind VersionName.number?
  | .key => document.keyVersion.bind VersionName.number?
  | .state => document.stateVersion.bind VersionName.number?
  | _ => none

/-- The secrets whose versions a release names. -/
def Secret.isMaterial : Secret → Bool
  | .cert | .key | .state => true
  | _ => false

theorem reference_material {document : ReleaseDocument} {secret : Secret} {n : Nat}
    (h : document.reference secret = some n) : secret.isMaterial = true := by
  cases secret with
  | cert | key | state => rfl
  | release | trustProfile | trustReadiness => cases h

/-- `later` names no lower version than `earlier` of any secret. -/
def noOlder (earlier later : ReleaseDocument) : Bool :=
  [Secret.cert,Secret.key,Secret.state].all (fun secret =>
    (earlier.reference secret).all (fun m => (later.reference secret).all (fun n => m ≤ n)))

theorem le_of_noOlder {earlier later : ReleaseDocument} (h : noOlder earlier later = true)
    {secret : Secret} {m n : Nat} (hm : earlier.reference secret = some m)
    (hn : later.reference secret = some n) : m ≤ n := by
  have hmem : secret ∈ [Secret.cert,Secret.key,Secret.state] := by
    have hmaterial := reference_material hm
    cases secret with
    | cert | key | state => decide
    | release | trustProfile | trustReadiness => cases hmaterial
  have hs := List.all_eq_true.mp h secret hmem
  rw [hm,hn] at hs
  simpa using hs

namespace SecretManager
variable (sm : SecretManager)

/-- The release manifests ever added, oldest first. -/
def published : List ReleaseDocument :=
  (sm.versions .release).filterMap (fun v => v.payload.release?)

def latestRelease : Option ReleaseDocument :=
  (sm.versions .release).getLast?.bind (fun v => v.payload.release?)

def Destroyed (secret : Secret) (n : Nat) : Prop :=
  ∃ v, sm.version secret n = some v ∧ v.destroyed = true

/-- The material the current release names is not destroyed. -/
def LiveReferences : Prop :=
  ∀ document, sm.latestRelease = some document → ∀ secret n,
    document.reference secret = some n → ¬ sm.Destroyed secret n

theorem version_add (s secret : Secret) (payload : Payload) (n : Nat) {v : Version}
    (h : (sm.add s payload).version secret n = some v) :
    sm.version secret n = some v ∨
    (secret = s ∧ n = (sm.versions s).length + 1 ∧ v = { payload }) := by
  unfold version at h ⊢
  split at h
  · cases h
  · rename_i hn
    rw [if_neg hn]
    by_cases hs : secret = s
    · subst hs
      simp only [add,Function.update_self] at h
      rcases Nat.lt_or_ge (n - 1) (sm.versions secret).length with hl | hl
      · rw [List.getElem?_append_left hl] at h
        exact .inl h
      · rw [List.getElem?_append_right hl] at h
        obtain ⟨hi,he⟩ := List.getElem?_eq_some_iff.mp h
        have hone : n - 1 - (sm.versions secret).length = 0 := by
          simp only [List.length_singleton] at hi
          omega
        simp only [hone,List.getElem_cons_zero] at he
        exact .inr ⟨rfl,by omega,he.symm⟩
    · simp only [add,Function.update_of_ne hs] at h
      exact .inl h

theorem destroyed_add {s secret : Secret} {payload : Payload} {n : Nat}
    (h : (sm.add s payload).Destroyed secret n) : sm.Destroyed secret n := by
  obtain ⟨v,hv,hd⟩ := h
  rcases sm.version_add s secret payload n hv with hv | ⟨_,_,rfl⟩
  · exact ⟨v,hv,hd⟩
  · cases hd

theorem destroyed_destroy {s secret : Secret} {m n : Nat}
    (h : (sm.destroy s m).Destroyed secret n) :
    sm.Destroyed secret n ∨ (secret = s ∧ n = m) := by
  obtain ⟨v,hv,hd⟩ := h
  unfold version at hv
  split at hv
  · cases hv
  · rename_i hn
    by_cases hs : secret = s
    · subst hs
      simp only [destroy,Function.update_self,List.getElem?_mapIdx] at hv
      obtain ⟨u,hu,he⟩ := Option.map_eq_some_iff.mp hv
      by_cases hm : n - 1 + 1 = m
      · exact .inr ⟨rfl,by omega⟩
      · rw [if_neg hm] at he
        subst he
        exact .inl ⟨u,by unfold version; rw [if_neg hn]; exact hu,hd⟩
    · simp only [destroy,Function.update_of_ne hs] at hv
      exact .inl ⟨v,by unfold version; rw [if_neg hn]; exact hv,hd⟩

theorem add_release (payload : Payload) :
    (sm.add .release payload).versions .release =
      sm.versions .release ++ [{ payload := payload }] := by
  simp [add]

theorem add_other {s secret : Secret} (hs : s ≠ secret) (payload : Payload) :
    (sm.add s payload).versions secret = sm.versions secret := by
  simp [add,Function.update_of_ne (Ne.symm hs)]

theorem published_add (s : Secret) (payload : Payload) :
    (sm.add s payload).published =
      sm.published ++ (if s = .release then payload.release?.toList else []) := by
  unfold published
  by_cases hs : s = .release
  · subst hs
    rw [add_release,List.filterMap_append,if_pos rfl]
    cases hp : payload.release? with
    | none => simp [hp]
    | some document => simp [hp]
  · rw [add_other sm hs,if_neg hs,List.append_nil]

theorem filterMap_mapIdx {α β : Type} {f : α → Option β} {g : Nat → α → α} (l : List α)
    (h : ∀ i a, f (g i a) = f a) : (l.mapIdx g).filterMap f = l.filterMap f := by
  induction l generalizing g with
  | nil => rfl
  | cons a l ih =>
    rw [List.mapIdx_cons]
    simp only [List.filterMap_cons,h,ih (fun i a => h (i + 1) a)]

theorem published_destroy (s : Secret) (n : Nat) : (sm.destroy s n).published = sm.published := by
  unfold published
  by_cases hs : s = .release
  · subst hs
    simp only [destroy,Function.update_self]
    refine filterMap_mapIdx _ ?_
    intro i v
    split <;> rfl
  · simp only [destroy,Function.update_of_ne (Ne.symm hs)]

theorem access_published {n : Nat} {value : SecretValue} {document : ReleaseDocument}
    (h : sm.access .release n = .ok value) (hd : value.data = .releaseManifest document) :
    document ∈ sm.published := by
  unfold access at h
  split at h
  · cases h
  · rename_i v hv
    split at h
    · cases h
    · cases h
      unfold version at hv
      split at hv
      · cases hv
      · refine List.mem_filterMap.mpr ⟨v,List.mem_of_getElem? hv,?_⟩
        simp only at hd
        rw [hd]
        rfl

theorem accessNamed_published {name : VersionName} {value : SecretValue}
    {document : ReleaseDocument} (h : sm.accessNamed .release name = .ok value)
    (hd : value.data = .releaseManifest document) : document ∈ sm.published := by
  cases name with
  | latest => exact sm.access_published h hd
  | number n => exact sm.access_published h hd
  | invalid text => cases h

/-- The current release was published last. -/
theorem latest_published {document : ReleaseDocument} (h : sm.latestRelease = some document) :
    ∃ before, sm.published = before ++ [document] := by
  unfold latestRelease at h
  obtain ⟨v,hv,hd⟩ := Option.bind_eq_some_iff.mp h
  obtain ⟨rest,hrest⟩ := List.getLast?_eq_some_iff.mp hv
  refine ⟨rest.filterMap (fun v => v.payload.release?),?_⟩
  unfold published
  rw [hrest,List.filterMap_append]
  simp [hd]

/-- Releases in the order of what they name, with only older material destroyed,
leave the material of the current one alone. -/
theorem live_of_ordered
    (ordered : sm.published.Pairwise (fun earlier later => noOlder earlier later = true))
    (behind : ∀ secret n, secret.isMaterial = true → sm.Destroyed secret n →
      ∃ document ∈ sm.published, ∃ m, document.reference secret = some m ∧ n < m) :
    sm.LiveReferences := by
  intro document hd secret n hn hdestroyed
  obtain ⟨before,hp⟩ := sm.latest_published hd
  obtain ⟨earlier,hm,m,hr,hlt⟩ := behind secret n (reference_material hn) hdestroyed
  rw [hp] at ordered hm
  rcases List.mem_append.mp hm with hm | hm
  · have hle := (List.pairwise_append.mp ordered).2.2 earlier hm document List.mem_cons_self
    have := le_of_noOlder hle hr hn
    omega
  · rw [List.mem_singleton.mp hm,hn] at hr
    cases hr
    omega

end SecretManager

/-- How an answered call relates the store before and after it. -/
inductive StoreStep (sm : SecretManager) : RenewalEvent → SecretManager → Prop
  | added (secret payload) :
      StoreStep sm ⟨.addSecretVersion secret payload,.ok ((sm.versions secret).length + 1)⟩
        (sm.add secret payload)
  | destroyed (secret n) :
      StoreStep sm ⟨.destroySecretVersion secret n,.ok ()⟩ (sm.destroy secret n)
  | read (secret name value) (stored : sm.accessNamed secret name = .ok value) :
      StoreStep sm ⟨.accessSecretVersion secret name,.ok value⟩ sm
  | other (e : RenewalEvent) (noAdd : ∀ secret payload n, e ≠ ⟨.addSecretVersion secret payload,.ok n⟩)
      (noRead : ∀ secret name value, e ≠ ⟨.accessSecretVersion secret name,.ok value⟩) :
      StoreStep sm e sm

theorem storeStep {sm sm' : SecretManager} {call : Call} {choice : Choice}
    {r : Except Exc call.Ret} (does : renewalMachine sm call choice = some (r,sm')) :
    StoreStep sm ⟨call,r⟩ sm' := by
  cases choice with
  | failure name =>
    obtain ⟨rfl,rfl⟩ := Prod.mk.inj (Option.some.inj does)
    refine .other _ ?_ ?_
    · intro _ _ _ he
      cases he
    · intro _ _ _ he
      cases he
  | success =>
    cases call with
    | accessSecretVersion secret name =>
      obtain ⟨hr,rfl⟩ := Prod.mk.inj (Option.some.inj does)
      cases r with
      | ok value => exact .read secret name value hr
      | error e => exact .other _ (fun _ _ _ he => by cases he) (fun _ _ _ he => by cases he)
    | addSecretVersion secret payload =>
      obtain ⟨rfl,rfl⟩ := Prod.mk.inj (Option.some.inj does)
      exact .added secret payload
    | destroySecretVersion secret n =>
      simp only [renewalMachine] at does
      split at does
      · obtain ⟨rfl,rfl⟩ := Prod.mk.inj (Option.some.inj does)
        exact .other _ (fun _ _ _ he => by cases he) (fun _ _ _ he => by cases he)
      · obtain ⟨rfl,rfl⟩ := Prod.mk.inj (Option.some.inj does)
        exact .destroyed secret n
    | listSecretVersions secret | resetInstance =>
      obtain ⟨rfl,rfl⟩ := Prod.mk.inj (Option.some.inj does)
      exact .other _ (fun _ _ _ he => by cases he) (fun _ _ _ he => by cases he)
    | _ => cases does
  | _ =>
    cases call <;> first
      | (obtain ⟨rfl,rfl⟩ := Prod.mk.inj (Option.some.inj does)
         exact .other _ (fun _ _ _ he => by cases he) (fun _ _ _ he => by cases he))
      | cases does

end Woodhouse.Certificates
