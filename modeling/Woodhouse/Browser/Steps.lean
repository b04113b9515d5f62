import Woodhouse.Browser.Requests
import Woodhouse.Identity.Bindings

namespace Woodhouse.Browser
open Effects Identity

/-- A call that leaves the collections as they were. -/
def quiet : BrowserEvent → Bool
  | ⟨.utcNow,_⟩ | ⟨.exchangeCode ..,_⟩ | ⟨.decodeJwt ..,_⟩ => true
  | ⟨_,.error _⟩ => true
  | _ => false

section Steps
variable (sha256Hex casefold : String → String) (w : World)

/-- What one answered call did to the world. -/
inductive WorldStep : (call : Call) → Except Exc call.Ret → World → Prop
  | drew (bytes : Nat) (text : String) (fresh : text ∉ w.drawn) :
      WorldStep (.tokenUrlsafe bytes) (.ok text) { w with drawn := text :: w.drawn }
  | loginCreated (state : String) (login : PendingBrowserLogin)
      (free : w.logins (sha256Hex state) = none) :
      WorldStep (.createLogin state login) (.ok ())
        { w with logins := Function.update w.logins (sha256Hex state) (some login) }
  | consumed (state : String) (now : Int) (login : PendingBrowserLogin)
      (held : w.logins (sha256Hex state) = some login) (unexpired : now < login.expiresAt) :
      WorldStep (.consumeLogin state now) (.ok login)
        { w with logins := Function.update w.logins (sha256Hex state) none }
  | resolved (identity : VerifiedIdentity) (context : UserContext) (directory : Directory)
      (commit : w.directory.resolveOrBind sha256Hex casefold identity = .ok (context,directory)) :
      WorldStep (.resolveOrBind identity) (.ok context) { w with directory }
  | sessionCreated (token : String) (session : BrowserSession)
      (free : w.sessions (sha256Hex token) = none) :
      WorldStep (.createSession token session) (.ok ())
        { w with sessions := Function.update w.sessions (sha256Hex token) (some session) }
  | sessionRead (token : String) :
      WorldStep (.getSession token) (.ok (w.sessions (sha256Hex token))) w
  | sessionDeleted (token : String) :
      WorldStep (.deleteSession token) (.ok ())
        { w with sessions := Function.update w.sessions (sha256Hex token) none }
  | administered (operation : Operation) (directory : Directory)
      (commit : operation.run sha256Hex casefold w.directory = .ok directory) :
      WorldStep (.administer operation) (.ok ()) { w with directory }
  | unchanged (call : Call) (r : Except Exc call.Ret) (none : quiet ⟨call,r⟩ = true) :
      WorldStep call r w

variable {sha256Hex casefold} {w} {w' : World}

theorem quiet_error (call : Call) (e : Exc) : quiet ⟨call,.error e⟩ = true := by
  cases call <;> rfl

theorem worldStep {call : Call} {choice : Choice} {r : Except Exc call.Ret}
    (does : browserMachine sha256Hex casefold w call choice = some (r,w')) :
    WorldStep sha256Hex casefold w call r w' := by
  unfold browserMachine at does
  split at does
  · obtain ⟨rfl, rfl⟩ := Prod.mk.inj (Option.some.inj does)
    exact .unchanged _ _ rfl
  · split at does
    · cases does
    · rename_i fresh
      obtain ⟨rfl, rfl⟩ := Prod.mk.inj (Option.some.inj does)
      exact .drew _ _ fresh
  · rename_i state login
    have hx := Option.some.inj does
    unfold World.createLogin at hx
    split at hx
    · obtain ⟨rfl, rfl⟩ := Prod.mk.inj hx
      exact .unchanged _ _ rfl
    · rename_i free
      obtain ⟨rfl, rfl⟩ := Prod.mk.inj hx
      exact .loginCreated _ _ free
  · have hx := Option.some.inj does
    unfold World.consumeLogin at hx
    split at hx
    · obtain ⟨rfl, rfl⟩ := Prod.mk.inj hx
      exact .unchanged _ _ rfl
    · rename_i held
      split at hx
      · obtain ⟨rfl, rfl⟩ := Prod.mk.inj hx
        exact .unchanged _ _ rfl
      · rename_i hlive
        obtain ⟨rfl, rfl⟩ := Prod.mk.inj hx
        exact .consumed _ _ _ held (by omega)
  · obtain ⟨rfl, rfl⟩ := Prod.mk.inj (Option.some.inj does)
    exact .unchanged _ _ rfl
  · obtain ⟨rfl, rfl⟩ := Prod.mk.inj (Option.some.inj does)
    exact .unchanged _ _ rfl
  · have hx := Option.some.inj does
    unfold World.resolveOrBind at hx
    split at hx
    · obtain ⟨rfl, rfl⟩ := Prod.mk.inj hx
      exact .unchanged _ _ rfl
    · rename_i commit
      obtain ⟨rfl, rfl⟩ := Prod.mk.inj hx
      exact .resolved _ _ _ commit
  · have hx := Option.some.inj does
    unfold World.createSession at hx
    split at hx
    · obtain ⟨rfl, rfl⟩ := Prod.mk.inj hx
      exact .unchanged _ _ rfl
    · rename_i free
      obtain ⟨rfl, rfl⟩ := Prod.mk.inj hx
      exact .sessionCreated _ _ free
  · obtain ⟨rfl, rfl⟩ := Prod.mk.inj (Option.some.inj does)
    exact .sessionRead _
  · obtain ⟨rfl, rfl⟩ := Prod.mk.inj (Option.some.inj does)
    exact .sessionDeleted _
  · have hx := Option.some.inj does
    unfold World.administer at hx
    split at hx
    · obtain ⟨rfl, rfl⟩ := Prod.mk.inj hx
      exact .unchanged _ _ rfl
    · rename_i commit
      obtain ⟨rfl, rfl⟩ := Prod.mk.inj hx
      exact .administered _ _ commit
  · obtain ⟨rfl, rfl⟩ := Prod.mk.inj (Option.some.inj does)
    exact .unchanged _ _ (quiet_error _ _)
  · cases does

end Steps

section Runs
variable {ι : Type} [DecidableEq ι] {α : Type} {sha256Hex casefold : String → String}
  {ps₀ ps : ι → Browsing α} {w₀ w : World} {log : BrowserLog ι}

/-- A random token belongs to the request that drew it. -/
theorem drawn_by_one (run : Run (browserMachine sha256Hex casefold) ps₀ w₀ log ps w) {i j : ι}
    {text : String} {bytes bytes' : Nat} (hi : (i,⟨.tokenUrlsafe bytes,.ok text⟩) ∈ log)
    (hj : (j,⟨.tokenUrlsafe bytes',.ok text⟩) ∈ log) : i = j := by
  have hall := run.invariant
    (I := fun log w => (∀ i bytes text, (i,⟨.tokenUrlsafe bytes,.ok text⟩) ∈ log → text ∈ w.drawn) ∧
      ∀ i j bytes bytes' text, (i,⟨.tokenUrlsafe bytes,.ok text⟩) ∈ log →
        (j,⟨.tokenUrlsafe bytes',.ok text⟩) ∈ log → i = j)
    ⟨by simp, by simp⟩ ?_
  · exact hall.2 i j bytes bytes' text hi hj
  · intro log ps w k call _ choice r w' _ _ does ih
    obtain ⟨hdrawn, hone⟩ := ih
    have hs := worldStep does
    by_cases hcall : ∃ bytes text, (⟨call,r⟩ : BrowserEvent) = ⟨.tokenUrlsafe bytes,.ok text⟩
    · obtain ⟨bytes₀, text₀, he⟩ := hcall
      cases he
      cases hs with
      | drew _ _ fresh =>
        constructor
        · intro i bytes text hm
          rcases List.mem_append.mp hm with hm | hm
          · exact List.mem_cons_of_mem _ (hdrawn i bytes text hm)
          · cases List.mem_singleton.mp hm
            exact List.mem_cons_self ..
        · intro i j bytes bytes' text hm hm'
          rcases List.mem_append.mp hm with hm | hm
          · rcases List.mem_append.mp hm' with hm' | hm'
            · exact hone i j bytes bytes' text hm hm'
            · cases List.mem_singleton.mp hm'
              exact absurd (hdrawn i bytes _ hm) fresh
          · cases List.mem_singleton.mp hm
            rcases List.mem_append.mp hm' with hm' | hm'
            · exact absurd (hdrawn j bytes' _ hm') fresh
            · cases List.mem_singleton.mp hm'
              rfl
      | unchanged _ _ hquiet => cases hquiet
    · have hsame : w'.drawn = w.drawn := by
        cases hs with
        | drew bytes text => exact absurd ⟨bytes, text, rfl⟩ hcall
        | _ => rfl
      have hold : ∀ i bytes text, (i,⟨.tokenUrlsafe bytes,.ok text⟩) ∈ log ++ [(k,⟨call,r⟩)] →
          (i,⟨.tokenUrlsafe bytes,.ok text⟩) ∈ log := by
        intro i bytes text hm
        rcases List.mem_append.mp hm with hm | hm
        · exact hm
        · have he := congrArg Prod.snd (List.mem_singleton.mp hm)
          exact absurd ⟨bytes, text, he.symm⟩ hcall
      constructor
      · intro i bytes text hm
        rw [hsame]
        exact hdrawn i bytes text (hold i bytes text hm)
      · intro i j bytes bytes' text hm hm'
        exact hone i j bytes bytes' text (hold i bytes text hm) (hold j bytes' text hm')

/-- A login document was created in the run, if it was not there before. -/
theorem login_created (run : Run (browserMachine sha256Hex casefold) ps₀ w₀ log ps w) {key : String}
    (hnone : w₀.logins key = none) {login : PendingBrowserLogin} (hl : w.logins key = some login) :
    ∃ j state, (j,⟨.createLogin state login,.ok ()⟩) ∈ log ∧ sha256Hex state = key := by
  have hall := run.invariant (I := fun log w => ∀ login, w.logins key = some login →
    ∃ j state, (j,⟨.createLogin state login,.ok ()⟩) ∈ log ∧ sha256Hex state = key) ?_ ?_
  · exact hall login hl
  · intro login hl
    rw [hnone] at hl
    cases hl
  · intro log ps w i call _ choice r w' _ _ does ih login hl
    have hkeep : w.logins key = some login → ∃ j state,
        (j,⟨.createLogin state login,.ok ()⟩) ∈ log ++ [(i,⟨call,r⟩)] ∧ sha256Hex state = key := by
      intro hold
      obtain ⟨j, state, hm, hkey⟩ := ih login hold
      exact ⟨j, state, List.mem_append_left _ hm, hkey⟩
    have hs := worldStep does
    cases hs with
    | loginCreated state login' free =>
      by_cases hkey : key = sha256Hex state
      · subst hkey
        obtain rfl : login' = login := by simpa using hl
        exact ⟨i, state, by simp, rfl⟩
      · exact hkeep (by simpa [Function.update_of_ne hkey] using hl)
    | consumed state now login' held unexpired =>
      by_cases hkey : key = sha256Hex state
      · subst hkey
        simp at hl
      · exact hkeep (by simpa [Function.update_of_ne hkey] using hl)
    | _ => exact hkeep hl

/-- A session document was created in the run and not deleted since. -/
theorem session_created (run : Run (browserMachine sha256Hex casefold) ps₀ w₀ log ps w)
    {key : String} (hnone : w₀.sessions key = none) {session : BrowserSession}
    (hsession : w.sessions key = some session) :
    ∃ pre post j token, log = pre ++ (j,⟨.createSession token session,.ok ()⟩) :: post ∧
      sha256Hex token = key ∧
      ∀ j' token', (j',⟨.deleteSession token',.ok ()⟩) ∈ post → sha256Hex token' ≠ key := by
  have hall := run.invariant (I := fun log w => ∀ session, w.sessions key = some session →
    ∃ pre post j token, log = pre ++ (j,⟨.createSession token session,.ok ()⟩) :: post ∧
      sha256Hex token = key ∧
      ∀ j' token', (j',⟨.deleteSession token',.ok ()⟩) ∈ post → sha256Hex token' ≠ key) ?_ ?_
  · exact hall session hsession
  · intro session hsession
    rw [hnone] at hsession
    cases hsession
  · intro log ps w i call _ choice r w' _ _ does ih session hsession
    have hkeep : w.sessions key = some session →
        (∀ token, (⟨call,r⟩ : BrowserEvent) = ⟨.deleteSession token,.ok ()⟩ →
          sha256Hex token ≠ key) →
        ∃ pre post j token, log ++ [(i,⟨call,r⟩)] =
          pre ++ (j,⟨.createSession token session,.ok ()⟩) :: post ∧ sha256Hex token = key ∧
          ∀ j' token', (j',⟨.deleteSession token',.ok ()⟩) ∈ post → sha256Hex token' ≠ key := by
      intro hold hother
      obtain ⟨pre, post, j, token, rfl, hkey, hdeleted⟩ := ih session hold
      refine ⟨pre, post ++ [(i,⟨call,r⟩)], j, token, by simp, hkey, ?_⟩
      intro j' token' hm
      rcases List.mem_append.mp hm with hm | hm
      · exact hdeleted j' token' hm
      · exact hother token' (congrArg Prod.snd (List.mem_singleton.mp hm)).symm
    have hs := worldStep does
    cases hs with
    | sessionCreated token session' free =>
      by_cases hkey : key = sha256Hex token
      · subst hkey
        obtain rfl : session' = session := by simpa using hsession
        exact ⟨log, [], i, token, rfl, rfl, by simp⟩
      · exact hkeep (by simpa [Function.update_of_ne hkey] using hsession) (by simp)
    | sessionDeleted token =>
      by_cases hkey : key = sha256Hex token
      · subst hkey
        simp at hsession
      · refine hkeep (by simpa [Function.update_of_ne hkey] using hsession) ?_
        intro token' he
        cases he
        exact Ne.symm hkey
    | unchanged _ _ hquiet =>
      refine hkeep hsession ?_
      intro token he
      cases he
      cases hquiet
    | drew | loginCreated | consumed | resolved | sessionRead | administered =>
      refine hkeep hsession ?_
      intro token he
      cases he

/-- The directory stays mirrored under every interleaving. -/
theorem directory_mirrored (run : Run (browserMachine sha256Hex casefold) ps₀ w₀ log ps w)
    (hm : Mirrored sha256Hex casefold w₀.directory) :
    Mirrored sha256Hex casefold w.directory := by
  refine run.state_invariant (I := fun w => Mirrored sha256Hex casefold w.directory) hm ?_
  intro w call choice r w' does ih
  have hs := worldStep does
  cases hs with
  | resolved identity context directory commit => exact (resolveOrBind_ok ih commit).1.mirrored ih
  | administered operation directory commit => exact (run_step ih commit).mirrored ih
  | _ => exact ih

end Runs

end Woodhouse.Browser
