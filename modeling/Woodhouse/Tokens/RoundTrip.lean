import Woodhouse.Python.Nesting
import Woodhouse.Python.ReadBack
import Woodhouse.Sql.Order
import Woodhouse.Tokens.Cipher

namespace Woodhouse.Tokens
open Python

section Documents
variable {t : TokenSet} {limit : Nat}

/-- The token set that comes back: surrogate pairs of its strings are joined. -/
def TokenSet.joined (t : TokenSet) : TokenSet :=
  { t with accessToken := joinPairs t.accessToken, refreshToken := joinPairs t.refreshToken,
           scopes := t.scopes.map joinPairs, teslaSubject := joinPairs t.teslaSubject }

/-- A string under an ASCII key, as `json.dumps` writes it. -/
def stringMember (key value : Str) : Member :=
  { keyText := dumpStr key, key, text := dumpStr value, value := .str (joinPairs value) }

def scopesMember (scopes : List Str) : Member :=
  { keyText := dumpStr (str "scopes"), key := str "scopes",
    text := str "[" ++ commaSeparated (scopes.map dumpStr) ++ str "]",
    value := .arr (scopes.map (fun s => Json.str (joinPairs s))) }

/-- The members of a token document in the order of their keys. -/
def members (t : TokenSet) : List Member :=
  [stringMember (str "access_token") t.accessToken,
   stringMember (str "expires_at") (isoformat t.expiresAt),
   stringMember (str "refresh_token") t.refreshToken,
   scopesMember t.scopes,
   stringMember (str "tesla_subject") t.teslaSubject]

theorem readsKey_dumpStr {key : Str} (h : isAscii key = true) : ReadsKey limit (dumpStr key) key := by
  have hspells := spells_escape limit key
  rw [joinPairs_ascii h] at hspells
  exact hspells.readsKey

theorem stringMember_readable {key : Str} (h : isAscii key = true) (value : Str) (depth : Nat) :
    (stringMember key value).Readable limit depth :=
  ⟨readsKey_dumpStr h,(spells_escape limit value).readsValue depth⟩

theorem scopesMember_readable {scopes : List Str} (h : scopes ≠ []) (depth : Nat) :
    (scopesMember scopes).Readable limit (depth + 1) := by
  refine ⟨readsKey_dumpStr (by decide),?_⟩
  have hitems : ∀ e ∈ scopes.map (fun s => (dumpStr s,Json.str (joinPairs s))),
      ReadsValue limit depth e.1 e.2 := by
    intro e he
    obtain ⟨s,_,rfl⟩ := List.mem_map.mp he
    exact (spells_escape limit s).readsValue depth
  have harray := readsValue_array (by simpa using h) hitems
  simp only [List.map_map,Function.comp_def] at harray
  exact harray

theorem dumpItems_strs (scopes : List Str) : dumpItems (scopes.map Json.str) = scopes.map dumpStr := by
  induction scopes with
  | nil => rfl
  | cons s rest ih => rw [List.map_cons,dumpItems,dumps,ih,List.map_cons]

/-- `sort_keys` puts the members in the order of their keys. -/
theorem dumps_tokenDocument (t : TokenSet) : dumps (tokenDocument t) =
    str "\x7b" ++ commaSeparated ((members t).map Member.written) ++ str "\x7d" := by
  have hentries : dumpEntries [(str "access_token",.str t.accessToken),
      (str "refresh_token",.str t.refreshToken),(str "expires_at",.str (isoformat t.expiresAt)),
      (str "scopes",.arr (t.scopes.map Json.str)),(str "tesla_subject",.str t.teslaSubject)] =
      [(str "access_token",dumpStr t.accessToken),(str "refresh_token",dumpStr t.refreshToken),
        (str "expires_at",dumpStr (isoformat t.expiresAt)),
        (str "scopes",str "[" ++ commaSeparated (t.scopes.map dumpStr) ++ str "]"),
        (str "tesla_subject",dumpStr t.teslaSubject)] := by
    simp only [dumpEntries,dumps,dumpItems_strs]
  have hsorted : ([(str "access_token",dumpStr t.accessToken),(str "refresh_token",dumpStr t.refreshToken),
      (str "expires_at",dumpStr (isoformat t.expiresAt)),
      (str "scopes",str "[" ++ commaSeparated (t.scopes.map dumpStr) ++ str "]"),
      (str "tesla_subject",dumpStr t.teslaSubject)] : List (Str × Str)).mergeSort
        (fun a b => decide (a.1 ≤ b.1)) =
      [(str "access_token",dumpStr t.accessToken),(str "expires_at",dumpStr (isoformat t.expiresAt)),
        (str "refresh_token",dumpStr t.refreshToken),
        (str "scopes",str "[" ++ commaSeparated (t.scopes.map dumpStr) ++ str "]"),
        (str "tesla_subject",dumpStr t.teslaSubject)] := by
    have hkeys : [str "access_token",str "expires_at",str "refresh_token",str "scopes",
        str "tesla_subject"].Pairwise (fun a b => a < b) := by decide
    exact @Sql.orderBy_eq _ _ _ Prod.fst _ _ (List.Perm.cons _ (List.Perm.swap ..))
      (List.pairwise_map.mp hkeys)
  unfold tokenDocument dumps
  rw [hentries,hsorted]
  rfl

/-- The document that comes back. -/
def joinedDocument (t : TokenSet) : Dict Json :=
  [(str "access_token",.str (joinPairs t.accessToken)),
   (str "expires_at",.str (joinPairs (isoformat t.expiresAt))),
   (str "refresh_token",.str (joinPairs t.refreshToken)),
   (str "scopes",.arr (t.scopes.map (fun s => Json.str (joinPairs s)))),
   (str "tesla_subject",.str (joinPairs t.teslaSubject))]

theorem loads_tokenDocument (hscopes : t.scopes ≠ []) (hlimit : 2 ≤ limit) :
    decodeFrom limit {} (dumps (tokenDocument t)) = .ok (.obj (joinedDocument t)) := by
  have hreadable : ∀ m ∈ members t, m.Readable limit 1 := by
    intro m hm
    simp only [members,List.mem_cons,List.not_mem_nil,or_false] at hm
    rcases hm with rfl | rfl | rfl | rfl | rfl
    · exact stringMember_readable (by decide) _ 1
    · exact stringMember_readable (by decide) _ 1
    · exact stringMember_readable (by decide) _ 1
    · exact scopesMember_readable hscopes 0
    · exact stringMember_readable (by decide) _ 1
  have hobject := (readsValue_object (by simp [members]) hreadable).decode hlimit
  rw [dumps_tokenDocument,hobject]
  rfl

end Documents

section Reading
variable {t : TokenSet} {value : Str} {clock : Utc}

theorem requiredString_str (d : Dict Json) (key : Str) (h : d.get key = some (.str value)) :
    requiredString d key = if value = [] then .error .valueError else .ok value := by
  unfold requiredString
  rw [h]

theorem mapM_scopeOf (scopes : List Str) :
    (scopes.map (fun s => Json.str (joinPairs s))).mapM scopeOf =
      if [] ∈ scopes then none else some (scopes.map joinPairs) := by
  induction scopes with
  | nil => rfl
  | cons s rest ih =>
    rw [List.map_cons,List.mapM_cons,ih]
    by_cases hs : s = []
    · subst hs
      simp [scopeOf,joinPairs]
    · have hne : [] ≠ s := fun h => hs h.symm
      have hscope : scopeOf (.str (joinPairs s)) = some (joinPairs s) :=
        if_neg (fun h => hs (joinPairs_eq_nil.mp h))
      rw [hscope]
      by_cases hrest : [] ∈ rest
      · simp [hrest]
      · simp [hrest,hne]

theorem requiredScopes_joined (hscopes : t.scopes ≠ []) : requiredScopes (joinedDocument t) =
    if [] ∈ t.scopes then .error .valueError else .ok (t.scopes.map joinPairs) := by
  have hget : (joinedDocument t).get (str "scopes") =
      some (.arr (t.scopes.map (fun s => Json.str (joinPairs s)))) := rfl
  unfold requiredScopes
  rw [hget]
  dsimp only
  rw [if_neg (by simpa using hscopes),mapM_scopeOf]
  by_cases h : [] ∈ t.scopes
  · rw [if_pos h,if_pos h]
  · rw [if_neg h,if_neg h]

/-- The document that comes back is read as the joined token set, unless a field is empty. -/
theorem tokensOfDocument_joined (haccess : t.accessToken ≠ []) (hrefresh : t.refreshToken ≠ [])
    (hscopes : t.scopes ≠ []) (hexpires : t.expiresAt = ⟨clock,some 0⟩) :
    tokensOfDocument (joinedDocument t) =
      if t.teslaSubject = [] ∨ [] ∈ t.scopes then .error .valueError else .ok t.joined := by
  have hiso : isoformat t.expiresAt ≠ [] := by
    rw [hexpires,isoformat_eq]
    intro h
    have hlength := congrArg List.length h
    unfold utcText at hlength
    rw [List.length_append,formatDate_length] at hlength
    simp at hlength
  have hascii : isAscii (isoformat t.expiresAt) = true := by
    rw [hexpires,isoformat_eq]
    exact isAscii_utcText (.inl rfl) clock
  have hkeep : ∀ s, s ≠ [] → joinPairs s ≠ [] := fun s hs h => hs (joinPairs_eq_nil.mp h)
  unfold tokensOfDocument
  rw [requiredString_str (joinedDocument t) (str "access_token") rfl,
    if_neg (hkeep _ haccess),
    requiredString_str (joinedDocument t) (str "refresh_token") rfl,
    if_neg (hkeep _ hrefresh),
    requiredString_str (joinedDocument t) (str "tesla_subject") rfl,
    requiredString_str (joinedDocument t) (str "expires_at") rfl,
    if_neg (hkeep _ hiso),requiredScopes_joined hscopes,joinPairs_ascii hascii]
  by_cases hsubject : t.teslaSubject = []
  · have hempty : t.teslaSubject = [] ∨ [] ∈ t.scopes := .inl hsubject
    rw [if_pos (joinPairs_eq_nil.mpr hsubject),if_pos hempty]
    rfl
  · by_cases hempty : [] ∈ t.scopes
    · have hor : t.teslaSubject = [] ∨ [] ∈ t.scopes := .inr hempty
      rw [if_neg (hkeep _ hsubject),if_pos hempty,if_pos hor]
      rfl
    · have hor : ¬ (t.teslaSubject = [] ∨ [] ∈ t.scopes) := by simp [hsubject,hempty]
      rw [if_neg (hkeep _ hsubject),if_neg hempty,if_neg hor,hexpires]
      simp only [bind,Except.bind,fromisoformat_isoformat,Except.mapError]
      unfold TokenSet.joined
      rw [hexpires]
      rfl

end Reading

end Woodhouse.Tokens
