import Mathlib.Data.List.SplitBy
import Mathlib.Data.List.TakeWhile
import Woodhouse.Tokens.RoundTrip

namespace Woodhouse.Tokens
open Python

section Production
variable {document : Dict Json} {key s : Str} {scopes : List Str} {t : TokenSet}

theorem exists_of_strip (h : strip s ≠ []) : ∃ c ∈ s, isSpace c = false := by
  by_contra hall
  have hspaces : ∀ c ∈ s, isSpace c = true := by
    intro c hc
    by_contra hn
    exact hall ⟨c,hc,by simpa using hn⟩
  have hdrop : s.dropWhile isSpace = [] := by
    rw [List.dropWhile_eq_nil_iff]
    exact hspaces
  exact h (by simp [strip,stripOf,hdrop])

theorem split_ne_nil (h : strip s ≠ []) : split s ≠ [] := by
  obtain ⟨c,hc,hspace⟩ := exists_of_strip h
  rw [← List.flatten_splitBy (fun a b => isSpace a = isSpace b) s,List.mem_flatten] at hc
  obtain ⟨word,hword,hmem⟩ := hc
  refine List.ne_nil_of_mem (a := word) (List.mem_filter.mpr ⟨hword,?_⟩)
  rw [Bool.not_eq_true',List.all_eq_false]
  exact ⟨c,hmem,by simp [hspace]⟩

theorem grantedScopes_ne_nil (h : scopes ≠ []) : grantedScopes document scopes ≠ [] := by
  unfold grantedScopes
  split
  · split
    · exact h
    · rename_i hstrip
      exact split_ne_nil hstrip
  · exact h

theorem responseString_ok {value : Str} (h : responseString document key = .ok value) : value ≠ [] := by
  unfold responseString at h
  split at h
  · split at h
    · cases h
    · rename_i hne
      obtain rfl := Except.ok.inj h
      exact hne
  · cases h

/-- What every produced token set is like. -/
structure TokenSet.Complete (t : TokenSet) : Prop where
  access : t.accessToken ≠ []
  refresh : t.refreshToken ≠ []
  scopes : t.scopes ≠ []
  expires : ∃ clock, t.expiresAt = ⟨clock,some 0⟩

theorem tokenSet_complete {subject : Str} {now : Utc} (hscopes : scopes ≠ [])
    (h : tokenSet document subject scopes now = .ok t) : t.Complete := by
  unfold tokenSet at h
  split at h
  · cases h
  · obtain ⟨accessToken,haccess,h⟩ := bind_eq_ok.mp h
    obtain ⟨refreshToken,hrefresh,h⟩ := bind_eq_ok.mp h
    obtain ⟨expiresAt,_,h⟩ := bind_eq_ok.mp h
    obtain rfl := Except.ok.inj h
    exact ⟨responseString_ok haccess,responseString_ok hrefresh,grantedScopes_ne_nil hscopes,
      ⟨expiresAt,rfl⟩⟩

theorem Produced.complete (hscopes : scopes ≠ []) (h : Produced scopes t) : t.Complete := by
  obtain ⟨limit,status,body,subject,now,h⟩ := h
  obtain ⟨document,_,h⟩ := bind_eq_ok.mp h
  exact tokenSet_complete hscopes h

end Production

section Opening
variable {a : Aead} {limit : Nat} {nonce : Bytes} {t : TokenSet} {user other value text : Str}

theorem mapError_ok {ε δ α : Type} {f : ε → δ} {x : Except ε α} {v : α} :
    x.mapError f = .ok v ↔ x = .ok v := by
  cases x with
  | ok w => simp [Except.mapError]
  | error e => simp [Except.mapError]

/-- A stored string that opens for a user, and the text it seals. -/
structure IsSealed (a : Aead) (value user text : Str) : Prop where
  ascii : isAscii value = true
  authentic : ∃ nonce ciphertext associated plaintext,
    urlsafeB64decode value = .ok (nonce ++ ciphertext) ∧ nonce.length = 12 ∧ 16 ≤ ciphertext.length ∧
    encodeUtf8 user = .ok associated ∧ a.decrypt nonce ciphertext associated = some plaintext ∧
    decodeUtf8Strict plaintext = .ok text

theorem plaintextOf_eq_ok : plaintextOf a value user = .ok text ↔ IsSealed a value user text := by
  unfold plaintextOf
  constructor
  · intro h
    split at h
    · cases h
    · rename_i hascii
      obtain ⟨decoded,hdecoded,h⟩ := bind_eq_ok.mp h
      split at h
      · cases h
      · rename_i hlength
        obtain ⟨associated,hassociated,h⟩ := bind_eq_ok.mp h
        split at h
        · cases h
        · rename_i plaintext hplaintext
          refine ⟨by simpa using hascii,decoded.take 12,decoded.drop 12,associated,plaintext,?_,?_,?_,
            mapError_ok.mp hassociated,hplaintext,mapError_ok.mp h⟩
          · rw [List.take_append_drop]
            exact mapError_ok.mp hdecoded
          · rw [List.length_take]
            omega
          · rw [List.length_drop]
            omega
  · rintro ⟨hascii,nonce,ciphertext,associated,plaintext,hdecoded,hnonce,hlength,huser,hplaintext,htext⟩
    have htake : (nonce ++ ciphertext).take 12 = nonce := by rw [← hnonce,List.take_left]
    have hdrop : (nonce ++ ciphertext).drop 12 = ciphertext := by rw [← hnonce,List.drop_left]
    have hlong : ¬ (nonce ++ ciphertext).length < 28 := by
      rw [List.length_append]
      omega
    simp only [hascii,hdecoded,huser,bind,Except.bind,Except.mapError,hlong,htake,hdrop,hplaintext,htext,
      Bool.not_true,Bool.false_eq_true,if_false]

theorem isAscii_urlsafeB64encode (b : Bytes) : isAscii (urlsafeB64encode b) = true := by
  rw [isAscii_iff]
  intro c hc
  obtain ⟨d,hd,rfl⟩ := List.mem_map.mp hc
  have hlt := isAscii_iff.mp (isAscii_b64encode b) d hd
  split
  · decide
  · split
    · decide
    · exact hlt

theorem encrypt_eq_ok : encrypt a nonce t user = .ok value ↔ ∃ plaintext associated,
    encodeUtf8 (dumps (tokenDocument t)) = .ok plaintext ∧ encodeUtf8 user = .ok associated ∧
      urlsafeB64encode (nonce ++ a.encrypt nonce plaintext associated) = value := by
  unfold encrypt
  constructor
  · intro h
    obtain ⟨plaintext,hplaintext,h⟩ := bind_eq_ok.mp h
    obtain ⟨associated,hassociated,h⟩ := bind_eq_ok.mp h
    exact ⟨plaintext,associated,mapError_ok.mp hplaintext,mapError_ok.mp hassociated,
      Except.ok.inj h⟩
  · rintro ⟨plaintext,associated,hplaintext,hassociated,rfl⟩
    rw [hplaintext,hassociated]
    rfl

/-- The user it was encrypted for opens it. -/
theorem isSealed_encrypt (ha : a.Lawful) (hnonce : nonce.length = 12)
    (h : encrypt a nonce t user = .ok value) : IsSealed a value user (dumps (tokenDocument t)) := by
  obtain ⟨plaintext,associated,hplaintext,hassociated,rfl⟩ := encrypt_eq_ok.mp h
  exact ⟨isAscii_urlsafeB64encode _,nonce,_,associated,plaintext,urlsafeB64decode_encode _,hnonce,
    ha.tagged _ _ _,hassociated,ha.correct _ _ _,decodeUtf8Strict_encode hplaintext⟩

/-- Nobody else does. -/
theorem not_isSealed_encrypt (ha : a.Lawful) (hnonce : nonce.length = 12)
    (h : encrypt a nonce t user = .ok value) (hother : other ≠ user) : ¬ IsSealed a value other text := by
  obtain ⟨plaintext,associated,hplaintext,hassociated,rfl⟩ := encrypt_eq_ok.mp h
  rintro ⟨_,nonce',ciphertext,associated',plaintext',hdecoded,hnonce',_,hassociated',hopens,_⟩
  rw [urlsafeB64decode_encode] at hdecoded
  obtain ⟨rfl,rfl⟩ := List.append_inj (Except.ok.inj hdecoded) (hnonce.trans hnonce'.symm)
  have hne : associated' ≠ associated := by
    rintro rfl
    exact hother (encodeUtf8_injective hassociated' hassociated)
  rw [ha.rejects _ _ _ _ hne] at hopens
  cases hopens

end Opening

section Failing
variable {a : Aead} {limit : Nat} {t : TokenSet} {user value text : Str} {e : CipherExc}

/-- The exceptions that `decrypt` turns into its ValueError. -/
def Caught (e : CipherExc) : Prop := e.isCaught = true

theorem raisesOnly_mapError {ε δ α : Type} {P : ε → Prop} {Q : δ → Prop} {f : ε → δ} {x : Except ε α}
    (hx : RaisesOnly P x) (h : ∀ e, P e → Q (f e)) : RaisesOnly Q (x.mapError f) := by
  cases x with
  | ok v => exact raisesOnly_ok v
  | error e => exact (raisesOnly_error _).mpr (h e (hx e rfl))

theorem urlsafeB64decode_raises (s : Str) :
    RaisesOnly (fun e => e = .valueError ∨ e = .binasciiError) (urlsafeB64decode s) := by
  unfold urlsafeB64decode
  generalize s.map _ = mapped
  cases hascii : isAscii mapped with
  | true => exact (b64decode_raises hascii).mono (fun e he => .inr he)
  | false =>
    rw [b64decode_of_not_ascii hascii]
    exact (raisesOnly_error _).mpr (.inl rfl)

theorem encodeUser_raises (user : Str) :
    RaisesOnly Caught ((encodeUtf8 user).mapError CipherExc.python) := by
  refine raisesOnly_mapError (encodeUtf8_raises user) ?_
  rintro e rfl
  rfl

theorem plaintextOf_raises : RaisesOnly Caught (plaintextOf a value user) := by
  unfold plaintextOf
  split
  · exact (raisesOnly_error _).mpr rfl
  · refine RaisesOnly.bind ?_ (fun decoded _ => ?_)
    · refine raisesOnly_mapError (urlsafeB64decode_raises value) ?_
      rintro e (rfl | rfl)
      · rfl
      · rfl
    · split
      · exact (raisesOnly_error _).mpr rfl
      · refine (encodeUser_raises user).bind (fun associated _ => ?_)
        split
        · exact (raisesOnly_error _).mpr rfl
        · refine raisesOnly_mapError (decodeUtf8Strict_raises _) ?_
          rintro e rfl
          rfl

theorem requiredString_raises (document : Dict Json) (key : Str) :
    RaisesOnly Caught (requiredString document key) := by
  unfold requiredString
  repeat' split
  all_goals first | exact raisesOnly_ok _ | exact (raisesOnly_error _).mpr rfl

theorem requiredScopes_raises (document : Dict Json) : RaisesOnly Caught (requiredScopes document) := by
  unfold requiredScopes
  repeat' split
  all_goals first | exact raisesOnly_ok _ | exact (raisesOnly_error _).mpr rfl

theorem tokensOfDocument_raises (document : Dict Json) :
    RaisesOnly Caught (tokensOfDocument document) := by
  unfold tokensOfDocument
  refine (requiredString_raises document _).bind (fun _ _ => ?_)
  refine (requiredString_raises document _).bind (fun _ _ => ?_)
  refine (requiredString_raises document _).bind (fun _ _ => ?_)
  refine (requiredScopes_raises document).bind (fun _ _ => ?_)
  refine (requiredString_raises document _).bind (fun isoText _ => ?_)
  refine RaisesOnly.bind ?_ (fun _ _ => raisesOnly_ok _)
  refine raisesOnly_mapError (fromisoformat_raises isoText) ?_
  rintro e rfl
  rfl

/-- A sealed text that nests beyond the limit; every other way to fail is caught. -/
theorem opened_raises (h : opened a limit value user = .error e) :
    e = .python .recursionError ∧ (∃ text, IsSealed a value user text ∧ NestsBeyond limit text) ∨
      Caught e := by
  unfold opened at h
  cases hplain : plaintextOf a value user with
  | error e' =>
    rw [hplain] at h
    obtain rfl := Except.error.inj h
    exact .inr (plaintextOf_raises _ hplain)
  | ok text =>
    rw [hplain] at h
    cases hload : decodeFrom limit {} text with
    | error e' =>
      simp only [bind,Except.bind,hload,Except.mapError] at h
      obtain rfl := Except.error.inj h
      by_cases hnests : NestsBeyond limit text
      · rw [decodeFrom_nests.mpr hnests] at hload
        obtain rfl := Except.error.inj hload
        exact .inl ⟨rfl,text,plaintextOf_eq_ok.mp hplain,hnests⟩
      · rcases decodeFrom_textError hnests e' hload with rfl | rfl
        · exact .inr rfl
        · exact .inr rfl
    | ok document =>
      simp only [bind,Except.bind,hload,Except.mapError] at h
      right
      cases document with
      | obj document => exact tokensOfDocument_raises document e h
      | _ =>
        obtain rfl := Except.error.inj h
        rfl

theorem opened_of_nests (hsealed : IsSealed a value user text) (hnests : NestsBeyond limit text) :
    opened a limit value user = .error (.python .recursionError) := by
  unfold opened
  rw [plaintextOf_eq_ok.mpr hsealed]
  simp only [bind,Except.bind,decodeFrom_nests.mpr hnests,Except.mapError]

theorem decrypt_of_error (h : opened a limit value user = .error e) :
    decrypt a limit value user = if e.isCaught then .error .valueError else .error e := by
  unfold decrypt
  rw [h]

theorem decrypt_of_ok (h : opened a limit value user = .ok t) : decrypt a limit value user = .ok t := by
  unfold decrypt
  rw [h]

/-- `decrypt` fails with anything else than ValueError exactly on a sealed text that nests beyond
the limit. -/
theorem decrypt_closed_iff :
    ((∃ t, decrypt a limit value user = .ok t) ∨ decrypt a limit value user = .error .valueError) ↔
      ¬ ∃ text, IsSealed a value user text ∧ NestsBeyond limit text := by
  constructor
  · rintro h ⟨text,hsealed,hnests⟩
    rw [decrypt_of_error (opened_of_nests hsealed hnests)] at h
    rcases h with ⟨t,h⟩ | h
    · cases h
    · cases h
  · intro hnot
    cases hopened : opened a limit value user with
    | ok t => exact .inl ⟨t,decrypt_of_ok hopened⟩
    | error e =>
      rcases opened_raises hopened with ⟨_,hdeep⟩ | hcaught
      · exact absurd hdeep hnot
      · right
        exact (decrypt_of_error hopened).trans (if_pos hcaught)

theorem exists_sealed (h : opened a limit value user = .ok t) : ∃ text, IsSealed a value user text := by
  obtain ⟨text,htext,_⟩ := bind_eq_ok.mp h
  exact ⟨text,plaintextOf_eq_ok.mp htext⟩

/-- A string that is not sealed for the user is a ValueError. -/
theorem decrypt_of_not_sealed (h : ∀ text, ¬ IsSealed a value user text) :
    decrypt a limit value user = .error .valueError := by
  cases hopened : opened a limit value user with
  | ok t =>
    obtain ⟨text,hsealed⟩ := exists_sealed hopened
    exact absurd hsealed (h text)
  | error e =>
    rcases opened_raises hopened with ⟨_,text,hsealed,_⟩ | hcaught
    · exact absurd hsealed (h text)
    · exact (decrypt_of_error hopened).trans (if_pos hcaught)

end Failing

section Guarantees
variable {a : Aead} {limit : Nat} {nonce : Bytes} {t : TokenSet} {user value : Str} {scopes : List Str}

/-- A token set whose strings `json.dumps` and `json.loads` leave as they are, and whose fields the
reader accepts. -/
structure TokenSet.Restorable (t : TokenSet) : Prop where
  access : ¬ HasSplitPair t.accessToken
  refresh : ¬ HasSplitPair t.refreshToken
  subject : ¬ HasSplitPair t.teslaSubject
  subjectGiven : t.teslaSubject ≠ []
  scopes : ∀ scope ∈ t.scopes, scope ≠ [] ∧ ¬ HasSplitPair scope

theorem map_joinPairs_eq (scopes : List Str) :
    scopes.map joinPairs = scopes ↔ ∀ scope ∈ scopes, ¬ HasSplitPair scope := by
  induction scopes with
  | nil => simp
  | cons s rest ih => rw [List.map_cons,List.cons.injEq,joinPairs_eq_iff,ih,List.forall_mem_cons]

theorem joined_eq_iff (hsubject : t.teslaSubject ≠ []) (hscopes : [] ∉ t.scopes) :
    t.joined = t ↔ t.Restorable := by
  obtain ⟨access,refresh,expires,scopes,subject⟩ := t
  unfold TokenSet.joined
  simp only [TokenSet.mk.injEq,joinPairs_eq_iff,map_joinPairs_eq,true_and]
  constructor
  · rintro ⟨haccess,hrefresh,hpairs,hjoined⟩
    refine ⟨haccess,hrefresh,hjoined,hsubject,?_⟩
    intro scope hscope
    refine ⟨?_,hpairs scope hscope⟩
    rintro rfl
    exact hscopes hscope
  · intro h
    exact ⟨h.access,h.refresh,fun scope hscope => (h.scopes scope hscope).2,h.subject⟩

/-- What the user it was encrypted for gets back. -/
theorem decrypt_encrypt (ha : a.Lawful) (hlimit : 2 ≤ limit) (hnonce : nonce.length = 12)
    (ht : t.Complete) (h : encrypt a nonce t user = .ok value) : decrypt a limit value user =
      if t.teslaSubject = [] ∨ [] ∈ t.scopes then .error .valueError else .ok t.joined := by
  obtain ⟨clock,hexpires⟩ := ht.expires
  have hopened : opened a limit value user = tokensOfDocument (joinedDocument t) := by
    unfold opened
    rw [plaintextOf_eq_ok.mpr (isSealed_encrypt ha hnonce h)]
    simp only [bind,Except.bind,loads_tokenDocument ht.scopes hlimit,Except.mapError]
  have hdocument := tokensOfDocument_joined ht.access ht.refresh ht.scopes hexpires
  rw [← hopened] at hdocument
  by_cases hempty : t.teslaSubject = [] ∨ [] ∈ t.scopes
  · rw [if_pos hempty] at hdocument ⊢
    exact decrypt_of_error hdocument
  · rw [if_neg hempty] at hdocument ⊢
    exact decrypt_of_ok hdocument

theorem restored_iff (ha : a.Lawful) (hlimit : 2 ≤ limit) (hnonce : nonce.length = 12)
    (ht : t.Complete) : (encrypt a nonce t user >>= fun value => decrypt a limit value user) = .ok t ↔
      IsUnicode user ∧ t.Restorable := by
  constructor
  · intro h
    obtain ⟨value,hvalue,hback⟩ := bind_eq_ok.mp h
    obtain ⟨_,associated,_,huser,_⟩ := encrypt_eq_ok.mp hvalue
    rw [decrypt_encrypt ha hlimit hnonce ht hvalue] at hback
    split at hback
    · cases hback
    · rename_i hempty
      obtain ⟨hsubject,hscopes⟩ := not_or.mp hempty
      exact ⟨(encodeUtf8_eq_ok.mp huser).1,
        (joined_eq_iff hsubject hscopes).mp (Except.ok.inj hback)⟩
  · rintro ⟨huser,hrestorable⟩
    have hscopes : [] ∉ t.scopes := fun h => (hrestorable.scopes [] h).1 rfl
    have hplaintext := encodeUtf8_ascii (isAscii_dumps (tokenDocument t))
    have hvalue : encrypt a nonce t user = .ok _ := encrypt_eq_ok.mpr
      ⟨_,_,hplaintext,encodeUtf8_eq_ok.mpr ⟨huser,rfl⟩,rfl⟩
    refine bind_eq_ok.mpr ⟨_,hvalue,?_⟩
    rw [decrypt_encrypt ha hlimit hnonce ht hvalue,
      if_neg (not_or.mpr ⟨hrestorable.subjectGiven,hscopes⟩),
      (joined_eq_iff hrestorable.subjectGiven hscopes).mpr hrestorable]

/-- Encrypted token sets come back, open for nobody else, and any other string fails with
ValueError, exactly where no surrogate pair is split, no field is empty, the user id is Unicode and
no sealed text nests beyond the limit of `json.loads`. -/
theorem cipher_iff (ha : a.Lawful) (hlimit : 2 ≤ limit) (hnonce : nonce.length = 12)
    (hscopes : scopes ≠ []) :
    (∀ t user, Produced scopes t →
      ((encrypt a nonce t user >>= fun value => decrypt a limit value user) = .ok t ↔
        IsUnicode user ∧ t.Restorable)) ∧
    (∀ t user other value, Produced scopes t → other ≠ user → encrypt a nonce t user = .ok value →
      decrypt a limit value other = .error .valueError) ∧
    (∀ value user,
      (((∃ t, decrypt a limit value user = .ok t) ∨ decrypt a limit value user = .error .valueError) ↔
        ¬ ∃ text, IsSealed a value user text ∧ NestsBeyond limit text)) := by
  refine ⟨?_,?_,fun value user => decrypt_closed_iff⟩
  · intro t user ht
    exact restored_iff ha hlimit hnonce (ht.complete hscopes)
  · intro t user other value _ hother hvalue
    exact decrypt_of_not_sealed (fun text => not_isSealed_encrypt ha hnonce hvalue hother)

end Guarantees

section Sample
variable {limit : Nat}

/-- Sixteen zeros as the tag, and the associated data in front of the plaintext. -/
def sampleHeader (associated : Bytes) : Bytes :=
  List.replicate 16 0 ++ associated.flatMap (fun b => [1,b]) ++ [0]

def sampleAead : Aead where
  encrypt _ plaintext associated := sampleHeader associated ++ plaintext
  decrypt _ ciphertext associated :=
    if ciphertext.take (sampleHeader associated).length = sampleHeader associated then
      some (ciphertext.drop (sampleHeader associated).length)
    else none

theorem sampleHeader_inj {s t rest : Bytes} {u : Bytes} (h : sampleHeader s ++ rest = sampleHeader t ++ u) :
    s = t := by
  unfold sampleHeader at h
  simp only [List.append_assoc] at h
  have htail := List.append_cancel_left h
  clear h
  induction s generalizing t with
  | nil =>
    cases t with
    | nil => rfl
    | cons b t => simp at htail
  | cons a s ih =>
    cases t with
    | nil => simp at htail
    | cons b t =>
      simp only [List.flatMap_cons,List.cons_append,List.nil_append,List.cons.injEq,true_and] at htail
      rw [htail.1,ih htail.2]

theorem sampleAead_lawful : sampleAead.Lawful where
  correct nonce plaintext associated := by
    simp [sampleAead]
  rejects nonce plaintext associated other hne := by
    refine if_neg (fun h => hne ?_)
    have hsplit := List.take_append_drop (sampleHeader other).length
      (sampleAead.encrypt nonce plaintext associated)
    rw [h] at hsplit
    exact sampleHeader_inj hsplit
  tagged nonce plaintext associated := by
    simp only [sampleAead,sampleHeader,List.length_append,List.length_replicate]
    omega

/-- A token response that grants two scopes for an hour. -/
def sampleResponse : Bytes :=
  ascii ("\x7b\"access_token\":\"a-1\",\"refresh_token\":\"r-1\",\"expires_in\":3600," ++
    "\"scope\":\"openid offline_access\"\x7d")

def sampleNow : Utc := ⟨63921312001234567,by decide⟩

def sampleExpiry : Utc := ⟨63921315601234567,by decide⟩

def sampleTokens : TokenSet :=
  { accessToken := str "a-1", refreshToken := str "r-1", expiresAt := ⟨sampleExpiry,some 0⟩
    scopes := [str "openid",str "offline_access"], teslaSubject := str "subject" }

theorem sample_produced : Produced [str "openid"] sampleTokens :=
  ⟨1000,200,sampleResponse,str "subject",sampleNow,by decide +kernel⟩

theorem not_hasSplitPair {s : Str} (h : joinPairs s = s) : ¬ HasSplitPair s :=
  (joinPairs_eq_iff s).mp h

theorem sample_restorable : sampleTokens.Restorable where
  access := not_hasSplitPair (by decide)
  refresh := not_hasSplitPair (by decide)
  subject := not_hasSplitPair (by decide)
  subjectGiven := by decide
  scopes := by
    intro scope hscope
    simp only [sampleTokens,List.mem_cons,List.not_mem_nil,or_false] at hscope
    rcases hscope with rfl | rfl
    · exact ⟨by decide,not_hasSplitPair (by decide)⟩
    · exact ⟨by decide,not_hasSplitPair (by decide)⟩

theorem cipher_iff_sample :
    ∃ value, encrypt sampleAead (List.replicate 12 0) sampleTokens (str "usr_1") = .ok value ∧
      decrypt sampleAead 1000 value (str "usr_1") = .ok sampleTokens ∧
      decrypt sampleAead 1000 value (str "usr_2") = .error .valueError := by
  obtain ⟨hback,hother,_⟩ := @cipher_iff sampleAead 1000 (List.replicate 12 0) [str "openid"]
    sampleAead_lawful (by decide) (by decide) (by decide)
  have hunicode : IsUnicode (str "usr_1") := isUnicode_of_isAscii (by decide)
  obtain ⟨value,hvalue,hdecrypted⟩ := bind_eq_ok.mp
    ((hback sampleTokens (str "usr_1") sample_produced).mpr ⟨hunicode,sample_restorable⟩)
  exact ⟨value,hvalue,hdecrypted,
    hother sampleTokens (str "usr_1") (str "usr_2") value sample_produced (by decide) hvalue⟩

/-- The stored string that seals a row of opening brackets. -/
def sealedBrackets (n : Nat) : Str :=
  urlsafeB64encode (List.replicate 12 0 ++
    sampleAead.encrypt (List.replicate 12 0) (asciiBytes (List.replicate n (chr '['))) (ascii "user"))

theorem run_brackets (n : Nat) (hn : n ≤ limit) : (List.replicate n (chr '[')).foldlM
    (Decoder.step limit) {} = .ok ⟨List.replicate n (.items []),if n = 0 then .value else .firstItem⟩ := by
  induction n with
  | zero => rfl
  | succ n ih =>
    rw [List.replicate_succ',List.foldlM_append,ih (by omega)]
    have hstart : startValue limit (List.replicate n (.items [])) (chr '[') =
        .ok ⟨.items [] :: List.replicate n (.items []),.firstItem⟩ := startValue_array (by simp; omega)
    have hstep : (⟨List.replicate n (.items []),if n = 0 then .value else .firstItem⟩ : Decoder).step
        limit (chr '[') = .ok ⟨List.replicate (n + 1) (.items []),.firstItem⟩ := by
      split
      · exact hstart
      · exact hstart
    simp only [bind,Except.bind,List.foldlM_cons,List.foldlM_nil,hstep]
    rfl

theorem nestsBeyond_brackets (limit : Nat) : NestsBeyond limit (List.replicate (limit + 1) (chr '[')) := by
  refine ⟨List.replicate limit (chr '['),chr '[',[],_,List.replicate_succ',run_brackets limit (le_refl _),
    ?_,.inr rfl,by simp⟩
  dsimp only
  split
  · exact .inl rfl
  · exact .inr rfl

theorem decrypt_brackets (limit : Nat) : decrypt sampleAead limit (sealedBrackets (limit + 1)) (str "user") =
    .error (.python .recursionError) := by
  have hsealed : IsSealed sampleAead (sealedBrackets (limit + 1)) (str "user")
      (List.replicate (limit + 1) (chr '[')) := by
    refine ⟨isAscii_urlsafeB64encode _,List.replicate 12 0,_,ascii "user",
      asciiBytes (List.replicate (limit + 1) (chr '[')),urlsafeB64decode_encode _,by decide,
      sampleAead_lawful.tagged _ _ _,by decide,sampleAead_lawful.correct _ _ _,?_⟩
    refine decodeUtf8Strict_encode (encodeUtf8_ascii ?_)
    rw [isAscii_iff]
    intro c hc
    rw [List.eq_of_mem_replicate hc]
    decide
  have hopened := opened_of_nests hsealed (nestsBeyond_brackets limit)
  exact decrypt_of_error hopened

/-- A sealed row of brackets raises RecursionError. -/
theorem brackets_not_caught : ¬ ((∃ t, decrypt sampleAead 1000 (sealedBrackets 1001) (str "user") = .ok t) ∨
    decrypt sampleAead 1000 (sealedBrackets 1001) (str "user") = .error .valueError) := by
  rw [decrypt_brackets 1000]
  rintro (⟨t,h⟩ | h)
  · cases h
  · cases h

end Sample

end Woodhouse.Tokens
