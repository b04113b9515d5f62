import Mathlib.Data.List.Dedup
import Mathlib.Data.List.Sort
import Woodhouse.Transport.Diagnostics

namespace Woodhouse.Transport
open Paths Python Telemetry

section Scalars
variable (casefold : Str → Str) (isAlnum : CodePoint → Bool)

def redactionMarkers : List Str :=
  [redacted,str "[REDACTED_EMAIL]",str "[REDACTED_TOKEN]",str "[REDACTED_VIN]",str "[REDACTED_URL]",
   str "[REDACTED_COORDINATE]",str "[REDACTED_CREDENTIAL]"]

/-- The texts of a scalar: as `str` and as a JSON document writes it. -/
def scalarTexts : Json → List Str
  | .null => [str "None",str "null"]
  | .bool b => if b then [str "True",str "true"] else [str "False",str "false"]
  | .int i => [reprInt i]
  | .float x => [strFloat x,reprFloat x]
  | .str s => [s]
  | _ => []

def keyed (pairs : List (Str × Str)) : List (Option Str × Json) :=
  pairs.map (fun p => (some (casefold p.1),.str p.2))

def bearerTokens (headers : List (Str × Str)) : List Str :=
  (headers.filter (fun header => isBearer casefold header.2)).map (fun header => header.2.drop 7)

/-- The scalars of a request, with the keys that they are stored under. -/
def requestScalars (request : TeslaRequest) : List (Option Str × Json) :=
  keyed casefold request.headers ++
  (bearerTokens casefold request.headers).map (fun token => (none,.str token)) ++
  ((pathIdentifiers (pathParts request.path)).map str).map (fun id => (none,.str id)) ++
  keyed casefold (queryPairs request.query) ++ keyed casefold request.body.formPairs ++
  request.body.jsonBody.flatMap (leaves casefold none)

/-- A text of a request that the log is to keep to itself. -/
structure IsSecret (request : TeslaRequest) (s : Str) : Prop where
  scalar : ∃ e ∈ requestScalars casefold request, s ∈ scalarTexts e.2 ∧ (isSensitive e.1 ∨ 4 ≤ s.length)
  unmarked : ∀ marker ∈ redactionMarkers, ¬ s <:+: marker

/-- The text occurs literally in a value of the summary. -/
def Shows (summary : Dict Json) (s : Str) : Prop :=
  ∃ e ∈ summary, ∃ text ∈ scalarTexts e.2, s <:+: text

/-- No secret of the request is in the summary that its completion is logged with. -/
def KeepsSecrets (limit : Nat) (request : TeslaRequest) (status : Nat) (body : Bytes) : Prop :=
  ∀ secrets, SecretOrder (requestSecretValues casefold request) secrets → ∀ summary,
    responseSummary isAlnum limit secrets request status body = .ok (some summary) →
      ∀ s, IsSecret casefold request s → ¬ Shows summary s

section Overlooked

def shortValues (pairs : List (Str × Str)) : List Str :=
  (pairs.filter (fun p => isSensitive (some (casefold p.1)) && decide (p.2.length < 4))).map Prod.snd

/-- The texts of a scalar in a JSON body that are not collected at any length. -/
def uncollectedTexts : Json → List Str
  | .float x => if strFloat x = reprFloat x then [] else [reprFloat x]
  | .int _ => []
  | .str _ => []
  | v => scalarTexts v

/-- The texts that are not collected: a value of up to three characters under a sensitive key of
the headers, the query or the form, a bearer token of four, and of the JSON body `true`, `false`,
`null` and the JSON name of a float that is not finite. -/
def overlookedTexts (request : TeslaRequest) : List Str :=
  shortValues casefold request.headers ++
  (bearerTokens casefold request.headers).filter (fun token => decide (token.length = 4)) ++
  shortValues casefold (queryPairs request.query) ++ shortValues casefold request.body.formPairs ++
  (request.body.jsonBody.flatMap (leaves casefold none)).flatMap (fun e => uncollectedTexts e.2)

end Overlooked

section Conditions

def isLogged : Json → Bool
  | .bool _ => true
  | .int _ => true
  | .float _ => true
  | .str value => value ≠ []
  | _ => false

/-- The values of a document that its summary is made of. -/
def documentValues (document : Dict Json) : List Json :=
  (safeDiagnosticKeys.filterMap document.get ++
    match document.get (str "response") with
    | some (.obj payload) =>
      ((Dict.get payload (str "result")).filter isBool).toList ++ (Dict.get payload (str "reason")).toList
    | _ => []).filter isLogged

/-- The document of a response that is summarized. -/
def summarizedDocument (limit : Nat) (request : TeslaRequest) (status : Nat) (body : Bytes) :
    Option (Dict Json) :=
  if shouldSummarizeResponse request status body then
    match responseJson limit body with
    | .ok (.obj document) => some document
    | _ => none
  else none

/-- The values of a response that its summary is made of, where it has one. -/
def loggedValues (limit : Nat) (request : TeslaRequest) (status : Nat) (body : Bytes) : List Json :=
  ((summarizedDocument limit request status body).map documentValues).getD []

/-- A secret stands in the text, or a pattern matches in it. -/
def Touched (secrets : List Str) (text : Str) : Prop :=
  (∃ s ∈ secrets, s <:+: text) ∨
    ∃ p ∈ diagnosticPatterns isAlnum, p.1.found (Telemetry.isWord isAlnum) text = true

instance (secrets : List Str) (text : Str) : Decidable (Touched isAlnum secrets text) :=
  inferInstanceAs (Decidable (_ ∨ _))

/-- What a value is logged as, where nothing is taken out of it. -/
def unchangedTexts (request : TeslaRequest) : Json → List Str
  | .str value =>
    if Touched isAlnum (requestSecretValues casefold request) (joinWords value) then []
    else [(joinWords value).take 256]
  | v => scalarTexts v

/-- Something is taken out of a text that holds an overlooked secret, or whose markers can
complete a secret. -/
def Mixed (request : TeslaRequest) : Json → Prop
  | .str value =>
    Touched isAlnum (requestSecretValues casefold request) (joinWords value) ∧ ∃ s,
      IsSecret casefold request s ∧
        ((s ∈ overlookedTexts casefold request ∧ s <:+: joinWords value) ∨
          ∃ marker ∈ redactionMarkers, Overlaps marker s)
  | _ => False

/-- No secret stands in what the value is logged as, where nothing is taken out of it. -/
def Clear (request : TeslaRequest) (v : Json) : Prop :=
  ∀ s, IsSecret casefold request s → ∀ text ∈ unchangedTexts casefold isAlnum request v, ¬ s <:+: text

end Conditions

end Scalars

section Collection
variable {casefold : Str → Str} {request : TeslaRequest} {s : Str}

theorem mem_keyed {pairs : List (Str × Str)} {e : Option Str × Json} (he : e ∈ keyed casefold pairs)
    (hs : s ∈ scalarTexts e.2) (hlong : isSensitive e.1 ∨ 4 ≤ s.length) :
    s ∈ longValues pairs ∨ s ∈ shortValues casefold pairs := by
  obtain ⟨p,hp,rfl⟩ := List.mem_map.mp he
  obtain rfl := List.mem_singleton.mp hs
  by_cases hlen : 4 ≤ p.2.length
  · exact .inl (List.mem_filter.mpr ⟨List.mem_map_of_mem hp,decide_eq_true hlen⟩)
  · have hkey : isSensitive (some (casefold p.1)) = true := hlong.resolve_right hlen
    refine .inr (List.mem_map.mpr ⟨p,List.mem_filter.mpr ⟨hp,?_⟩,rfl⟩)
    simpa [hkey] using hlen

theorem mem_leaf {key : Option Str} {v : Json} (hs : s ∈ scalarTexts v)
    (hlong : isSensitive key ∨ 4 ≤ s.length) : s ∈ collected key v ∨ s ∈ uncollectedTexts v := by
  cases v with
  | null => exact .inr hs
  | bool b => exact .inr hs
  | arr items => cases hs
  | obj entries => cases hs
  | int i =>
    obtain rfl := List.mem_singleton.mp hs
    refine .inl ?_
    rw [collected,if_pos hlong.symm]
    exact hs
  | str value =>
    obtain rfl := List.mem_singleton.mp hs
    refine .inl ?_
    rw [collected,if_pos hlong.symm]
    exact hs
  | float x =>
    by_cases heq : s = strFloat x
    · subst heq
      refine .inl ?_
      rw [collected,if_pos hlong.symm]
      exact List.mem_singleton_self _
    · have hrepr : s = reprFloat x := by
        simpa [scalarTexts,heq] using hs
      subst hrepr
      refine .inr ?_
      rw [uncollectedTexts,if_neg (Ne.symm heq)]
      exact List.mem_singleton_self _

/-- A secret is collected, or it is one of those that are overlooked. -/
theorem IsSecret.collected_or (h : IsSecret casefold request s) :
    s ∈ requestSecretValues casefold request ∨ s ∈ overlookedTexts casefold request := by
  obtain ⟨e,he,hs,hlong⟩ := h.scalar
  simp only [requestScalars,List.mem_append] at he
  simp only [requestSecretValues,overlookedTexts,List.mem_append]
  obtain ((((he | he) | he) | he) | he) | he := he
  · -- headers
    rcases mem_keyed he hs hlong with h | h
    · obtain ⟨hvalue,hlen⟩ := List.mem_filter.mp h
      obtain ⟨header,hheader,rfl⟩ := List.mem_map.mp hvalue
      refine .inl (.inl (.inl (.inl (.inl (List.mem_flatMap.mpr ⟨header,hheader,?_⟩)))))
      rw [headerSecretValues,if_pos (of_decide_eq_true hlen)]
      exact List.mem_append_left _ (List.mem_singleton_self _)
    · exact .inr (.inl (.inl (.inl (.inl h))))
  · -- bearer tokens
    obtain ⟨token,htoken,rfl⟩ := List.mem_map.mp he
    obtain rfl := List.mem_singleton.mp hs
    have hlen : 4 ≤ s.length := hlong.resolve_left (by simp [isSensitive])
    rcases Nat.eq_or_lt_of_le hlen with hfour | hmore
    · exact .inr (.inl (.inl (.inl (.inr (List.mem_filter.mpr ⟨htoken,decide_eq_true hfour.symm⟩)))))
    · obtain ⟨header,hheader,hdrop⟩ := List.mem_map.mp htoken
      obtain ⟨hheader,hbearer⟩ := List.mem_filter.mp hheader
      subst hdrop
      refine .inl (.inl (.inl (.inl (.inl (List.mem_flatMap.mpr ⟨header,hheader,?_⟩)))))
      rw [List.length_drop] at hmore
      rw [headerSecretValues,if_pos (c := isBearer casefold header.2 ∧ 11 < header.2.length)
        ⟨hbearer,by omega⟩]
      exact List.mem_append_right _ (List.mem_singleton_self _)
  · -- identifiers in the path
    obtain ⟨id,hid,rfl⟩ := List.mem_map.mp he
    obtain rfl := List.mem_singleton.mp hs
    have hlen : 4 ≤ s.length := hlong.resolve_left (by simp [isSensitive])
    exact .inl (.inl (.inl (.inl (.inr (List.mem_filter.mpr ⟨hid,decide_eq_true hlen⟩)))))
  · -- the query
    rcases mem_keyed he hs hlong with h | h
    · exact .inl (.inl (.inl (.inr h)))
    · exact .inr (.inl (.inl (.inr h)))
  · -- the form
    rcases mem_keyed he hs hlong with h | h
    · exact .inl (.inl (.inr h))
    · exact .inr (.inl (.inr h))
  · -- the JSON body
    rcases mem_leaf hs hlong with h | h
    · obtain ⟨value,hvalue,hleaf⟩ := List.mem_flatMap.mp he
      have hcollected : s ∈ collectSensitiveValues casefold value := List.mem_flatMap.mpr ⟨e,hleaf,h⟩
      exact .inl (.inr (List.mem_flatMap.mpr ⟨value,hvalue,hcollected⟩))
    · exact .inr (.inr (List.mem_flatMap.mpr ⟨e,he,h⟩))

theorem IsSecret.ne_nil (h : IsSecret casefold request s) : s ≠ [] := by
  rintro rfl
  exact h.unmarked redacted (by simp [redactionMarkers]) List.nil_infix

theorem secretOrder_exists (members : List Str) : ∃ secrets, SecretOrder members secrets := by
  have htotal : ∀ s t : Str, (decide (t.length ≤ s.length) || decide (s.length ≤ t.length)) = true := by
    intro s t
    simp only [Bool.or_eq_true,decide_eq_true_eq]
    omega
  have htrans : ∀ s t u : Str, decide (t.length ≤ s.length) = true → decide (u.length ≤ t.length) = true →
      decide (u.length ≤ s.length) = true := by
    intro s t u
    simp only [decide_eq_true_eq]
    omega
  refine ⟨members.dedup.mergeSort (fun s t => decide (t.length ≤ s.length)),?_,?_,?_⟩
  · exact (List.mergeSort_perm _ _).nodup_iff.mpr members.nodup_dedup
  · intro s
    rw [(List.mergeSort_perm _ _).mem_iff,List.mem_dedup]
  · exact (List.pairwise_mergeSort htrans htotal _).imp (fun h => of_decide_eq_true h)

end Collection

section Scrubbing
variable {casefold : Str → Str} {isAlnum : CodePoint → Bool} {request : TeslaRequest}
variable {secrets : List Str} {s text : Str}

/-- A secret without brackets cannot be completed by a marker. -/
theorem markers_not_overlap (hopen : chr '[' ∉ s) (hclose : chr ']' ∉ s) :
    ∀ marker ∈ redactionMarkers, ¬ Overlaps marker s := by
  have hends : ∀ marker ∈ redactionMarkers,
      marker.head? = some (chr '[') ∧ marker.getLast? = some (chr ']') := by decide
  intro marker hmarker
  obtain ⟨hhead,hlast⟩ := hends marker hmarker
  exact not_overlaps hhead hlast hopen hclose

theorem diagnosticPatterns_marker : ∀ p ∈ diagnosticPatterns isAlnum, p.2 ∈ redactionMarkers := by
  intro p hp
  simp only [diagnosticPatterns,List.mem_cons,List.not_mem_nil,or_false] at hp
  obtain rfl | rfl | rfl | rfl | rfl | rfl | rfl | rfl := hp <;> simp [redactionMarkers]

/-- Collected secrets are gone after their replacement, and none comes back. -/
theorem not_infix_withoutSecrets (hs : s ≠ []) (hpart : ¬ s <:+: redacted)
    (hover : ¬ Overlaps redacted s) (h : s ∈ secrets ∨ ¬ s <:+: text) :
    ¬ s <:+: withoutSecrets secrets text := by
  induction secrets generalizing text with
  | nil => exact h.resolve_left List.not_mem_nil
  | cons secret rest ih =>
    show ¬ s <:+: withoutSecrets rest (replaceAll text secret redacted)
    refine ih ?_
    rcases h with h | h
    · rcases List.mem_cons.mp h with rfl | h
      · exact .inr (not_infix_replaceAll hs hpart hover)
      · exact .inl h
    · exact .inr (fun hin => h (infix_replaceAll hs hpart hover hin))

theorem not_infix_withoutPatterns (hs : s ≠ []) (hpart : ∀ marker ∈ redactionMarkers, ¬ s <:+: marker)
    (hover : ∀ marker ∈ redactionMarkers, ¬ Overlaps marker s) (h : ¬ s <:+: text) :
    ¬ s <:+: withoutPatterns isAlnum text := by
  have hfold : ∀ (ps : List (Regex × Str)), ps ⊆ diagnosticPatterns isAlnum → ∀ text, ¬ s <:+: text →
      ¬ s <:+: ps.foldl (fun text p => p.1.sub (Telemetry.isWord isAlnum) p.2 text) text := by
    intro ps
    induction ps with
    | nil => exact fun _ text h => h
    | cons p rest ih =>
      intro hps text h
      obtain ⟨hp,hrest⟩ := List.cons_subset.mp hps
      have hmarker := diagnosticPatterns_marker p hp
      refine ih hrest _ (fun hin => h ?_)
      exact Regex.infix_sub (diagnosticPatterns_consume p hp) hs (hpart _ hmarker) (hover _ hmarker) hin
  exact hfold _ (List.Subset.refl _) text h

theorem withoutSecrets_absent (h : ∀ s ∈ secrets, ¬ s <:+: text) : withoutSecrets secrets text = text := by
  induction secrets with
  | nil => rfl
  | cons secret rest ih =>
    obtain ⟨hfirst,hrest⟩ := List.forall_mem_cons.mp h
    show withoutSecrets rest (replaceAll text secret redacted) = text
    rw [replaceAll_absent hfirst]
    exact ih hrest

theorem withoutPatterns_quiet (h : ∀ p ∈ diagnosticPatterns isAlnum,
    p.1.found (Telemetry.isWord isAlnum) text = false) : withoutPatterns isAlnum text = text := by
  unfold withoutPatterns
  generalize diagnosticPatterns isAlnum = ps at h ⊢
  induction ps with
  | nil => rfl
  | cons p rest ih =>
    obtain ⟨hfirst,hrest⟩ := List.forall_mem_cons.mp h
    rw [List.foldl_cons,Regex.sub_quiet hfirst]
    exact ih hrest

/-- An untouched text is logged as it is. -/
theorem scrub_untouched (hset : ∀ s, s ∈ secrets ↔ s ∈ requestSecretValues casefold request)
    (h : ¬ Touched isAlnum (requestSecretValues casefold request) text) :
    withoutPatterns isAlnum (withoutSecrets secrets text) = text := by
  obtain ⟨hno,hquiet⟩ := not_or.mp h
  have habsent : withoutSecrets secrets text = text := by
    refine withoutSecrets_absent ?_
    intro s hs hin
    exact hno ⟨s,(hset s).mp hs,hin⟩
  rw [habsent]
  refine withoutPatterns_quiet ?_
  intro p hp
  rw [← Bool.not_eq_true]
  exact fun hfound => hquiet ⟨p,hp,hfound⟩

/-- A touched text that is not mixed up with a secret holds none afterwards. -/
theorem scrub_touched {value : Str} (hs : IsSecret casefold request s)
    (hset : ∀ s, s ∈ secrets ↔ s ∈ requestSecretValues casefold request)
    (htouched : Touched isAlnum (requestSecretValues casefold request) (joinWords value))
    (hmixed : ¬ Mixed casefold isAlnum request (.str value)) :
    ¬ s <:+: withoutPatterns isAlnum (withoutSecrets secrets (joinWords value)) := by
  have hover : ∀ marker ∈ redactionMarkers, ¬ Overlaps marker s := fun marker hmarker hover =>
    hmixed ⟨htouched,s,hs,.inr ⟨marker,hmarker,hover⟩⟩
  have hredacted : redacted ∈ redactionMarkers := by simp [redactionMarkers]
  have hgone : s ∈ secrets ∨ ¬ s <:+: joinWords value := by
    rcases hs.collected_or with h | h
    · exact .inl ((hset s).mpr h)
    · exact .inr (fun hin => hmixed ⟨htouched,s,hs,.inl ⟨h,hin⟩⟩)
  refine not_infix_withoutPatterns hs.ne_nil hs.unmarked hover ?_
  exact not_infix_withoutSecrets hs.ne_nil (hs.unmarked _ hredacted) (hover _ hredacted) hgone

end Scrubbing

section Values
variable {casefold : Str → Str} {isAlnum : CodePoint → Bool} {request : TeslaRequest}
variable {secrets : List Str} {s : Str} {v w : Json}

variable (isAlnum secrets) in
theorem safeDiagnosticValue_isSome_iff :
    (safeDiagnosticValue isAlnum secrets v).isSome ↔ isLogged v = true := by
  cases v with
  | str value =>
    by_cases h : value = [] <;> simp [safeDiagnosticValue,isLogged,h]
  | _ => simp [safeDiagnosticValue,isLogged]

theorem filter_logged (vs : List Json) :
    (vs.filter isLogged).filterMap (safeDiagnosticValue isAlnum secrets) =
      vs.filterMap (safeDiagnosticValue isAlnum secrets) := by
  induction vs with
  | nil => rfl
  | cons v vs ih =>
    cases h : isLogged v with
    | true => rw [List.filter_cons_of_pos h,List.filterMap_cons,List.filterMap_cons,ih]
    | false =>
      have hnone : safeDiagnosticValue isAlnum secrets v = none := by
        rw [← Option.not_isSome_iff_eq_none,safeDiagnosticValue_isSome_iff,h]
        exact Bool.false_ne_true
      rw [List.filter_cons_of_neg (by simp [h]),List.filterMap_cons_none hnone,ih]

theorem entryOf_values (key : Str) (v : Option Json) : (entryOf key v).map Prod.snd = v.toList := by
  cases v <;> rfl

theorem toList_bind (v : Option Json) : (v.bind (safeDiagnosticValue isAlnum secrets)).toList =
    v.toList.filterMap (safeDiagnosticValue isAlnum secrets) := by
  cases v with
  | none => rfl
  | some v => cases h : safeDiagnosticValue isAlnum secrets v <;> simp [h]

theorem filter_isBool (v : Option Json) :
    (v.filter isBool).toList.filterMap (safeDiagnosticValue isAlnum secrets) =
      (v.filter isBool).toList := by
  cases v with
  | none => rfl
  | some v => cases v <;> rfl

/-- A summary is what `_safe_diagnostic_value` makes of the values it is taken from. -/
theorem documentSummary_values (document : Dict Json) :
    (documentSummary isAlnum secrets document).map Prod.snd =
      (documentValues document).filterMap (safeDiagnosticValue isAlnum secrets) := by
  have hkeys : ∀ keys : List Str, (keys.flatMap (fun key =>
      entryOf key ((document.get key).bind (safeDiagnosticValue isAlnum secrets)))).map Prod.snd =
      (keys.filterMap document.get).filterMap (safeDiagnosticValue isAlnum secrets) := by
    intro keys
    induction keys with
    | nil => rfl
    | cons key keys ih =>
      rw [List.flatMap_cons,List.map_append,entryOf_values,toList_bind,ih]
      cases h : document.get key with
      | none => simp [h]
      | some v =>
        rw [List.filterMap_cons_some h,← List.singleton_append,List.filterMap_append]
        rfl
  rw [documentSummary,documentValues,filter_logged,List.map_append,List.filterMap_append,hkeys]
  congr 1
  cases document.get (str "response") with
  | none => rfl
  | some v =>
    cases v with
    | obj payload =>
      dsimp only
      rw [List.map_append,List.filterMap_append,entryOf_values,entryOf_values,toList_bind,filter_isBool]
    | _ => rfl

section Responses
variable {limit status : Nat} {body : Bytes} {summary : Dict Json}

theorem responseSummary_eq_iff :
    responseSummary isAlnum limit secrets request status body = .ok (some summary) ↔
      ∃ document, summarizedDocument limit request status body = some document ∧
        summary = documentSummary isAlnum secrets document ∧ summary ≠ [] := by
  unfold responseSummary diagnosticSummary summarizedDocument
  cases shouldSummarizeResponse request status body with
  | false => simp
  | true =>
    rw [if_pos rfl,if_pos rfl]
    cases responseJson limit body with
    | error e => cases e <;> simp [Except.map]
    | ok v =>
      cases v with
      | obj document =>
        by_cases hempty : documentSummary isAlnum secrets document = []
        · simp [Except.map,hempty]
        · simp only [Except.map,hempty,if_false,Except.ok.injEq,Option.some.injEq,exists_eq_left']
          constructor
          · rintro rfl
            exact ⟨rfl,hempty⟩
          · exact fun h => h.1.symm
      | _ => simp [Except.map]

theorem summary_values (h : responseSummary isAlnum limit secrets request status body = .ok (some summary)) :
    summary.map Prod.snd =
      (loggedValues limit request status body).filterMap (safeDiagnosticValue isAlnum secrets) := by
  obtain ⟨document,hdocument,rfl,_⟩ := responseSummary_eq_iff.mp h
  rw [documentSummary_values,loggedValues,hdocument]
  rfl

variable (isAlnum secrets) in
/-- A value that can be logged is logged. -/
theorem logged_value (hv : v ∈ loggedValues limit request status body) : ∃ summary,
    responseSummary isAlnum limit secrets request status body = .ok (some summary) ∧
      ∃ e ∈ summary, safeDiagnosticValue isAlnum secrets v = some e.2 := by
  unfold loggedValues at hv
  cases hdocument : summarizedDocument limit request status body with
  | none => simp [hdocument] at hv
  | some document =>
    rw [hdocument] at hv
    have hvalue : v ∈ documentValues document := hv
    obtain ⟨w,hw⟩ := Option.isSome_iff_exists.mp
      ((safeDiagnosticValue_isSome_iff isAlnum secrets).mpr (List.mem_filter.mp hvalue).2)
    have hmem : w ∈ (documentSummary isAlnum secrets document).map Prod.snd := by
      rw [documentSummary_values]
      exact List.mem_filterMap.mpr ⟨v,hvalue,hw⟩
    obtain ⟨e,he,rfl⟩ := List.mem_map.mp hmem
    exact ⟨_,responseSummary_eq_iff.mpr ⟨document,hdocument,rfl,List.ne_nil_of_mem he⟩,e,he,hw⟩

end Responses

end Values

section Secrecy
variable {casefold : Str → Str} {isAlnum : CodePoint → Bool} {request : TeslaRequest}
variable {secrets : List Str} {s : Str} {v w : Json}

variable (casefold request) in
/-- A text is scrubbed and cut; what else is logged is logged as it is. -/
theorem safeDiagnosticValue_cases (h : safeDiagnosticValue isAlnum secrets v = some w) :
    (∃ value, v = .str value ∧
      w = .str ((withoutPatterns isAlnum (withoutSecrets secrets (joinWords value))).take 256)) ∨
    w = v ∧ unchangedTexts casefold isAlnum request v = scalarTexts v := by
  cases v with
  | null => cases h
  | arr items => cases h
  | obj entries => cases h
  | bool b => exact .inr ⟨(Option.some.inj h).symm,rfl⟩
  | int i => exact .inr ⟨(Option.some.inj h).symm,rfl⟩
  | float x => exact .inr ⟨(Option.some.inj h).symm,rfl⟩
  | str value =>
    rw [safeDiagnosticValue] at h
    split at h
    · cases h
    · exact .inl ⟨value,rfl,(Option.some.inj h).symm⟩

/-- What is logged of a value that is clear and not mixed up with a secret shows no secret. -/
theorem not_shown (hs : IsSecret casefold request s)
    (hset : ∀ s, s ∈ secrets ↔ s ∈ requestSecretValues casefold request)
    (hclear : Clear casefold isAlnum request v) (hmixed : ¬ Mixed casefold isAlnum request v)
    (hw : safeDiagnosticValue isAlnum secrets v = some w) : ∀ text ∈ scalarTexts w, ¬ s <:+: text := by
  intro text htext hin
  rcases safeDiagnosticValue_cases casefold request hw with ⟨value,rfl,rfl⟩ | ⟨rfl,hsame⟩
  · obtain rfl := List.mem_singleton.mp htext
    by_cases htouched : Touched isAlnum (requestSecretValues casefold request) (joinWords value)
    · exact scrub_touched hs hset htouched hmixed (hin.trans (List.take_prefix 256 _).isInfix)
    · rw [scrub_untouched hset htouched] at hin
      refine hclear s hs _ ?_ hin
      rw [unchangedTexts,if_neg htouched]
      exact List.mem_singleton_self _
  · exact hclear s hs text (hsame ▸ htext) hin

/-- What nothing is taken out of is logged as it is. -/
theorem unchanged_shown {text : Str}
    (hset : ∀ s, s ∈ secrets ↔ s ∈ requestSecretValues casefold request)
    (htext : text ∈ unchangedTexts casefold isAlnum request v)
    (hw : safeDiagnosticValue isAlnum secrets v = some w) : text ∈ scalarTexts w := by
  rcases safeDiagnosticValue_cases casefold request hw with ⟨value,rfl,rfl⟩ | ⟨rfl,hsame⟩
  · rw [unchangedTexts] at htext
    split at htext
    · cases htext
    · rename_i htouched
      rw [scrub_untouched hset htouched]
      exact htext
  · rw [← hsame]
    exact htext

variable (casefold isAlnum) in
theorem clear_of_keepsSecrets {limit status : Nat} {body : Bytes}
    (h : KeepsSecrets casefold isAlnum limit request status body)
    (hv : v ∈ loggedValues limit request status body) : Clear casefold isAlnum request v := by
  intro s hs text htext hin
  obtain ⟨secrets,horder⟩ := secretOrder_exists (requestSecretValues casefold request)
  obtain ⟨summary,hsummary,e,he,hw⟩ := logged_value isAlnum secrets hv
  exact h secrets horder summary hsummary s hs ⟨e,he,text,unchanged_shown horder.2.1 htext hw,hin⟩

section Pin

/-- A command with a speed limit's PIN. -/
def pinRequest : TeslaRequest :=
  ⟨"POST","/api/1/vehicles/5YJ3E1EA7KF000316/command/speed_limit_activate".toList,[],
    [(str "Authorization",str "Bearer abc123")],.json (.obj [(str "pin",.str (str "1234"))])⟩

def foldAscii (s : Str) : Str := s.map Telemetry.asciiLower

theorem pinRequest_parts : pathParts pinRequest.path =
    ["api","1","vehicles","5YJ3E1EA7KF000316","command","speed_limit_activate"] := by
  have hsplit : (pinRequest.path.splitOn '/').filter (fun part => decide (part ≠ [])) =
      ["api".toList,"1".toList,"vehicles".toList,"5YJ3E1EA7KF000316".toList,"command".toList,
       "speed_limit_activate".toList] := by decide
  rw [pathParts,hsplit]
  simp [unquote_plain]

theorem pinRequest_unbracketed (hs : IsSecret foldAscii pinRequest s) : chr '[' ∉ s ∧ chr ']' ∉ s := by
  have hall : (requestScalars foldAscii pinRequest).all (fun e =>
      (scalarTexts e.2).all (fun s => decide (chr '[' ∉ s ∧ chr ']' ∉ s))) = true := by
    rw [requestScalars,pinRequest_parts]
    decide +kernel
  obtain ⟨e,he,htext,_⟩ := hs.scalar
  exact of_decide_eq_true (List.all_eq_true.mp (List.all_eq_true.mp hall e he) s htext)

theorem pinRequest_collected : str "1234" ∈ requestSecretValues foldAscii pinRequest :=
  List.mem_append_right _ (by decide +kernel)

def summaryTexts : Except PyExc (Option (Dict Json)) → List Str
  | .ok (some summary) => summary.filterMap (fun e => stringOf e.2)
  | _ => []

end Pin

end Secrecy

end Woodhouse.Transport
