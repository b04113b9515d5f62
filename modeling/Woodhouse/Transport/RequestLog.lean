import Mathlib.Data.List.TakeWhile
import Woodhouse.Python.Json
import Woodhouse.Transport.Routes

namespace Woodhouse.Transport
open Identity Paths Python

section Parsing
variable {host path query : List Char}

/-- A host as it stands in an approved URL. -/
def IsHost (host : List Char) : Prop :=
  host ≠ [] ∧ ∀ c ∈ host, c.toNat < 128 ∧ isNetlocEnd c = false ∧ c ∉ ['[',']','@',':','%','\t','\r','\n'] ∧
    c.toLower = c

def isHostChar (c : Char) : Bool :=
  decide (c.toNat < 128) && !isNetlocEnd c &&
    !(['[',']','@',':','%','\t','\r','\n'].contains c) && c.toLower == c

theorem isHost_of_chars (hne : host.isEmpty = false) (h : host.all isHostChar = true) :
    IsHost host := by
  constructor
  · intro hnil
    simp [hnil] at hne
  intro c hc
  have hchar := List.all_eq_true.mp h c hc
  simp only [isHostChar,Bool.and_eq_true,Bool.not_eq_true',decide_eq_true_eq,beq_iff_eq] at hchar
  obtain ⟨⟨⟨hascii,hend⟩,hmark⟩,hlower⟩ := hchar
  refine ⟨hascii,hend,?_,hlower⟩
  simpa using hmark

theorem teslaApiHosts_isHost : ∀ name ∈ teslaApiHosts, IsHost name.toList := by
  intro name hname
  have hall : teslaApiHosts.all (fun name =>
      !name.toList.isEmpty && name.toList.all isHostChar) = true := by decide
  have hchars := List.all_eq_true.mp hall name hname
  simp only [Bool.and_eq_true,Bool.not_eq_true'] at hchars
  exact isHost_of_chars hchars.1 hchars.2

/-- The hosts of the Fleet API base URLs. -/
def fleetApiHosts : List String :=
  ["fleet-api.prd.na.vn.cloud.tesla.com","fleet-api.prd.eu.vn.cloud.tesla.com",
   "fleet-api.prd.cn.vn.cloud.tesla.cn"]

theorem fleetApiHosts_tesla : ∀ host ∈ fleetApiHosts, host ∈ teslaApiHosts := by decide

theorem knownFleetApiBaseUrls_host : ∀ base ∈ Commands.knownFleetApiBaseUrls,
    ∃ host ∈ fleetApiHosts, base.toList = "https://".toList ++ host.toList := by decide

/-- The query part of a URL as it is written. -/
def queryText (pairs : List (String × String)) : List Char :=
  if pairs = [] then [] else '?' :: urlencode pairs

theorem withQuery_eq (path : List Char) (pairs : List (String × String)) :
    withQuery path pairs = path ++ queryText pairs := by
  unfold withQuery queryText
  split <;> simp

theorem splitNetloc_host (h : IsHost host) (hpath : ∃ rest, path = '/' :: rest) :
    splitNetloc ('/' :: '/' :: (host ++ path)) = (host,path) := by
  obtain ⟨rest,rfl⟩ := hpath
  have hhost : ∀ c ∈ host, (!isNetlocEnd c) = true := fun c hc => by rw [(h.2 c hc).2.1]; rfl
  simp only [splitNetloc,List.take_succ_cons,List.take_zero,if_true,List.drop_succ_cons,List.drop_zero]
  rw [List.takeWhile_append_of_pos hhost,List.dropWhile_append_of_pos hhost]
  simp [isNetlocEnd]

theorem splitAt_absent {c : Char} {s : List Char} (h : c ∉ s) : splitAt c s = (s,[]) := by
  have hne : ∀ d ∈ s, decide (d ≠ c) = true := fun d hd => decide_eq_true (fun he => h (he ▸ hd))
  unfold splitAt
  rw [List.takeWhile_eq_self_iff.mpr hne,List.dropWhile_eq_nil_iff.mpr hne]
  rfl

theorem splitAt_present {c : Char} {s rest : List Char} (h : c ∉ s) :
    splitAt c (s ++ c :: rest) = (s,rest) := by
  have hne : ∀ d ∈ s, decide (d ≠ c) = true := fun d hd => decide_eq_true (fun he => h (he ▸ hd))
  unfold splitAt
  rw [List.takeWhile_append_of_pos hne,List.dropWhile_append_of_pos hne]
  simp

theorem splitScheme_https (rest : List Char) :
    splitScheme ("https://".toList ++ rest) = ("https".toList,'/' :: '/' :: rest) := by
  have hlong : "https://".toList = ['h','t','t','p','s',':','/','/'] := rfl
  have hshort : "https".toList = ['h','t','t','p','s'] := rfl
  have halpha : 'h'.isAlpha = true := by decide
  have hall : ['h','t','t','p','s'].all isSchemeChar = true := by decide
  have hlower : asciiLower ['h','t','t','p','s'] = ['h','t','t','p','s'] := by decide
  rw [hlong,hshort]
  simp [splitScheme,halpha,hall,hlower]

/-- The characters that `urlsplit` drops anywhere in a URL. -/
def isUnsafe (c : Char) : Bool := c ∈ ['\t','\r','\n']

theorem isUnsafe_urlChar {c : Char} (h : IsUrlChar c) : isUnsafe c = false := by
  have hne : ∀ d : Char, d.toNat ≤ 32 → c ≠ d := by
    intro d hd heq
    rw [heq] at h
    exact absurd h.1 (by omega)
  simp [isUnsafe,hne]

theorem queryText_chars (pairs : List (String × String)) : ∀ c ∈ queryText pairs, IsUrlChar c := by
  intro c hc
  unfold queryText at hc
  split at hc
  · cases hc
  · rcases List.mem_cons.mp hc with rfl | hc
    · decide
    · exact urlencode_chars pairs c hc

theorem splitAt_queryText (hmark : '?' ∉ path) (pairs : List (String × String)) :
    splitAt '?' (path ++ queryText pairs) = (path,urlencode pairs) := by
  unfold queryText
  split
  · rename_i hnil
    subst hnil
    rw [List.append_nil]
    exact splitAt_absent hmark
  · exact splitAt_present hmark

theorem host_brackets (h : IsHost host) : ¬ ('[' ∈ host ∨ ']' ∈ host) := by
  rintro (hb | hb)
  · exact (h.2 _ hb).2.2.1 (by decide)
  · exact (h.2 _ hb).2.2.1 (by decide)

theorem host_delimiters (h : IsHost host) :
    host.any (fun c => decide (c.toNat ∈ netlocDelimiters)) = false := by
  have hwide : ∀ n ∈ netlocDelimiters, 128 ≤ n := by decide
  apply List.any_eq_false.mpr
  intro c hc hmem
  have hlt := (h.2 c hc).1
  exact absurd (hwide _ (of_decide_eq_true hmem)) (by omega)

/-- The URL of a client's request is read as the host, the path and the query it was
written from. -/
theorem urlsplit_request (hhost : IsHost host) (hpath : ∃ rest, path = '/' :: rest)
    (hchars : ∀ c ∈ path, IsUrlChar c ∧ c ≠ '?') (pairs : List (String × String)) :
    urlsplit ("https://".toList ++ host ++ withQuery path pairs) =
      some ⟨"https".toList,host,path,urlencode pairs,[]⟩ := by
  have hafter : ∀ c ∈ path ++ queryText pairs, IsUrlChar c := by
    intro c hc
    rcases List.mem_append.mp hc with hc | hc
    · exact (hchars c hc).1
    · exact queryText_chars pairs c hc
  have hclean : ("https://".toList ++ (host ++ (path ++ queryText pairs))).filter
      (fun c => c ∉ ['\t','\r','\n']) = "https://".toList ++ (host ++ (path ++ queryText pairs)) := by
    apply List.filter_eq_self.mpr
    intro c hc
    have hsafe : isUnsafe c = false := by
      rcases List.mem_append.mp hc with hc | hc
      · have hscheme : "https://".toList.all (fun c => !isUnsafe c) = true := by decide
        simpa using List.all_eq_true.mp hscheme c hc
      · rcases List.mem_append.mp hc with hc | hc
        · have hbad := (hhost.2 c hc).2.2.1
          simp only [List.mem_cons,List.not_mem_nil,or_false,not_or] at hbad
          simp [isUnsafe,hbad]
        · exact isUnsafe_urlChar (hafter c hc)
    simpa [isUnsafe] using hsafe
  have hnetloc : splitNetloc ('/' :: '/' :: (host ++ (path ++ queryText pairs))) =
      (host,path ++ queryText pairs) := by
    obtain ⟨rest,rfl⟩ := hpath
    exact splitNetloc_host hhost ⟨_,rfl⟩
  have hfragment : splitAt '#' (path ++ queryText pairs) = (path ++ queryText pairs,[]) :=
    splitAt_absent (fun h => (hafter _ h).2.2 rfl)
  have hstart : ("https://".toList ++ (host ++ (path ++ queryText pairs))).dropWhile isControlOrSpace =
      "https://".toList ++ (host ++ (path ++ queryText pairs)) := rfl
  rw [withQuery_eq,List.append_assoc]
  unfold urlsplit
  rw [hstart,hclean]
  dsimp only
  rw [splitScheme_https]
  dsimp only
  rw [hnetloc]
  dsimp only
  rw [if_neg (host_brackets hhost),hfragment]
  dsimp only
  rw [splitAt_queryText (fun h => (hchars _ h).2 rfl)]
  dsimp only
  rw [if_neg (by rw [host_delimiters hhost]; decide)]

theorem hostname_host (h : IsHost host) {u : SplitUrl} (hu : u.netloc = host) :
    u.hostname = some host := by
  have hne : ∀ c ∈ host, c ≠ '@' ∧ c ≠ ':' ∧ c ≠ '%' := by
    intro c hc
    have hbad := (h.2 c hc).2.2.1
    simp only [List.mem_cons,List.not_mem_nil,or_false,not_or] at hbad
    exact ⟨hbad.2.2.1,hbad.2.2.2.1,hbad.2.2.2.2.1⟩
  have hinfo : (u.netloc.reverse.takeWhile (· ≠ '@')).reverse = host := by
    have hall : ∀ c ∈ host.reverse, decide (c ≠ '@') = true := fun c hc =>
      decide_eq_true (hne c (List.mem_reverse.mp hc)).1
    rw [hu,List.takeWhile_eq_self_iff.mpr hall,List.reverse_reverse]
  have hport : host.takeWhile (· ≠ ':') = host :=
    List.takeWhile_eq_self_iff.mpr (fun c hc => decide_eq_true (hne c hc).2.1)
  have hzone : host.takeWhile (· ≠ '%') = host :=
    List.takeWhile_eq_self_iff.mpr (fun c hc => decide_eq_true (hne c hc).2.2)
  have hrest : host.dropWhile (· ≠ '%') = [] :=
    List.dropWhile_eq_nil_iff.mpr (fun c hc => decide_eq_true (hne c hc).2.2)
  have hlower : asciiLower host = host := by
    rw [asciiLower,List.map_congr_left (fun c hc => (h.2 c hc).2.2.2),List.map_id']
  unfold SplitUrl.hostname
  dsimp only
  rw [hinfo,hport,if_neg h.1,hzone,hrest,hlower,List.append_nil]

end Parsing

/-- The metadata of the operation that a request belongs to. -/
structure LogContext where
  correlationId : Option Str
  vehicleId : Option Str
  source : Option Str
  flowPhase : Option Str
  flowIteration : Option Int
  attempt : Option Int
  deriving DecidableEq

section Fields

inductive RequestBody where
  | none
  | form (pairs : List (Str × Str))
  | json (value : Json)

def sorted (keys : List Str) : List Str := keys.mergeSort (fun a b => decide (a ≤ b))

/-- `_request_fields`: the names only of what the body holds. -/
def requestFields : RequestBody → List Str
  | .none => []
  | .form pairs => sorted (pairs.map Prod.fst)
  | .json (.obj entries) => sorted (entries.map Prod.fst)
  | .json _ => []

def queryFields (query : List Char) : List Str :=
  sorted ((parseQsl query).map (fun p => str p.1)).dedup

def region (hostname : Option (List Char)) : String :=
  if hostname = some "fleet-api.prd.na.vn.cloud.tesla.com".toList then "na"
  else if hostname = some "fleet-api.prd.eu.vn.cloud.tesla.com".toList then "eu"
  else if hostname = some "fleet-api.prd.cn.vn.cloud.tesla.cn".toList then "cn"
  else if hostname = some "fleet-auth.prd.vn.cloud.tesla.com".toList then "global"
  else if hostname = some "auth.tesla.com".toList then "global"
  else "unknown"

def destination (hostname : Option (List Char)) : String :=
  if hostname = some "auth.tesla.com".toList ∨
      hostname = some "fleet-auth.prd.vn.cloud.tesla.com".toList then "tesla_oauth"
  else "tesla_fleet_api"

def texts (values : List Str) : Json := .arr (values.map .str)

/-- The context's fields that a request is logged with, where they are given. -/
def contextFields (context : LogContext) : List (Str × Json) :=
  [(str "correlation_id",context.correlationId.map .str),
   (str "vehicle_id",context.vehicleId.map .str),
   (str "source",context.source.map .str),
   (str "flow_phase",context.flowPhase.map .str),
   (str "flow_iteration",context.flowIteration.map .int)].filterMap
    (fun field => field.2.map (fun value => (field.1,value)))

/-- `context.attempt or 1`. -/
def attemptNumber (context : LogContext) : Int :=
  if context.attempt.getD 0 = 0 then 1 else context.attempt.getD 0

/-- What every event of a request tells about it. -/
def eventFields (callId : Str) (verb route operation destination region : String) (bodySize : Nat)
    (requestFields queryFields : List Str) (context : LogContext) : List (Str × Json) :=
  [(str "call_id",.str callId),(str "method",.str (str verb)),(str "route",.str (str route)),
   (str "operation",.str (str operation)),(str "destination",.str (str destination)),
   (str "region",.str (str region)),(str "attempt",.int (attemptNumber context)),
   (str "request_body_bytes",.int bodySize),(str "request_fields",texts requestFields),
   (str "query_fields",texts queryFields)] ++ contextFields context

/-- The fields of `_TeslaRequestLog.create`. -/
def createFields (callId : Str) (verb : String) (parsed : SplitUrl) (destination : String)
    (body : RequestBody) (bodySize : Nat) (context : LogContext) : List (Str × Json) :=
  let route := routeTemplate parsed.path
  eventFields callId verb route (operation verb route) destination (region parsed.hostname) bodySize
    (requestFields body) (queryFields parsed.query) context

end Fields

section Calls
variable {t : Target} {vin id : String}

theorem absolute_chars (hfixed : t.Fixed) :
    ∀ c ∈ absolute ((t.segments vin id).map String.toList), IsUrlChar c ∧ c ≠ '?' := by
  intro c hc
  obtain ⟨text,htext,hc⟩ := List.mem_flatMap.mp hc
  obtain ⟨s,hs,rfl⟩ := List.mem_map.mp htext
  rcases List.mem_cons.mp hc with rfl | hc
  · decide
  · obtain ⟨hurl,_,hmark⟩ := segments_chars hfixed s hs c hc
    exact ⟨hurl,hmark⟩

theorem segments_nonempty (hfixed : t.Fixed) : t.segments vin id ≠ [] := by
  cases t with
  | fixed path =>
    have hne : ∀ path ∈ fixedPaths, (Target.fixed path).segments "" "" ≠ [] := by decide
    exact hne path hfixed
  | vehicle suffix => cases suffix <;> simp [Target.segments]
  | invitation => simp [Target.segments]
  | invoice => simp [Target.segments]
  | command name => simp [Target.segments]

/-- The URL of a client's request, as the transports read it. -/
theorem approvedUrl_request {base path : String} (hfixed : t.Fixed)
    (hbase : base ∈ Commands.knownFleetApiBaseUrls)
    (htext : path.toList = absolute ((t.segments vin id).map String.toList))
    (pairs : List (String × String)) :
    ∃ host ∈ fleetApiHosts, base.toList = "https://".toList ++ host.toList ∧
      ∃ u, approvedUrl (base.toList ++ withQuery path.toList pairs) = some u ∧
        u.path = path.toList ∧ u.query = urlencode pairs ∧ u.hostname = some host.toList := by
  obtain ⟨host,hhost,htext'⟩ := knownFleetApiBaseUrls_host base hbase
  have htesla := fleetApiHosts_tesla host hhost
  have hvalid := teslaApiHosts_isHost host htesla
  have hchars : ∀ c ∈ path.toList, IsUrlChar c ∧ c ≠ '?' := htext ▸ absolute_chars hfixed
  have hslash : ∃ rest, path.toList = '/' :: rest := by
    obtain ⟨s,segments,hsegments⟩ := List.exists_cons_of_ne_nil (@segments_nonempty t vin id hfixed)
    rw [htext,hsegments]
    exact ⟨_,rfl⟩
  have hsplit := urlsplit_request hvalid hslash hchars pairs
  have hname := hostname_host hvalid (u := ⟨"https".toList,host.toList,path.toList,urlencode pairs,[]⟩) rfl
  refine ⟨host,hhost,htext',_,?_,rfl,rfl,hname⟩
  rw [htext',approvedUrl,hsplit,Option.filter_some]
  exact if_pos (decide_eq_true ⟨rfl,host,htesla,hname⟩)

theorem parsedNames (pairs : List (String × String)) :
    queryFields (urlencode pairs) =
      sorted ((pairs.filter (fun p => p.2 ≠ "")).map (fun p => str p.1)).dedup := by
  rw [queryFields,parseQsl_urlencode]

/-- A request of the client is logged under the route of its method and by the method's
name, whatever vehicle, identifiers, parameters and body values it carries. -/
theorem createFields_call (call : FleetCall) (hcall : call ∈ fleetCalls) (base : String)
    (hbase : base ∈ Commands.knownFleetApiBaseUrls) (vin id : String)
    (hvin : strip vin ≠ "" ∧ strip vin ∉ collectionVehicleRoutes) (hid : strip id ≠ "")
    (pairs : List (String × String)) (callId : Str) (body : RequestBody) (bodySize : Nat)
    (context : LogContext) :
    ∃ path, call.target.path vin id = .ok path ∧
      ∃ host ∈ fleetApiHosts, base.toList = "https://".toList ++ host.toList ∧
      ∃ u, approvedUrl (base.toList ++ withQuery path.toList pairs) = some u ∧
      createFields callId call.verb u (destination u.hostname) body bodySize context =
        eventFields callId call.verb call.target.route call.name "tesla_fleet_api"
          (region (some host.toList)) bodySize (requestFields body)
          (sorted ((pairs.filter (fun p => p.2 ≠ "")).map (fun p => str p.1)).dedup) context := by
  have hfixed := fleetCalls_fixed call hcall
  obtain ⟨path,hpath,htext⟩ := target_path hfixed hvin.1 hid
  obtain ⟨host,hhost,hurl,u,hu,hupath,huquery,huhost⟩ := approvedUrl_request hfixed hbase htext pairs
  have hroute : routeTemplate u.path = call.target.route := by
    rw [routeTemplate,hupath,htext,pathParts_target hfixed hvin.1 hid,routeOf_parts hfixed hvin.2]
  have hoperation : operation call.verb call.target.route = call.name := by
    rw [operation,endpointMethod_call hcall,Option.getD_some]
  have hdestination : ∀ host ∈ fleetApiHosts, destination (some host.toList) = "tesla_fleet_api" := by
    decide
  refine ⟨path,hpath,host,hhost,hurl,u,hu,?_⟩
  rw [createFields,hroute,hoperation,huhost,huquery,parsedNames,hdestination host hhost]

/-- A query and a command with a body through the European API. -/
theorem createFields_requests :
    (∃ path, (Target.vehicle (some "vehicle_data")).path "5YJ3E1EA7KF000316" "1" = .ok path ∧
      ∃ host ∈ fleetApiHosts,
      "https://fleet-api.prd.eu.vn.cloud.tesla.com".toList = "https://".toList ++ host.toList ∧
      ∃ u, approvedUrl ("https://fleet-api.prd.eu.vn.cloud.tesla.com".toList ++
          withQuery path.toList [("endpoints","charge_state;drive_state")]) = some u ∧
      createFields (str "api_1") "GET" u (destination u.hostname) .none 0
          ⟨none,none,none,none,none,some 1⟩ =
        eventFields (str "api_1") "GET" (Target.vehicle (some "vehicle_data")).route "vehicle_data"
          "tesla_fleet_api" (region (some host.toList)) 0 [] [str "endpoints"]
          ⟨none,none,none,none,none,some 1⟩) ∧
    ∃ path, (Target.command "set_charge_limit").path "5YJ3E1EA7KF000316" "1" = .ok path ∧
      ∃ host ∈ fleetApiHosts,
      "https://fleet-api.prd.eu.vn.cloud.tesla.com".toList = "https://".toList ++ host.toList ∧
      ∃ u, approvedUrl ("https://fleet-api.prd.eu.vn.cloud.tesla.com".toList ++
          withQuery path.toList []) = some u ∧
      createFields (str "api_2") "POST" u (destination u.hostname)
          (.json (.obj [(str "percent",.int 80)])) 14 ⟨none,none,none,none,none,some 1⟩ =
        eventFields (str "api_2") "POST" (Target.command "set_charge_limit").route
          "set_charge_limit" "tesla_fleet_api" (region (some host.toList)) 14 [str "percent"] []
          ⟨none,none,none,none,none,some 1⟩ := by
  have hdata := createFields_call ⟨"vehicle_data","GET",.vehicle (some "vehicle_data")⟩
    (List.mem_append_left _ (by decide)) "https://fleet-api.prd.eu.vn.cloud.tesla.com" (by decide)
    "5YJ3E1EA7KF000316" "1" (by decide) (by decide) [("endpoints","charge_state;drive_state")]
    (str "api_1") .none 0 ⟨none,none,none,none,none,some 1⟩
  have hlimit := createFields_call (commandCall "set_charge_limit")
    (List.mem_append_right _ (List.mem_map_of_mem (by decide)))
    "https://fleet-api.prd.eu.vn.cloud.tesla.com" (by decide) "5YJ3E1EA7KF000316" "1" (by decide)
    (by decide) [] (str "api_2") (.json (.obj [(str "percent",.int 80)])) 14
    ⟨none,none,none,none,none,some 1⟩
  have hnames : (([("endpoints","charge_state;drive_state")] : List (String × String)).filter
      (fun p => p.2 ≠ "")).map (fun p => str p.1) = [str "endpoints"] := by decide
  have hone : [str "endpoints"].dedup = [str "endpoints"] := by decide
  have hnone : ([] : List Str).dedup = [] := rfl
  rw [hnames,hone] at hdata
  simp only [requestFields,sorted,List.mergeSort_singleton] at hdata
  simp only [requestFields,sorted,commandCall,List.map_cons,List.map_nil,List.filter_nil,hnone,
    List.mergeSort_nil,List.mergeSort_singleton] at hlimit
  exact ⟨hdata,hlimit⟩

end Calls

end Woodhouse.Transport
