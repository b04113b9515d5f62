import Woodhouse.Transport.RequestLog

namespace Woodhouse.Transport
open Identity Paths Python

/-- What the local proxy is sent. -/
structure ProxyRequest where
  verb : String
  url : List Char
  headers : List (Str × Str)
  json : List (Str × Json)

/-- The path is one of a typed command: `/api/1/vehicles/{vin}/command/{name}`. -/
def typedVehicleCommand (path : List Char) : Bool :=
  let parts := path.splitOn '/'
  parts.length = 7 ∧ (parts.drop 1).take 3 = ["api".toList,"1".toList,"vehicles".toList] ∧
    parts[5]? = some "command".toList ∧
    parts[6]?.any (fun name => decide (String.ofList name ∈ Commands.commandNames))

def signedTelemetryConfig (path : List Char) : Bool :=
  path = "/api/1/vehicles/fleet_telemetry_config".toList

/-- `LocalCommandProxyTransport.request` up to the request it makes, `none` where it raises
a `ValueError`. -/
def proxyRequest (origin : String) (verb : String) (url : List Char) (headers : List (Str × Str))
    (form : Option (List (Str × Str))) (jsonBody : Option (List (Str × Json))) : Option ProxyRequest :=
  if form.isSome then none
  else match approvedUrl url with
    | none => none
    | some parsed =>
      if verb ≠ "POST" ∨ parsed.query ≠ [] ∨
          ¬ (typedVehicleCommand parsed.path ∨ signedTelemetryConfig parsed.path) then none
      else some ⟨"POST",origin.toList ++ parsed.path,headers,jsonBody.getD []⟩

def Target.isCommand : Target → Bool
  | .command _ => true
  | _ => false

/-- The calls that are made through the proxy. -/
def IsProxied (call : FleetCall) : Prop :=
  (∃ name, call.target = .command name) ∨ call.name = "fleet_telemetry_config_create"

section Paths
variable {t : Target} {vin id : String}

theorem splitOn_path {path : List Char} (hfixed : t.Fixed)
    (htext : path = absolute ((t.segments vin id).map String.toList)) :
    path.splitOn '/' = [] :: (t.segments vin id).map String.toList := by
  rw [htext]
  apply splitOn_absolute
  intro text hmem hslash
  obtain ⟨s,hs,rfl⟩ := List.mem_map.mp hmem
  exact (segments_chars hfixed s hs '/' hslash).2.1 rfl

theorem fixedPaths_untyped : ∀ path ∈ fixedPaths, typedVehicleCommand path.toList = false := by decide

theorem typedVehicleCommand_iff {path : List Char} (hfixed : t.Fixed)
    (htext : path = absolute ((t.segments vin id).map String.toList)) :
    typedVehicleCommand path ↔ ∃ name, t = .command name := by
  cases t with
  | fixed text =>
    have hpath : path = text.toList := htext.trans (fixedPaths_absolute text hfixed).symm
    rw [hpath,fixedPaths_untyped text hfixed]
    simp
  | vehicle suffix =>
    rw [typedVehicleCommand,splitOn_path hfixed htext]
    cases suffix <;> simp [Target.segments]
  | invitation =>
    rw [typedVehicleCommand,splitOn_path hfixed htext]
    simp [Target.segments]
  | invoice =>
    rw [typedVehicleCommand,splitOn_path hfixed htext]
    simp [Target.segments]
  | command name =>
    have hname : name ∈ Commands.commandNames := hfixed
    rw [typedVehicleCommand,splitOn_path hfixed htext]
    simp [Target.segments,hname]

theorem clientCalls_verb : ∀ call ∈ clientCalls, call.target = .vehicle none → call.verb = "GET" := by
  decide

theorem clientCalls_command : ∀ call ∈ clientCalls, call.target.isCommand = false := by decide

theorem clientCalls_create : ∀ call ∈ clientCalls,
    (call.name = "fleet_telemetry_config_create" ↔
      call.target = .fixed "/api/1/vehicles/fleet_telemetry_config") ∧
    (call.name = "fleet_telemetry_config_create" → call.verb = "POST") := by decide

/-- Only one path of the client's is the one of the signed configuration, and the path of
a vehicle that is not asked for by `POST`. -/
theorem signedTelemetryConfig_cases {path : List Char} (hfixed : t.Fixed)
    (htext : path = absolute ((t.segments vin id).map String.toList))
    (h : signedTelemetryConfig path) :
    t = .fixed "/api/1/vehicles/fleet_telemetry_config" ∨ t = .vehicle none := by
  have hpath : path = "/api/1/vehicles/fleet_telemetry_config".toList := of_decide_eq_true h
  have hlength : ((t.segments vin id).map String.toList).length = 4 := by
    have hsplit := splitOn_path hfixed htext
    rw [hpath] at hsplit
    have hcount := congrArg List.length hsplit
    have hfour : ("/api/1/vehicles/fleet_telemetry_config".toList.splitOn '/').length = 5 := by decide
    rw [hfour,List.length_cons] at hcount
    omega
  cases t with
  | fixed text =>
    have htext' : text.toList = "/api/1/vehicles/fleet_telemetry_config".toList :=
      ((htext.trans (fixedPaths_absolute text hfixed).symm).symm.trans hpath)
    exact .inl (congrArg _ (String.toList_inj.mp htext'))
  | vehicle suffix =>
    cases suffix with
    | none => exact .inr rfl
    | some suffix => simp [Target.segments] at hlength
  | invitation => simp [Target.segments] at hlength
  | invoice => simp [Target.segments] at hlength
  | command name => simp [Target.segments] at hlength

end Paths

theorem urlencode_eq_nil {pairs : List (String × String)} : urlencode pairs = [] ↔ pairs = [] := by
  constructor
  · intro h
    cases pairs with
    | nil => rfl
    | cons p rest =>
      have hmem : '=' ∈ urlencode (p :: rest) := by
        cases rest with
        | nil => simp [urlencode]
        | cons q rest => simp [urlencode,List.intercalate_cons_cons]
      rw [h] at hmem
      cases hmem
  · rintro rfl
    rfl

theorem call_cases {call : FleetCall} (hcall : call ∈ fleetCalls) :
    call ∈ clientCalls ∨ ∃ name, call = commandCall name := by
  rcases List.mem_append.mp hcall with h | h
  · exact .inl h
  · obtain ⟨name,_,rfl⟩ := List.mem_map.mp h
    exact .inr ⟨name,rfl⟩

/-- Among the client's own requests, the two checks of the path admit by `POST` the calls
that are made through the proxy. -/
theorem admitted_iff {call : FleetCall} {vin id : String} {path : List Char}
    (hcall : call ∈ fleetCalls)
    (htext : path = absolute ((call.target.segments vin id).map String.toList)) :
    (call.verb = "POST" ∧ (typedVehicleCommand path ∨ signedTelemetryConfig path)) ↔ IsProxied call := by
  have hfixed := fleetCalls_fixed call hcall
  have htyped := typedVehicleCommand_iff hfixed htext
  constructor
  · rintro ⟨hverb,hpath⟩
    rcases hpath with h | h
    · exact .inl (htyped.mp h)
    · have hsigned := signedTelemetryConfig_cases hfixed htext h
      rcases call_cases hcall with hclient | ⟨name,rfl⟩
      · rcases hsigned with hcreate | hvehicle
        · exact .inr ((clientCalls_create call hclient).1.mpr hcreate)
        · have hget := clientCalls_verb call hclient hvehicle
          rw [hget] at hverb
          exact absurd hverb (by decide)
      · exact .inl ⟨name,rfl⟩
  · intro h
    rcases call_cases hcall with hclient | ⟨name,rfl⟩
    · rcases h with ⟨name,hname⟩ | hname
      · have hother := clientCalls_command call hclient
        rw [hname] at hother
        cases hother
      · have hcreate := clientCalls_create call hclient
        have htarget := hcreate.1.mp hname
        refine ⟨hcreate.2 hname,.inr ?_⟩
        rw [htarget] at htext hfixed
        have hpath : path = "/api/1/vehicles/fleet_telemetry_config".toList :=
          htext.trans (fixedPaths_absolute _ hfixed).symm
        exact decide_eq_true hpath
    · exact ⟨rfl,.inl (htyped.mpr ⟨name,rfl⟩)⟩

/-- The proxy is sent the typed commands and the signed telemetry configuration of the
client, each to the path it was made for, and nothing else that the client asks for. -/
theorem proxyRequest_call (origin : String) (call : FleetCall) (hcall : call ∈ fleetCalls)
    (base : String) (hbase : base ∈ Commands.knownFleetApiBaseUrls) (vin id : String)
    (hvin : strip vin ≠ "") (hid : strip id ≠ "") (pairs : List (String × String))
    (headers : List (Str × Str)) (jsonBody : Option (List (Str × Json))) :
    ∃ path, call.target.path vin id = .ok path ∧
      ∀ request, proxyRequest origin call.verb (base.toList ++ withQuery path.toList pairs) headers none
          jsonBody = some request ↔
        (IsProxied call ∧ pairs = []) ∧
          request = ⟨"POST",origin.toList ++ path.toList,headers,jsonBody.getD []⟩ := by
  have hfixed := fleetCalls_fixed call hcall
  obtain ⟨path,hpath,htext⟩ := target_path hfixed hvin hid
  obtain ⟨host,hhost,hurl,u,hu,hupath,huquery,huhost⟩ := approvedUrl_request hfixed hbase htext pairs
  have hadmitted := admitted_iff hcall htext
  have hquery : u.query = [] ↔ pairs = [] := by rw [huquery,urlencode_eq_nil]
  refine ⟨path,hpath,fun request => ?_⟩
  unfold proxyRequest
  rw [if_neg (by decide),hu]
  dsimp only
  rw [hupath]
  by_cases hallowed : IsProxied call ∧ pairs = []
  · obtain ⟨hverb,hchecks⟩ := hadmitted.mpr hallowed.1
    have hempty := hquery.mpr hallowed.2
    rw [if_neg (by simp [hverb,hempty,hchecks])]
    simp [hallowed,eq_comm]
  · have hrefused : call.verb ≠ "POST" ∨ u.query ≠ [] ∨
        ¬ (typedVehicleCommand path.toList ∨ signedTelemetryConfig path.toList) := by
      by_contra hnot
      rw [not_or,not_or,not_not,not_not,not_not] at hnot
      exact hallowed ⟨hadmitted.mp ⟨hnot.1,hnot.2.2⟩,hquery.mp hnot.2.1⟩
    rw [if_pos hrefused]
    simp [hallowed]

/-- A horn is honked through the proxy. -/
theorem proxyRequest_honk : ∃ path, (Target.command "honk_horn").path "5YJ3E1EA7KF000316" "1" = .ok path ∧
    proxyRequest "https://localhost:4443" "POST"
      ("https://fleet-api.prd.na.vn.cloud.tesla.com".toList ++ withQuery path.toList []) [] none none =
      some ⟨"POST","https://localhost:4443".toList ++ path.toList,[],[]⟩ := by
  have hcall : commandCall "honk_horn" ∈ fleetCalls :=
    List.mem_append_right _ (List.mem_map_of_mem (by decide))
  obtain ⟨path,hpath,hrequest⟩ := proxyRequest_call "https://localhost:4443" (commandCall "honk_horn")
    hcall "https://fleet-api.prd.na.vn.cloud.tesla.com" (by decide) "5YJ3E1EA7KF000316" "1" (by decide)
    (by decide) [] [] none
  exact ⟨path,hpath,(hrequest _).mpr ⟨⟨.inl ⟨_,rfl⟩,rfl⟩,rfl⟩⟩

end Woodhouse.Transport
