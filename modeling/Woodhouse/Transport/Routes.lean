import Woodhouse.Transport.Calls

namespace Woodhouse.Transport
open Identity Paths

section Templates

def collectionVehicleRoutes : List String :=
  ["fleet_status","fleet_telemetry_config","fleet_telemetry_config_jws"]

def knownRoutes : List String :=
  ["/api/1/dx/charging/history","/api/1/invitations/redeem","/api/1/partner_accounts",
   "/api/1/partner_accounts/fleet_telemetry_error_vins",
   "/api/1/partner_accounts/fleet_telemetry_errors","/api/1/partner_accounts/public_key",
   "/api/1/users/feature_config","/api/1/users/me","/api/1/users/orders","/api/1/users/region",
   "/oauth2/v3/discovery/thirdparty/keys","/oauth2/v3/token"]

def unrecognizedRoute : String := "/\x7bunrecognized_tesla_route\x7d"

/-- `[unquote(part) for part in path.split("/") if part]`. -/
def pathParts (path : List Char) : List String :=
  ((path.splitOn '/').filter (fun part => decide (part ≠ []))).map unquote

def joinRoute (parts : List String) : String := "/" ++ "/".intercalate parts

/-- The parts of a route of one vehicle, without what identifies the vehicle. -/
def vehicleRoute (parts : List String) : List String :=
  let parts :=
    if parts[3]?.any (fun part => decide (part ∉ collectionVehicleRoutes)) then
      parts.set 3 "\x7bvin\x7d"
    else parts
  if 6 ≤ parts.length ∧ parts[4]? = some "invitations" then parts.set 5 "\x7bid\x7d" else parts

def routeOf (parts : List String) : String :=
  if parts.take 3 = ["api","1","vehicles"] then joinRoute (vehicleRoute parts)
  else if parts.take 5 = ["api","1","dx","charging","invoice"] ∧ 6 ≤ parts.length then
    joinRoute (parts.set 5 "\x7bid\x7d")
  else if joinRoute parts ∈ knownRoutes then joinRoute parts
  else unrecognizedRoute

/-- `_route_template(path)`. -/
def routeTemplate (path : List Char) : String := routeOf (pathParts path)

/-- The parts of the route that a target is logged under. -/
def Target.template : Target → List String
  | .fixed path => (path.toList.splitOn '/').tail.map String.ofList
  | .vehicle none => ["api","1","vehicles","\x7bvin\x7d"]
  | .vehicle (some suffix) => ["api","1","vehicles","\x7bvin\x7d",suffix]
  | .invitation => ["api","1","vehicles","\x7bvin\x7d","invitations","\x7bid\x7d","revoke"]
  | .invoice => ["api","1","dx","charging","invoice","\x7bid\x7d"]
  | .command name => ["api","1","vehicles","\x7bvin\x7d","command",name]

def Target.route (t : Target) : String := joinRoute t.template

end Templates

section Endpoints

/-- `IMPLEMENTED_ENDPOINTS` but for the commands: the method behind a verb and a route. -/
def staticEndpoints : List ((String × String) × String) :=
  [(("GET","/api/1/vehicles/\x7bvin\x7d/drivers"),"drivers"),
   (("DELETE","/api/1/vehicles/\x7bvin\x7d/drivers"),"drivers_remove"),
   (("POST","/api/1/vehicles/fleet_status"),"fleet_status"),
   (("POST","/api/1/vehicles/fleet_telemetry_config"),"fleet_telemetry_config_create"),
   (("DELETE","/api/1/vehicles/\x7bvin\x7d/fleet_telemetry_config"),"fleet_telemetry_config_delete"),
   (("GET","/api/1/vehicles/\x7bvin\x7d/fleet_telemetry_config"),"fleet_telemetry_config_get"),
   (("POST","/api/1/vehicles/fleet_telemetry_config_jws"),"fleet_telemetry_config_jws"),
   (("GET","/api/1/vehicles/\x7bvin\x7d/fleet_telemetry_errors"),"fleet_telemetry_errors"),
   (("GET","/api/1/vehicles"),"list_vehicles"),
   (("GET","/api/1/vehicles/\x7bvin\x7d/mobile_enabled"),"mobile_enabled"),
   (("GET","/api/1/vehicles/\x7bvin\x7d/nearby_charging_sites"),"nearby_charging_sites"),
   (("GET","/api/1/vehicles/\x7bvin\x7d/recent_alerts"),"recent_alerts"),
   (("GET","/api/1/vehicles/\x7bvin\x7d/release_notes"),"release_notes"),
   (("GET","/api/1/vehicles/\x7bvin\x7d/service_data"),"service_data"),
   (("GET","/api/1/vehicles/\x7bvin\x7d/invitations"),"share_invites"),
   (("POST","/api/1/vehicles/\x7bvin\x7d/invitations"),"share_invites_create"),
   (("POST","/api/1/invitations/redeem"),"share_invites_redeem"),
   (("POST","/api/1/vehicles/\x7bvin\x7d/invitations/\x7bid\x7d/revoke"),"share_invites_revoke"),
   (("POST","/api/1/vehicles/\x7bvin\x7d/signed_command"),"signed_command"),
   (("GET","/api/1/vehicles/\x7bvin\x7d"),"vehicle"),
   (("GET","/api/1/vehicles/\x7bvin\x7d/vehicle_data"),"vehicle_data"),
   (("POST","/api/1/vehicles/\x7bvin\x7d/wake_up"),"wake_up"),
   (("GET","/api/1/users/feature_config"),"feature_config"),
   (("GET","/api/1/users/me"),"me"),
   (("GET","/api/1/users/orders"),"orders"),
   (("GET","/api/1/users/region"),"region"),
   (("GET","/api/1/partner_accounts/fleet_telemetry_error_vins"),"fleet_telemetry_error_vins"),
   (("GET","/api/1/partner_accounts/fleet_telemetry_errors"),"fleet_telemetry_errors"),
   (("GET","/api/1/partner_accounts/public_key?domain=\x7bdomain\x7d"),"public_key"),
   (("POST","/api/1/partner_accounts"),"register"),
   (("GET","/api/1/dx/charging/history"),"charging_history"),
   (("GET","/api/1/dx/charging/invoice/\x7bid\x7d"),"charging_invoice")]

def implementedEndpoints : List ((String × String) × String) :=
  staticEndpoints ++
    Commands.commandNames.map (fun name => (("POST",(Target.command name).route),name))

def endpointMethod (verb route : String) : Option String :=
  (implementedEndpoints.find? (fun entry => entry.1 = (verb,route))).map Prod.snd

def lastSegment (route : String) : String :=
  String.ofList ((route.toList.splitOn '/').getLast?.getD [])

/-- `_operation(route)`. -/
def fallbackOperation (route : String) : String :=
  if route = "/oauth2/v3/token" then "oauth_token"
  else if route = "/oauth2/v3/discovery/thirdparty/keys" then "oauth_jwks"
  else if Commands.occursIn "/command/" route then lastSegment route
  else if route = unrecognizedRoute then "unknown"
  else ((lastSegment route).replace "\x7bvin\x7d" "vehicle").replace "\x7bid\x7d" "item"

def operation (verb route : String) : String :=
  (endpointMethod verb route).getD (fallbackOperation route)

end Endpoints

section Lookups

theorem clientCalls_method : ∀ call ∈ clientCalls,
    (staticEndpoints.find? (fun entry => entry.1 = (call.verb,call.target.route))).map Prod.snd =
      some call.name := by decide

theorem commandRoute_toList (name : String) :
    (Target.command name).route.toList =
      "/api/1/vehicles/\x7bvin\x7d/command/".toList ++ name.toList := by
  simp [Target.route,Target.template,joinRoute]

theorem commandRoute_injective {name name' : String}
    (h : (Target.command name).route = (Target.command name').route) : name = name' := by
  have hchars := congrArg String.toList h
  rw [commandRoute_toList,commandRoute_toList] at hchars
  exact String.toList_inj.mp (List.append_cancel_left hchars)

theorem staticEndpoints_command : ∀ entry ∈ staticEndpoints,
    ¬ "/api/1/vehicles/\x7bvin\x7d/command/".toList <+: entry.1.2.toList := by decide

theorem endpointMethod_command {name : String} (hname : name ∈ Commands.commandNames) :
    endpointMethod "POST" (Target.command name).route = some name := by
  have hstatic : staticEndpoints.find?
      (fun entry => entry.1 = ("POST",(Target.command name).route)) = none := by
    apply List.find?_eq_none.mpr
    intro entry hentry heq
    have hroute : entry.1.2 = (Target.command name).route :=
      congrArg Prod.snd (of_decide_eq_true heq)
    apply staticEndpoints_command entry hentry
    rw [hroute,commandRoute_toList]
    exact List.prefix_append _ _
  unfold endpointMethod implementedEndpoints
  rw [List.find?_append,hstatic,Option.none_or,List.find?_map,Option.map_map]
  cases hfound : Commands.commandNames.find? _ with
  | none => exact absurd (decide_eq_true rfl) (List.find?_eq_none.mp hfound name hname)
  | some other =>
    have hroute := List.find?_some hfound
    simp only [Function.comp_apply,decide_eq_true_eq,Prod.mk.injEq,true_and] at hroute
    rw [Option.map_some,Function.comp_apply,commandRoute_injective hroute]

/-- Every method of the client is the one that its verb and its route are listed under. -/
theorem endpointMethod_call {call : FleetCall} (h : call ∈ fleetCalls) :
    endpointMethod call.verb call.target.route = some call.name := by
  rcases List.mem_append.mp h with h | h
  · obtain ⟨entry,hentry,hname⟩ := Option.map_eq_some_iff.mp (clientCalls_method call h)
    unfold endpointMethod implementedEndpoints
    rw [List.find?_append,hentry,Option.some_or,Option.map_some,hname]
  · obtain ⟨name,hname,rfl⟩ := List.mem_map.mp h
    exact endpointMethod_command hname

end Lookups

section Parts

theorem splitOn_absolute {segments : List (List Char)} (hslash : ∀ s ∈ segments, '/' ∉ s) :
    (absolute segments).splitOn '/' = [] :: segments := by
  have hjoin : absolute segments = ['/'].intercalate ([] :: segments) := by
    clear hslash
    induction segments with
    | nil => rfl
    | cons s segments ih =>
      rw [absolute_cons,ih,List.intercalate_cons_cons,List.nil_append]
      cases segments with
      | nil => simp
      | cons s' segments => simp [List.intercalate_cons_cons]
  rw [hjoin,List.splitOn_intercalate]
  · intro s hs
    rcases List.mem_cons.mp hs with rfl | hs
    · simp
    · exact hslash s hs
  · simp

theorem pathParts_absolute {segments : List (List Char)} (hslash : ∀ s ∈ segments, '/' ∉ s)
    (hne : ∀ s ∈ segments, s ≠ []) : pathParts (absolute segments) = segments.map unquote := by
  have hall : segments.filter (fun part => decide (part ≠ [])) = segments :=
    List.filter_eq_self.mpr (fun s hs => decide_eq_true (hne s hs))
  rw [pathParts,splitOn_absolute hslash,List.filter_cons_of_neg (by simp),hall]

end Parts

section Paths
variable {t : Target} {vin id : String}

/-- The segments of a target's path: words of the client's and quoted identifiers. -/
def Target.segments (vin id : String) : Target → List String
  | .fixed path => (path.toList.splitOn '/').tail.map String.ofList
  | .vehicle none => ["api","1","vehicles",quote (strip vin)]
  | .vehicle (some suffix) => ["api","1","vehicles",quote (strip vin),suffix]
  | .invitation => ["api","1","vehicles",quote (strip vin),"invitations",quote (strip id),"revoke"]
  | .invoice => ["api","1","dx","charging","invoice",quote (strip id)]
  | .command name => ["api","1","vehicles",quote (strip vin),"command",name]

/-- The same segments, with the identifiers themselves. -/
def Target.parts (vin id : String) : Target → List String
  | .fixed path => (path.toList.splitOn '/').tail.map String.ofList
  | .vehicle none => ["api","1","vehicles",strip vin]
  | .vehicle (some suffix) => ["api","1","vehicles",strip vin,suffix]
  | .invitation => ["api","1","vehicles",strip vin,"invitations",strip id,"revoke"]
  | .invoice => ["api","1","dx","charging","invoice",strip id]
  | .command name => ["api","1","vehicles",strip vin,"command",name]

def isWordChar (c : Char) : Bool := (97 ≤ c.toNat ∧ c.toNat ≤ 122) ∨ c = '_' ∨ c = '1'

/-- A word that a path holds as it is. -/
def isWord (word : String) : Bool := word ≠ "" ∧ word.toList.all isWordChar

theorem pathWords_isWord : ∀ word ∈ ["api","1","vehicles","invitations","revoke","dx","charging",
    "invoice","command"], isWord word := by decide

theorem vehicleSuffixes_isWord : ∀ word ∈ vehicleSuffixes, isWord word := by decide

theorem commandNames_isWord : ∀ word ∈ Commands.commandNames, isWord word := by decide

theorem fixedPaths_isWord : ∀ path ∈ fixedPaths, ∀ word ∈ (Target.fixed path).segments "" "",
    isWord word := by decide

theorem fixedPaths_absolute : ∀ path ∈ fixedPaths,
    path.toList = absolute (((Target.fixed path).segments "" "").map String.toList) := by decide

section Words
variable {word : String}

theorem isWord_ne (h : isWord word) : word ≠ "" := (of_decide_eq_true h).1

theorem isWord_char (h : isWord word) : ∀ c ∈ word.toList, IsUrlChar c ∧ c ≠ '/' ∧ c ≠ '?' ∧ c ≠ '%' := by
  intro c hc
  have hchar := List.all_eq_true.mp (of_decide_eq_true h).2 c hc
  have hcases : (97 ≤ c.toNat ∧ c.toNat ≤ 122) ∨ c = '_' ∨ c = '1' := of_decide_eq_true hchar
  obtain hrange | rfl | rfl := hcases
  · have hne : ∀ d : Char, d.toNat < 97 → c ≠ d := by
      intro d hd heq
      rw [heq] at hrange
      omega
    exact ⟨⟨by omega,by omega,hne '#' (by decide)⟩,hne '/' (by decide),hne '?' (by decide),
      hne '%' (by decide)⟩
  · decide
  · decide

theorem unquote_word (h : isWord word) : unquote word.toList = word := by
  rw [unquote_plain (fun hc => (isWord_char h '%' hc).2.2.2 rfl),String.ofList_toList]

end Words

/-- A segment of a path is a word or a quoted identifier. -/
theorem segments_cases (hfixed : t.Fixed) :
    ∀ s ∈ t.segments vin id, isWord s ∨ s = quote (strip vin) ∨ s = quote (strip id) := by
  have hwords := pathWords_isWord
  cases t with
  | fixed path => exact fun s hs => .inl (fixedPaths_isWord path hfixed s hs)
  | vehicle suffix =>
    cases suffix with
    | none => simp [Target.segments,hwords]
    | some suffix => simp [Target.segments,hwords,vehicleSuffixes_isWord suffix hfixed]
  | invitation => simp [Target.segments,hwords]
  | invoice => simp [Target.segments,hwords]
  | command name => simp [Target.segments,hwords,commandNames_isWord name hfixed]

theorem quote_ne_empty {s : String} (h : s ≠ "") : quote s ≠ "" := by
  have hempty : quote "" = "" := by decide
  intro heq
  exact h (quote_injective (heq.trans hempty.symm))

theorem quote_chars (s : String) : ∀ c ∈ (quote s).toList, IsUrlChar c ∧ c ≠ '/' ∧ c ≠ '?' := by
  intro c hc
  rw [quote,String.toList_ofList] at hc
  obtain ⟨b,_,hb⟩ := List.mem_flatMap.mp hc
  obtain ⟨hurl,hslash,hmark,_⟩ := quoteByte_chars b c hb
  exact ⟨hurl,hslash,hmark⟩

section Target
variable (hfixed : t.Fixed) (hvin : strip vin ≠ "") (hid : strip id ≠ "")
include hfixed

theorem segments_chars : ∀ s ∈ t.segments vin id, ∀ c ∈ s.toList, IsUrlChar c ∧ c ≠ '/' ∧ c ≠ '?' := by
  intro s hs c hc
  obtain hword | rfl | rfl := segments_cases hfixed s hs
  · obtain ⟨hurl,hslash,hmark,_⟩ := isWord_char hword c hc
    exact ⟨hurl,hslash,hmark⟩
  · exact quote_chars _ c hc
  · exact quote_chars _ c hc

theorem parts_eq : (t.segments vin id).map (fun s => unquote s.toList) = t.parts vin id := by
  have hwords : ∀ word ∈ ["api","1","vehicles","invitations","revoke","dx","charging","invoice",
      "command"], unquote word.toList = word := fun word hw => unquote_word (pathWords_isWord word hw)
  simp only [List.forall_mem_cons,List.not_mem_nil,false_imp_iff,implies_true,and_true] at hwords
  obtain ⟨hapi,hone,hvehicles,hinvitations,hrevoke,hdx,hcharging,hinvoice,hcommand⟩ := hwords
  cases t with
  | fixed path =>
    have hsame : ∀ s ∈ (Target.fixed path).segments vin id, unquote s.toList = s := fun s hs =>
      unquote_word (fixedPaths_isWord path hfixed s hs)
    rw [List.map_congr_left hsame,List.map_id']
    rfl
  | vehicle suffix =>
    cases suffix with
    | none =>
      simp only [Target.segments,Target.parts,List.map_cons,List.map_nil,unquote_quote,hapi,hone,hvehicles]
    | some suffix =>
      have hsuffix := unquote_word (vehicleSuffixes_isWord suffix hfixed)
      simp only [Target.segments,Target.parts,List.map_cons,List.map_nil,unquote_quote,hapi,hone,
        hvehicles,hsuffix]
  | invitation =>
    simp only [Target.segments,Target.parts,List.map_cons,List.map_nil,unquote_quote,hapi,hone,
      hvehicles,hinvitations,hrevoke]
  | invoice =>
    simp only [Target.segments,Target.parts,List.map_cons,List.map_nil,unquote_quote,hapi,hone,
      hdx,hcharging,hinvoice]
  | command name =>
    have hname := unquote_word (commandNames_isWord name hfixed)
    simp only [Target.segments,Target.parts,List.map_cons,List.map_nil,unquote_quote,hapi,hone,
      hvehicles,hcommand,hname]

include hvin hid

theorem segments_ne : ∀ s ∈ t.segments vin id, s ≠ "" := by
  intro s hs
  obtain hword | rfl | rfl := segments_cases hfixed s hs
  · exact isWord_ne hword
  · exact quote_ne_empty hvin
  · exact quote_ne_empty hid

theorem target_path : ∃ path, t.path vin id = .ok path ∧
    path.toList = absolute ((t.segments vin id).map String.toList) := by
  cases t with
  | fixed path => exact ⟨path,rfl,fixedPaths_absolute path hfixed⟩
  | vehicle suffix =>
    obtain ⟨path,hpath,htext,_⟩ := path_eq (r := .vehicle vin suffix)
      (by cases suffix <;> exact hfixed) (by simpa [Resource.identifiers] using hvin)
    refine ⟨path,hpath,htext.trans ?_⟩
    cases suffix <;> rfl
  | invitation =>
    obtain ⟨path,hpath,htext,_⟩ := path_eq (r := .invitation vin id) trivial
      (by simpa [Resource.identifiers] using ⟨hvin,hid⟩)
    exact ⟨path,hpath,htext⟩
  | invoice =>
    obtain ⟨path,hpath,htext,_⟩ := path_eq (r := .invoice id) trivial
      (by simpa [Resource.identifiers] using hid)
    exact ⟨path,hpath,htext⟩
  | command name =>
    obtain ⟨path,hpath,htext,_⟩ := path_eq (r := .command vin name) hfixed
      (by simpa [Resource.identifiers] using hvin)
    exact ⟨path,hpath,htext⟩

theorem pathParts_target :
    pathParts (absolute ((t.segments vin id).map String.toList)) = t.parts vin id := by
  rw [pathParts_absolute,List.map_map,← parts_eq hfixed]
  · rfl
  · intro text htext hslash
    obtain ⟨s,hs,rfl⟩ := List.mem_map.mp htext
    exact (segments_chars hfixed s hs '/' hslash).2.1 rfl
  · intro text htext hnil
    obtain ⟨s,hs,rfl⟩ := List.mem_map.mp htext
    exact segments_ne hfixed hvin hid s hs (String.toList_eq_nil_iff.mp hnil)

end Target

theorem fixedPaths_route : ∀ path ∈ fixedPaths,
    routeOf ((Target.fixed path).parts "" "") = (Target.fixed path).route := by decide

/-- The route of a target is the same for all vehicles and other identifiers. -/
theorem routeOf_parts (hfixed : t.Fixed) (hvin : strip vin ∉ collectionVehicleRoutes) :
    routeOf (t.parts vin id) = t.route := by
  cases t with
  | fixed path => exact fixedPaths_route path hfixed
  | vehicle suffix =>
    cases suffix with
    | none => simp [routeOf,vehicleRoute,Target.parts,Target.route,Target.template,hvin]
    | some suffix => simp [routeOf,vehicleRoute,Target.parts,Target.route,Target.template,hvin]
  | invitation => simp [routeOf,vehicleRoute,Target.parts,Target.route,Target.template,hvin]
  | invoice => simp [routeOf,Target.parts,Target.route,Target.template]
  | command name => simp [routeOf,vehicleRoute,Target.parts,Target.route,Target.template,hvin]

end Paths

end Woodhouse.Transport
