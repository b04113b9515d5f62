import Mathlib.Data.List.Infix
import Woodhouse.Gateway.Onboarding

namespace Woodhouse.Commands

/-- The exceptions of a tool call: those of the gateway, and `MCPToolError`. -/
inductive Exc where
  | gateway (e : Gateway.Exc)
  | mcpTool (category message : String)
  deriving DecidableEq

/-- `error.category` of a Tesla or tool error, or `internal_error`. -/
def Exc.category : Exc → String
  | .mcpTool category _ => category
  | .gateway (.teslaApi category) => category
  | .gateway (.teslaReauthorizationRequired message) =>
    if message = "Tesla access token was rejected" then "reauthorization_required"
    else "unspecified"
  | .gateway _ => "internal_error"

def Exc.isReauthorization : Exc → Bool
  | .gateway e => e.isReauthorization
  | .mcpTool .. => false

/-- What the lifted onboarding code sees of an exception. -/
def Exc.lower : Exc → Gateway.Exc
  | .gateway e => e
  | .mcpTool .. => .other "MCPToolError"

section Values

/-- A decoded JSON value, as far as the service tells values apart. -/
inductive Value where
  | null
  | bool (b : Bool)
  | int (n : Int)
  | float (text : String)
  | str (s : String)
  | arr (values : List Value)
  | obj (fields : List (String × Value))

/-- A JSON object; its keys are distinct. -/
abbrev Fields := List (String × Value)

/-- `d.get(key)`, with `none` for an absent key. -/
def Fields.get (d : Fields) (key : String) : Option Value :=
  (d.find? (fun entry => entry.1 = key)).map Prod.snd

/-- `d.pop(key, None)`'s rest. -/
def Fields.without (d : Fields) (key : String) : Fields := d.filter (fun entry => entry.1 ≠ key)

end Values

section Specs

def commandNames : List String :=
  ["actuate_trunk","add_charge_schedule","add_precondition_schedule","adjust_volume",
   "auto_conditioning_start","auto_conditioning_stop","cancel_software_update","charge_max_range",
   "charge_port_door_close","charge_port_door_open","charge_standard","charge_start","charge_stop",
   "clear_pin_to_drive_admin","door_lock","door_unlock","erase_user_data","flash_lights",
   "guest_mode","honk_horn","media_next_fav","media_next_track","media_prev_fav",
   "media_prev_track","media_toggle_playback","media_volume_down","media_volume_up",
   "navigation_gps_request","navigation_request","navigation_sc_request",
   "navigation_waypoints_request","parental_controls_activate","parental_controls_clear_pin_admin",
   "parental_controls_deactivate","parental_controls_enable_setting",
   "parental_controls_set_speed_limit","remote_auto_seat_climate_request",
   "remote_auto_steering_wheel_heat_climate_request","remote_boombox","remote_seat_cooler_request",
   "remote_seat_heater_request","remote_start_drive","remote_steering_wheel_heat_level_request",
   "remote_steering_wheel_heater_request","remove_charge_schedule","remove_precondition_schedule",
   "reset_pin_to_drive_pin","reset_valet_pin","schedule_software_update","set_bioweapon_mode",
   "set_cabin_overheat_protection","set_charge_limit","set_charging_amps",
   "set_climate_keeper_mode","set_cop_temp","set_pin_to_drive","set_preconditioning_max",
   "set_scheduled_charging","set_scheduled_departure","set_sentry_mode","set_temps",
   "set_valet_mode","set_vehicle_name","speed_limit_activate","speed_limit_clear_pin",
   "speed_limit_clear_pin_admin","speed_limit_deactivate","speed_limit_set_limit",
   "sun_roof_control","trigger_homelink","upcoming_calendar_entries","window_control"]

def excludedCommands : List String :=
  ["clear_pin_to_drive_admin","erase_user_data","parental_controls_clear_pin_admin",
   "reset_pin_to_drive_pin","reset_valet_pin","speed_limit_clear_pin_admin",
   "set_scheduled_charging","set_scheduled_departure"]

def securitySensitive : List String :=
  ["actuate_trunk","cancel_software_update","door_unlock","guest_mode","parental_controls_activate",
   "parental_controls_deactivate","parental_controls_enable_setting",
   "parental_controls_set_speed_limit","remote_start_drive","schedule_software_update",
   "set_pin_to_drive","set_valet_mode","speed_limit_activate","speed_limit_clear_pin",
   "speed_limit_deactivate","speed_limit_set_limit","sun_roof_control","trigger_homelink",
   "window_control"]

/-- Python's `part in text`. -/
def occursIn (part text : String) : Bool :=
  decide (part.toList <:+: text.toList)

def chargingCommands : List String :=
  commandNames.filter (fun name => occursIn "charge" name || occursIn "charging" name)

inductive Risk where
  | normal
  | securitySensitive
  deriving DecidableEq

/-- A tool that writes to one vehicle. -/
structure ToolSpec where
  name : String
  clientMethod : String
  requiredScope : String
  risk : Risk
  deriving DecidableEq

def ToolSpec.isCommand (spec : ToolSpec) : Bool := decide (spec.clientMethod ∈ commandNames)

def wakeUpSpec : ToolSpec :=
  { name := "tesla_wake_up", clientMethod := "wake_up", requiredScope := "vehicle_device_data",
    risk := .normal }

def commandSpec (command : String) : ToolSpec :=
  { name := "tesla_" ++ command
    clientMethod := command
    requiredScope := if command ∈ chargingCommands then "vehicle_charging_cmds" else "vehicle_cmds"
    risk := if command ∈ securitySensitive then .securitySensitive else .normal }

/-- The write tools of `MCP_TOOL_SPECS`. -/
def writeToolSpecs : List ToolSpec :=
  wakeUpSpec :: (commandNames.filter (fun command => command ∉ excludedCommands)).map commandSpec

def writeToolNamed (name : String) : Option ToolSpec :=
  writeToolSpecs.find? (fun spec => spec.name = name)

theorem commandSpec_ne_wakeUp : ∀ command ∈ commandNames, (commandSpec command).name ≠ wakeUpSpec.name := by
  decide

/-- A command that is not excluded is called by its own tool. -/
theorem writeToolNamed_command {command : String} (h : command ∈ commandNames)
    (hkept : command ∉ excludedCommands) :
    writeToolNamed (commandSpec command).name = some (commandSpec command) := by
  have hmem : commandSpec command ∈ writeToolSpecs := by
    apply List.mem_cons_of_mem
    apply List.mem_map_of_mem
    exact List.mem_filter.mpr ⟨h,decide_eq_true hkept⟩
  cases hfind : writeToolNamed (commandSpec command).name with
  | none =>
    have hnone := List.find?_eq_none.mp hfind _ hmem
    simp at hnone
  | some found =>
    have hname : found.name = (commandSpec command).name := by simpa using List.find?_some hfind
    rcases List.mem_cons.mp (List.mem_of_find?_eq_some hfind) with rfl | hfound
    · exact absurd hname.symm (commandSpec_ne_wakeUp command h)
    · obtain ⟨other,_,rfl⟩ := List.mem_map.mp hfound
      obtain rfl := (String.append_right_inj "tesla_").mp hname
      rfl

end Specs

end Woodhouse.Commands
