import Woodhouse.Commands.Tools
import Woodhouse.Identity.Models
import Woodhouse.Paths.DotSegments
import Woodhouse.Paths.Quoting

namespace Woodhouse.Paths
open Identity

def vehiclePath (vin : String) (suffix : Option String := none) : Except Exc String := do
  let part ← pathPart vin
  let path := "/api/1/vehicles/" ++ part
  match suffix with
  | none => .ok path
  | some suffix => if suffix = "" then .ok path else .ok (path ++ "/" ++ suffix)

def shareInviteRevokePath (vin invitationId : String) : Except Exc String := do
  let path ← vehiclePath vin (some "invitations")
  let part ← pathPart invitationId
  .ok (path ++ "/" ++ part ++ "/revoke")

def chargingInvoicePath (invoiceId : String) : Except Exc String := do
  let part ← pathPart invoiceId
  .ok ("/api/1/dx/charging/invoice/" ++ part)

def commandPath (vin name : String) : Except Exc String := do
  let part ← pathPart vin
  .ok ("/api/1/vehicles/" ++ part ++ "/command/" ++ name)

/-- The suffixes that the Fleet client passes to `_vehicle_path`. -/
def vehicleSuffixes : List String :=
  ["drivers","fleet_telemetry_config","fleet_telemetry_errors","mobile_enabled",
   "nearby_charging_sites","recent_alerts","release_notes","service_data","invitations",
   "signed_command","vehicle_data","wake_up"]

/-- The requests whose path names a resource of the caller's. -/
inductive Resource where
  | vehicle (vin : String) (suffix : Option String)
  | invitation (vin invitationId : String)
  | invoice (invoiceId : String)
  | command (vin name : String)

namespace Resource

def path : Resource → Except Exc String
  | .vehicle vin suffix => vehiclePath vin suffix
  | .invitation vin invitationId => shareInviteRevokePath vin invitationId
  | .invoice invoiceId => chargingInvoicePath invoiceId
  | .command vin name => commandPath vin name

/-- The suffix is one of the code's. -/
def Fixed : Resource → Prop
  | .vehicle _ (some suffix) => suffix ∈ vehicleSuffixes
  | .command _ name => name ∈ Commands.commandNames
  | _ => True

def identifiers : Resource → List String
  | .vehicle vin _ => [vin]
  | .invitation vin invitationId => [vin,invitationId]
  | .invoice invoiceId => [invoiceId]
  | .command vin _ => [vin]

end Resource

/-- A piece of a path that addresses a resource. -/
inductive Piece where
  | text (text : String)
  | identifier (value : String)

/-- What the path of a resource consists of. -/
def Resource.pieces : Resource → List Piece
  | .vehicle vin none => [.text "/api/1/vehicles/",.identifier vin]
  | .vehicle vin (some suffix) => [.text "/api/1/vehicles/",.identifier vin,.text ("/" ++ suffix)]
  | .invitation vin invitationId =>
    [.text "/api/1/vehicles/",.identifier vin,.text "/invitations/",.identifier invitationId,
     .text "/revoke"]
  | .invoice invoiceId => [.text "/api/1/dx/charging/invoice/",.identifier invoiceId]
  | .command vin name =>
    [.text "/api/1/vehicles/",.identifier vin,.text ("/command/" ++ name)]

/-- A path is made of its fixed texts and, for each identifier, of one segment that
percent-decodes to the trimmed identifier. -/
inductive Consists : List Piece → List Char → Prop where
  | nil : Consists [] []
  | text {pieces : List Piece} {path : List Char} (text : String) (rest : Consists pieces path) :
      Consists (.text text :: pieces) (text.toList ++ path)
  | identifier {pieces : List Piece} {path : List Char} (value : String) (segment : List Char)
      (whole : IsSegment segment) (decoded : percentDecode segment = some (strip value))
      (rest : Consists pieces path) : Consists (.identifier value :: pieces) (segment ++ path)

/-- The path addresses the resource and nothing else. -/
def AddressesOne (r : Resource) : Prop :=
  ∃ path, r.path = .ok path ∧ Consists r.pieces path.toList ∧
    removeDotSegments path.toList = path.toList

theorem pathPart_eq {value : String} (h : strip value ≠ "") :
    pathPart value = .ok (quote (strip value)) := if_neg h

/-- A quoted identifier is a segment of its own. -/
theorem Consists.quoted {pieces : List Piece} {path : List Char} (value : String)
    (rest : Consists pieces path) :
    Consists (.identifier value :: pieces) ((quote (strip value)).toList ++ path) :=
  .identifier value _ (isSegment_quote _) (percentDecode_quote _) rest

theorem slash_notMem_quote (s : String) : '/' ∉ (quote s).toList :=
  fun h => (isSegment_quote s '/' h).1 rfl

/-- Quoting leaves the dot segments as they are, and makes no new ones. -/
theorem isDotSegment_quote (s : String) : IsDotSegment (quote s).toList ↔ s = "." ∨ s = ".." := by
  have hone : quote "." = "." := by decide
  have htwo : quote ".." = ".." := by decide
  unfold IsDotSegment
  constructor
  · intro h
    refine h.imp ?_ ?_
    · intro h
      exact quote_injective ((String.toList_inj.mp h).trans hone.symm)
    · intro h
      exact quote_injective ((String.toList_inj.mp h).trans htwo.symm)
  · rintro (rfl | rfl)
    · exact .inl (congrArg String.toList hone)
    · exact .inr (congrArg String.toList htwo)

/-- The segments of a resource's path, once its identifiers are quoted. -/
def Resource.segments : Resource → List String
  | .vehicle vin none => ["api","1","vehicles",quote (strip vin)]
  | .vehicle vin (some suffix) => ["api","1","vehicles",quote (strip vin),suffix]
  | .invitation vin invitationId =>
    ["api","1","vehicles",quote (strip vin),"invitations",quote (strip invitationId),"revoke"]
  | .invoice invoiceId => ["api","1","dx","charging","invoice",quote (strip invoiceId)]
  | .command vin name => ["api","1","vehicles",quote (strip vin),"command",name]

theorem vehicleSuffixes_segments : ∀ suffix ∈ vehicleSuffixes,
    suffix ≠ "" ∧ '/' ∉ suffix.toList ∧ ¬ IsDotSegment suffix.toList := by decide

theorem commandNames_segments : ∀ name ∈ Commands.commandNames,
    '/' ∉ name.toList ∧ ¬ IsDotSegment name.toList := by decide

section Paths
variable {r : Resource}

theorem path_eq (hfixed : r.Fixed) (hblank : ∀ i ∈ r.identifiers, strip i ≠ "") :
    ∃ path, r.path = .ok path ∧ path.toList = absolute (r.segments.map String.toList) ∧
      Consists r.pieces path.toList := by
  cases r with
  | vehicle vin suffix =>
    have hvin := hblank vin (List.mem_singleton_self vin)
    cases suffix with
    | none =>
      refine ⟨"/api/1/vehicles/" ++ quote (strip vin),?_,?_,?_⟩
      · simp [Resource.path,vehiclePath,pathPart_eq hvin,bind,Except.bind]
      · simp [Resource.segments,absolute]
      · have h := Consists.text "/api/1/vehicles/" (.quoted vin .nil)
        simpa [Resource.pieces] using h
    | some suffix =>
      have hsuffix := (vehicleSuffixes_segments suffix hfixed).1
      refine ⟨"/api/1/vehicles/" ++ quote (strip vin) ++ "/" ++ suffix,?_,?_,?_⟩
      · simp [Resource.path,vehiclePath,pathPart_eq hvin,hsuffix,bind,Except.bind]
      · simp [Resource.segments,absolute]
      · have h := Consists.text "/api/1/vehicles/" (.quoted vin (.text ("/" ++ suffix) .nil))
        simpa [Resource.pieces] using h
  | invitation vin invitationId =>
    have hvin := hblank vin List.mem_cons_self
    have hid := hblank invitationId (by simp [Resource.identifiers])
    refine ⟨"/api/1/vehicles/" ++ quote (strip vin) ++ "/" ++ "invitations" ++ "/" ++
      quote (strip invitationId) ++ "/revoke",?_,?_,?_⟩
    · simp [Resource.path,shareInviteRevokePath,vehiclePath,pathPart_eq hvin,pathPart_eq hid,bind,
        Except.bind]
    · simp [Resource.segments,absolute]
    · have h := Consists.text "/api/1/vehicles/" (.quoted vin (.text "/invitations/"
        (.quoted invitationId (.text "/revoke" .nil))))
      simpa [Resource.pieces] using h
  | invoice invoiceId =>
    have hid := hblank invoiceId (List.mem_singleton_self invoiceId)
    refine ⟨"/api/1/dx/charging/invoice/" ++ quote (strip invoiceId),?_,?_,?_⟩
    · simp [Resource.path,chargingInvoicePath,pathPart_eq hid,bind,Except.bind]
    · simp [Resource.segments,absolute]
    · have h := Consists.text "/api/1/dx/charging/invoice/" (.quoted invoiceId .nil)
      simpa [Resource.pieces] using h
  | command vin name =>
    have hvin := hblank vin (List.mem_singleton_self vin)
    refine ⟨"/api/1/vehicles/" ++ quote (strip vin) ++ "/command/" ++ name,?_,?_,?_⟩
    · simp [Resource.path,commandPath,pathPart_eq hvin,bind,Except.bind]
    · simp [Resource.segments,absolute]
    · have h := Consists.text "/api/1/vehicles/" (.quoted vin (.text ("/command/" ++ name) .nil))
      simpa [Resource.pieces] using h

theorem quote_mem_segments : ∀ i ∈ r.identifiers, quote (strip i) ∈ r.segments := by
  intro i hi
  rcases r with ⟨vin,_ | suffix⟩ | ⟨vin,invitationId⟩ | ⟨invoiceId⟩ | ⟨vin,name⟩ <;>
    simp only [Resource.identifiers,Resource.segments,List.mem_cons,List.not_mem_nil,or_false] at hi ⊢
  case invitation =>
    rcases hi with rfl | rfl
    · simp
    · simp
  all_goals
    subst hi
    simp

/-- A word that the code writes between the identifiers. -/
def IsWord (s : String) : Prop := '/' ∉ s.toList ∧ ¬ IsDotSegment s.toList

instance (s : String) : Decidable (IsWord s) := inferInstanceAs (Decidable (_ ∧ _))

theorem segments_cases (hfixed : r.Fixed) :
    ∀ s ∈ r.segments, (∃ i ∈ r.identifiers, s = quote (strip i)) ∨ IsWord s := by
  have hwords : ∀ s ∈ ["api","1","vehicles","invitations","revoke","dx","charging","invoice",
      "command"], IsWord s := by decide
  cases r with
  | vehicle vin suffix =>
    cases suffix with
    | none => simp [Resource.segments,Resource.identifiers,hwords]
    | some suffix =>
      have hsuffix : IsWord suffix := (vehicleSuffixes_segments suffix hfixed).2
      simp [Resource.segments,Resource.identifiers,hwords,hsuffix]
  | invitation vin invitationId => simp [Resource.segments,Resource.identifiers,hwords]
  | invoice invoiceId => simp [Resource.segments,Resource.identifiers,hwords]
  | command vin name =>
    have hname : IsWord name := commandNames_segments name hfixed
    simp [Resource.segments,Resource.identifiers,hwords,hname]

theorem slash_notMem_segments (hfixed : r.Fixed) : ∀ s ∈ r.segments.map String.toList, '/' ∉ s := by
  intro s hs
  obtain ⟨t,ht,rfl⟩ := List.mem_map.mp hs
  obtain ⟨i,_,rfl⟩ | hword := segments_cases hfixed t ht
  · exact slash_notMem_quote _
  · exact hword.1

theorem segments_dot_iff (hfixed : r.Fixed) :
    (∀ s ∈ r.segments.map String.toList, ¬ IsDotSegment s) ↔
      ∀ i ∈ r.identifiers, strip i ≠ "." ∧ strip i ≠ ".." := by
  constructor
  · intro h i hi
    have hquoted := h _ (List.mem_map_of_mem (quote_mem_segments i hi))
    rw [isDotSegment_quote] at hquoted
    exact not_or.mp hquoted
  · intro h s hs
    obtain ⟨t,ht,rfl⟩ := List.mem_map.mp hs
    obtain ⟨i,hi,rfl⟩ | hword := segments_cases hfixed t ht
    · rw [isDotSegment_quote]
      exact not_or.mpr (h i hi)
    · exact hword.2

end Paths

/-- A path addresses its resource exactly where no trimmed identifier is a dot segment. -/
theorem addressesOne_iff (r : Resource) (hfixed : r.Fixed)
    (hblank : ∀ i ∈ r.identifiers, strip i ≠ "") :
    AddressesOne r ↔ ∀ i ∈ r.identifiers, strip i ≠ "." ∧ strip i ≠ ".." := by
  obtain ⟨path,hpath,htext,hconsists⟩ := path_eq hfixed hblank
  have hstable := removeDotSegments_eq_iff (slash_notMem_segments hfixed)
  rw [segments_dot_iff hfixed,← htext] at hstable
  constructor
  · rintro ⟨other,hother,_,hunchanged⟩
    obtain rfl := Except.ok.inj (hpath.symm.trans hother)
    exact hstable.mp hunchanged
  · intro h
    exact ⟨path,hpath,hconsists,hstable.mpr h⟩

theorem addressesOne_iff_demo : AddressesOne (.command "5YJ3E1EA7KF000316" "honk_horn") := by
  have hfixed : (Resource.command "5YJ3E1EA7KF000316" "honk_horn").Fixed :=
    show "honk_horn" ∈ Commands.commandNames by decide
  exact (addressesOne_iff _ hfixed (by decide)).mpr (by decide)

/-- An invoice identifier of two dots leaves the invoices. -/
theorem dots_invoice_escapes : ¬ AddressesOne (.invoice "..") := by
  rintro ⟨path,hpath,_,hstable⟩
  have htext : Resource.path (.invoice "..") = .ok "/api/1/dx/charging/invoice/.." := by decide
  obtain rfl := Except.ok.inj (htext.symm.trans hpath)
  have hsegments : "/api/1/dx/charging/invoice/..".toList =
      absolute (["api","1","dx","charging","invoice",".."].map String.toList) := by decide
  rw [hsegments,removeDotSegments_eq_iff (by decide)] at hstable
  exact absurd hstable (by decide)

end Woodhouse.Paths
