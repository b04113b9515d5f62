import Woodhouse.Commands.Fleet

namespace Woodhouse.Commands

structure Pagination where
  current : Option Int
  perPage : Option Int
  count : Option Int
  pages : Option Int
  nextPage : Option Int
  previousPage : Option Int

def optionalInt (document : Fields) (key : String) : Option Int :=
  match document.get key with
  | some (.int n) => some n
  | _ => none

/-- `d.get(key)`, where a JSON null is as good as an absent key. -/
def Fields.known (d : Fields) (key : String) : Option Value :=
  match d.get key with
  | some .null => none
  | value => value

def pagination (document : Fields) : Except Exc (Option Pagination) :=
  let value :=
    match document.known "pagination" with
    | some value => some value
    | none =>
      match document.get "response" with
      | some (.obj response) => Fields.known response "pagination"
      | _ => none
  match value with
  | none => .ok none
  | some (.obj value) =>
    .ok (some
      { current := optionalInt value "current"
        perPage := optionalInt value "per_page"
        count := optionalInt value "count"
        pages := optionalInt value "pages"
        nextPage := optionalInt value "next"
        previousPage := optionalInt value "previous" })
  | some _ => .error (teslaApiError "invalid_payload")

def responseSequence (document : Fields) : Except Exc (List Fields) :=
  match document.get "response" with
  | some (.arr response) =>
    response.mapM (fun item =>
      match item with
      | .obj fields => .ok fields
      | _ => .error (teslaApiError "invalid_payload"))
  | _ => .error (teslaApiError "invalid_payload")

/-- What a page request raises, or what it is answered. -/
abbrev PageAnswer := Except Exc HttpResponse

mutual

/-- The levels of objects and arrays in a value. -/
def Value.levels : Value → Nat
  | .arr values => itemLevels values + 1
  | .obj fields => fieldLevels fields + 1
  | _ => 0

def itemLevels : List Value → Nat
  | [] => 0
  | value :: rest => max value.levels (itemLevels rest)

def fieldLevels : List (String × Value) → Nat
  | [] => 0
  | (_,value) :: rest => max value.levels (fieldLevels rest)

end

/-- `json_object`. The copy goes down level by level, for as many as the interpreter allows. -/
def jsonObject (limit : Nat) (record : Fields) : Except Exc Fields :=
  if limit < fieldLevels record then .error (.gateway (.other "RecursionError"))
  else .ok record

section Pages
variable (limit : Nat)

/-- `_vehicle` of a record of a page, which copies the record at its end. -/
def listedVehicle (record : Fields) : Except Exc Gateway.TeslaVehicle := do
  let vehicle ← teslaVehicle record
  let _ ← jsonObject limit record
  return vehicle

/-- The vehicles of a page, and the page that comes next. -/
def readPage (answer : PageAnswer) : Except Exc (List Gateway.TeslaVehicle × Option Int) := do
  let response ← answer
  let document ← successfulJson response
  let records ← responseSequence document
  let vehicles ← records.mapM (listedVehicle limit)
  let found ← pagination document
  return (vehicles,found.bind Pagination.nextPage)

/-- The loop of `list_vehicles` before a page request, and when it is left. -/
inductive Listing where
  | asking (page : Int) (vehicles : List Gateway.TeslaVehicle)
  | ended (result : Except Exc (List Gateway.TeslaVehicle))

/-- The request that the loop makes next. -/
def Listing.path : Listing → Option String
  | .asking page _ => some ("/api/1/vehicles?page=" ++ toString page ++ "&per_page=100")
  | .ended _ => none

def lastPage : Int := 100

def Listing.next (answer : PageAnswer) : Listing → Listing
  | .asking _ vehicles =>
    match readPage limit answer with
    | .error e => .ended (.error e)
    | .ok (found,none) => .ended (.ok (vehicles ++ found))
    | .ok (found,some page) =>
      if lastPage < page then .ended (.error (teslaApiError "pagination_limit"))
      else .asking page (vehicles ++ found)
  | .ended result => .ended result

/-- `list_vehicles` after so many page requests. -/
def listVehicles (answers : Nat → PageAnswer) : Nat → Listing
  | 0 => .asking 1 []
  | n + 1 => (listVehicles answers n).next limit (answers n)

/-- The answer ends the listing: it cannot be read, or names no next page up to the last. -/
def FinalPage (answer : PageAnswer) : Prop :=
  ∀ found page, readPage limit answer = .ok (found,some page) → lastPage < page

def pageVehicles (answer : PageAnswer) : List Gateway.TeslaVehicle :=
  match readPage limit answer with
  | .ok (found,_) => found
  | .error _ => []

def pagesVehicles (answers : Nat → PageAnswer) (n : Nat) : List Gateway.TeslaVehicle :=
  (List.range n).flatMap (fun k => pageVehicles limit (answers k))

/-- The listing ends after exactly `n` page requests, with an error or with the vehicles
of the pages it fetched. -/
structure EndsAfter (answers : Nat → PageAnswer) (n : Nat)
    (result : Except Exc (List Gateway.TeslaVehicle)) : Prop where
  asked : ∀ m < n, ∃ page vehicles, listVehicles limit answers m = .asking page vehicles
  ended : listVehicles limit answers n = .ended result
  complete : ∀ vehicles, result = .ok vehicles → vehicles = pagesVehicles limit answers n

end Pages

section Listing
variable {limit : Nat} {answers : Nat → PageAnswer} {n : Nat}

theorem pagesVehicles_succ (answers : Nat → PageAnswer) (n : Nat) :
    pagesVehicles limit answers (n + 1) =
      pagesVehicles limit answers n ++ pageVehicles limit (answers n) := by
  unfold pagesVehicles
  rw [List.range_succ,List.flatMap_append,List.flatMap_singleton]

/-- As long as no answer is final the loop goes on, with the vehicles so far. -/
theorem listVehicles_asking (h : ∀ k < n, ¬ FinalPage limit (answers k)) :
    ∃ page ≤ lastPage, listVehicles limit answers n = .asking page (pagesVehicles limit answers n) := by
  induction n with
  | zero => exact ⟨1,by decide,rfl⟩
  | succ n ih =>
    obtain ⟨page,_,hasking⟩ := ih (fun k hk => h k (by omega))
    have hnot := h n (by omega)
    unfold FinalPage at hnot
    push Not at hnot
    obtain ⟨found,next,hread,hnext⟩ := hnot
    refine ⟨next,hnext,?_⟩
    rw [listVehicles,hasking,Listing.next,hread,pagesVehicles_succ,pageVehicles,hread]
    simp only
    rw [if_neg (not_lt.mpr hnext)]

/-- A final answer ends the loop. -/
theorem next_final {answer : PageAnswer} (page : Int) (vehicles : List Gateway.TeslaVehicle)
    (h : FinalPage limit answer) : ∃ result, (Listing.asking page vehicles).next limit answer = .ended result ∧
      ∀ all, result = .ok all → all = vehicles ++ pageVehicles limit answer := by
  unfold Listing.next pageVehicles
  cases hread : readPage limit answer with
  | error e =>
    refine ⟨_,rfl,?_⟩
    intro all hall
    cases hall
  | ok read =>
    obtain ⟨found,next⟩ := read
    cases next with
    | none =>
      refine ⟨_,rfl,?_⟩
      intro all hall
      exact (Except.ok.inj hall).symm
    | some next =>
      refine ⟨_,if_pos (h found next hread),?_⟩
      intro all hall
      cases hall

/-- Only a final answer does. -/
theorem final_of_next {answer : PageAnswer} {page : Int} {vehicles : List Gateway.TeslaVehicle}
    {result : Except Exc (List Gateway.TeslaVehicle)}
    (h : (Listing.asking page vehicles).next limit answer = .ended result) : FinalPage limit answer := by
  intro found next hread
  by_contra hnext
  rw [Listing.next,hread] at h
  simp only [if_neg hnext] at h
  cases h

theorem endsAfter_first (hfinal : FinalPage limit (answers n)) (h : ∀ k < n, ¬ FinalPage limit (answers k)) :
    ∃ result, EndsAfter limit answers (n + 1) result := by
  have hasking : ∀ m ≤ n, ∃ page ≤ lastPage,
      listVehicles limit answers m = .asking page (pagesVehicles limit answers m) :=
    fun m hm => listVehicles_asking (fun k hk => h k (by omega))
  obtain ⟨page,_,hn⟩ := hasking n le_rfl
  obtain ⟨result,hended,hcomplete⟩ := next_final page (pagesVehicles limit answers n) hfinal
  refine ⟨result,?_,?_,?_⟩
  · intro m hm
    obtain ⟨page,_,hm⟩ := hasking m (by omega)
    exact ⟨page,_,hm⟩
  · rw [listVehicles,hn,hended]
  · rw [pagesVehicles_succ]
    exact hcomplete

end Listing

/-- The listing ends after at most a hundred page requests exactly where one of the first
hundred answers is final. -/
theorem listVehicles_ends_iff (limit : Nat) (answers : Nat → PageAnswer) :
    (∃ n ≤ 100, ∃ result, EndsAfter limit answers n result) ↔ ∃ k < 100, FinalPage limit (answers k) := by
  constructor
  · rintro ⟨n,hn,result,hasked,hended,_⟩
    cases n with
    | zero => cases hended
    | succ n =>
      obtain ⟨page,vehicles,hasking⟩ := hasked n (by omega)
      rw [listVehicles,hasking] at hended
      exact ⟨n,by omega,final_of_next hended⟩
  · rintro ⟨k,hk,hfinal⟩
    classical
    have hexists : ∃ k, FinalPage limit (answers k) := ⟨k,hfinal⟩
    have hfirst := Nat.find_min' hexists hfinal
    obtain ⟨result,hends⟩ := endsAfter_first (Nat.find_spec hexists) (fun j hj => Nat.find_min hexists hj)
    exact ⟨_,by omega,result,hends⟩

/-- Where the next page is always a later one, the bound on the page number is a bound on
the requests. -/
theorem listVehicles_ends_of_later (limit : Nat) (answers : Nat → PageAnswer)
    (h : ∀ n page vehicles found next, listVehicles limit answers n = .asking page vehicles →
      readPage limit (answers n) = .ok (found,some next) → page < next) :
    ∃ n ≤ 100, ∃ result, EndsAfter limit answers n result := by
  rw [listVehicles_ends_iff]
  by_contra hnone
  push Not at hnone
  have hpage : ∀ n page vehicles, listVehicles limit answers n = .asking page vehicles → (n : Int) < page := by
    intro n
    induction n with
    | zero =>
      intro page vehicles hasking
      cases hasking
      decide
    | succ n ih =>
      intro page vehicles hasking
      rw [listVehicles] at hasking
      cases hlast : listVehicles limit answers n with
      | ended result =>
        rw [hlast] at hasking
        cases hasking
      | asking before earlier =>
        rw [hlast,Listing.next] at hasking
        cases hread : readPage limit (answers n) with
        | error e =>
          rw [hread] at hasking
          cases hasking
        | ok read =>
          obtain ⟨found,next⟩ := read
          rw [hread] at hasking
          cases next with
          | none => cases hasking
          | some next =>
            simp only at hasking
            split at hasking
            · cases hasking
            · cases hasking
              have hlater := h n before earlier found page hlast hread
              have hbefore := ih before earlier hlast
              push_cast
              omega
  obtain ⟨page,hle,hasking⟩ := listVehicles_asking hnone
  have hlt := hpage 100 page _ hasking
  unfold lastPage at hle
  push_cast at hlt
  omega

/-- A page that names itself as the next one. -/
def repeatingPage : PageAnswer :=
  .ok { status := 200
        json := some (.obj [("response",.arr []),("pagination",.obj [("next",.int 1)])]) }

/-- Against such pages the loop never ends. -/
theorem repeatingPage_endless :
    ¬ ∃ limit n result, EndsAfter limit (fun _ => repeatingPage) n result := by
  rintro ⟨limit,n,result,_,hended,_⟩
  have hread : readPage limit repeatingPage = .ok ([],some 1) := by rfl
  have hasking : ∀ n, listVehicles limit (fun _ => repeatingPage) n = .asking 1 [] := by
    intro n
    induction n with
    | zero => rfl
    | succ n ih =>
      rw [listVehicles,ih,Listing.next,hread]
      rfl
  rw [hasking n] at hended
  cases hended

end Woodhouse.Commands
