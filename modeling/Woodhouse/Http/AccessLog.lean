import Woodhouse.Http.Replay

namespace Woodhouse.Http
open Effects Python

variable {Time Other : Type} {Answer : Other → Type} {σ : Type}

/-- One line of the access log, with the clock readings that its duration is taken from. -/
structure AccessEntry (Time : Type) where
  startedAt : Time
  endedAt : Time
  method : Str
  path : Str
  status : Int

inductive LoggedCall (Time Other : Type) where
  | app (op : Call Other)
  | perfCounter
  | info (entry : AccessEntry Time)

abbrev LoggedCall.Ret {Other : Type} (Time : Type) (Answer : Other → Type) :
    LoggedCall Time Other → Type
  | .app op => op.Ret Answer
  | .perfCounter => Time
  | .info _ => Unit

abbrev LoggedEvent {Other : Type} (Time : Type) (Answer : Other → Type) :=
  Event (LoggedCall Time Other) (LoggedCall.Ret Time Answer) Exc

/-- Where a request stands in `SafeAccessLogMiddleware`. -/
inductive Logging (Time σ : Type) where
  | starting (app : σ)
  | running (startedAt : Time) (status : Int) (app : σ)
  | logging (entry : AccessEntry Time) (result : Except Exc Unit)
  | ended (result : Except Exc Unit)

/-- `capture_status`: the status is noted before the message is sent. -/
def captureStatus (status : Int) : Call Other → Int
  | .send (.responseStart code _) => code
  | _ => status

/-- `SafeAccessLogMiddleware.__call__` of an HTTP request. -/
def accessLog (scope : Scope) (app : App Answer σ) :
    Process (LoggedCall Time Other) (LoggedCall.Ret Time Answer) Exc (Logging Time σ)
  | .starting s => .call .perfCounter (fun
    | .ok startedAt => .running startedAt 500 s
    | .error e => .ended (.error e))
  | .running startedAt status s =>
    match app s with
    | .call op k => .call (.app op) (fun r => .running startedAt (captureStatus status op) (k r))
    | .done result =>
      -- the `finally` block, which a failing application reaches too
      .call .perfCounter (fun
        | .ok endedAt => .logging ⟨startedAt,endedAt,scope.method,scope.path,status⟩ result
        | .error e => .ended (.error e))
  | .logging entry result => .call (.info entry) (fun
    | .ok _ => .ended result
    | .error e => .ended (.error e))
  | .ended result => .done result

def lifted (e : AppEvent Answer) : LoggedEvent Time Answer := ⟨.app e.op,e.ret⟩

/-- The status of the last response that was started, or 500. -/
def finalStatus (es : List (AppEvent Answer)) : Int :=
  es.foldl (fun status e => captureStatus status e.op) 500

/-- Neither the clock nor the logger fails. -/
def Works : LoggedEvent Time Answer → Prop
  | ⟨.app _,_⟩ => True
  | ⟨.perfCounter,r⟩ => r.isOk
  | ⟨.info _,r⟩ => r.isOk

section Runs
variable {scope : Scope} {app : App Answer σ} {s : σ} {es : List (LoggedEvent Time Answer)}
  {result : Except Exc Unit}

theorem running_ended {startedAt : Time} {status : Int}
    (h : Steps (accessLog scope app) (.running startedAt status s) es (.ended result))
    (works : ∀ e ∈ es, Works e) :
    ∃ endedAt calls s', es = calls.map lifted ++
      [⟨.perfCounter,.ok endedAt⟩,
       ⟨.info ⟨startedAt,endedAt,scope.method,scope.path,
          calls.foldl (fun status e => captureStatus status e.op) status⟩,.ok ()⟩] ∧
      Steps app s calls s' ∧ app s' = .done result := by
  induction es generalizing s status with
  | nil => cases h.nil
  | cons e es ih =>
    obtain ⟨k,here,tail⟩ := h.cons
    have works' : ∀ e ∈ es, Works e := fun e' he' => works e' (List.mem_cons_of_mem e he')
    simp only [accessLog] at here
    cases hact : app s with
    | call op k' =>
      rw [hact] at here
      obtain ⟨op',r⟩ := e
      cases here
      obtain ⟨endedAt,calls,s',rfl,hsteps,hdone⟩ := ih tail works'
      exact ⟨endedAt,⟨op,r⟩ :: calls,s',rfl,.call hact hsteps,hdone⟩
    | done result' =>
      rw [hact] at here
      obtain ⟨op',r⟩ := e
      cases here
      cases r with
      | error e => cases works _ List.mem_cons_self
      | ok endedAt =>
        cases es with
        | nil => cases tail.nil
        | cons e es =>
          obtain ⟨k,here,tail⟩ := tail.cons
          obtain ⟨op',r⟩ := e
          cases here
          cases r with
          | error e => cases works' _ List.mem_cons_self
          | ok u =>
            obtain ⟨rfl,hend⟩ := tail.of_done rfl
            cases hend
            exact ⟨endedAt,[],s,rfl,.refl s,hact⟩

/-- Every run that ends has written one line, after the last call of the application. -/
theorem accessLog_ended (h : Steps (accessLog scope app) (.starting s) es (.ended result))
    (works : ∀ e ∈ es, Works e) :
    ∃ startedAt endedAt calls s', es = ⟨.perfCounter,.ok startedAt⟩ :: (calls.map lifted ++
      [⟨.perfCounter,.ok endedAt⟩,
       ⟨.info ⟨startedAt,endedAt,scope.method,scope.path,finalStatus calls⟩,.ok ()⟩]) ∧
      Steps app s calls s' ∧ app s' = .done result := by
  cases es with
  | nil => cases h.nil
  | cons e es =>
    obtain ⟨k,here,tail⟩ := h.cons
    obtain ⟨op,r⟩ := e
    cases here
    cases r with
    | error e => cases works _ List.mem_cons_self
    | ok startedAt =>
      obtain ⟨endedAt,calls,s',rfl,hsteps,hdone⟩ := running_ended tail
        (fun e he => works e (List.mem_cons_of_mem _ he))
      exact ⟨startedAt,endedAt,calls,s',rfl,hsteps,hdone⟩

end Runs

/-- The middleware of `create_app`: the access log around the body boundary. -/
def gateway (starlette : Starlette) (scope : Scope) (app : App Answer σ) :
    Process (LoggedCall Time Other) (LoggedCall.Ret Time Answer) Exc (Logging Time (Boundary σ)) :=
  accessLog scope (boundary starlette maxRequestBytes app)

/-- A response that was begun in full or in part has its status in the log. -/
theorem refused_status {starlette : Starlette} {maxBytes : Int} {app : App Answer σ} {status : Int}
    {headers : List (String × String)} {body : Bytes} {calls : List (AppEvent Answer)}
    {t : Boundary σ} {result : Except Exc Unit}
    (h : Steps (boundary starlette maxBytes app) (.responding [.responseStart status headers,.responseBody body])
      calls t) (hdone : boundary starlette maxBytes app t = .done result) : finalStatus calls = status := by
  have hsent := responding_steps_iff.mp ⟨t,h⟩
  cases hsent with
  | nil =>
    obtain rfl := h.nil
    cases hdone
  | failed m rest e => rfl
  | cons m tail =>
    cases tail with
    | nil => rfl
    | failed m rest e => rfl
    | cons m tail =>
      cases tail
      rfl

/-- Every HTTP request whose handling ends, whether it was refused, served or failed, is
logged exactly once and with the status of its response. -/
theorem gateway_ended (starlette : Starlette) (app : App Answer σ) (scope : Scope) (s : σ)
    (es : List (LoggedEvent Time Answer)) (result : Except Exc Unit)
    (http : scope.type = str "http")
    (h : Steps (gateway starlette scope app) (.starting (start starlette maxRequestBytes scope s)) es (.ended result))
    (works : ∀ e ∈ es, Works e) :
    ∃ startedAt endedAt calls, es = ⟨.perfCounter,.ok startedAt⟩ :: (calls.map lifted ++
      [⟨.perfCounter,.ok endedAt⟩,
       ⟨.info ⟨startedAt,endedAt,scope.method,scope.path,finalStatus calls⟩,.ok ()⟩]) ∧
      Bounded starlette maxRequestBytes app scope s calls ∧
      (contentLength scope = none → finalStatus calls = 400) ∧
      (∀ n, contentLength scope = some n → maxRequestBytes < n → finalStatus calls = 413) := by
  obtain ⟨startedAt,endedAt,calls,t,hes,hsteps,hdone⟩ := accessLog_ended h works
  refine ⟨startedAt,endedAt,calls,hes,?_,?_,?_⟩
  · exact (boundary_runs_iff starlette maxRequestBytes app scope s calls http).mp ⟨t,hsteps⟩
  · intro hlength
    have hstart : start starlette maxRequestBytes scope s =
        .responding (jsonResponse starlette 400 (errorDocument "invalid_content_length")) := by
      simp [start,http,hlength]
    rw [hstart] at hsteps
    exact refused_status hsteps hdone
  · intro n hlength hn
    have hstart : start starlette maxRequestBytes scope s =
        .responding (jsonResponse starlette 413 (errorDocument "body_too_large")) := by
      simp [start,http,hlength,hn]
    rw [hstart] at hsteps
    exact refused_status hsteps hdone

/-- The headers of the refusal. -/
def tooLargeHeaders : List (String × String) :=
  compactStarlette.headers 413 (errorDocument "body_too_large") noStoreHeaders

theorem gateway_ended_tooLarge : ∃ startedAt endedAt calls,
    [⟨.perfCounter,.ok 1⟩,⟨.app (.send (.responseStart 413 tooLargeHeaders)),.error (.other [])⟩,
      ⟨.perfCounter,.ok 2⟩,⟨.info ⟨1,2,str "POST",str "/mcp",413⟩,.ok ()⟩] =
    (⟨.perfCounter,.ok startedAt⟩ :: (calls.map lifted ++ [⟨.perfCounter,.ok endedAt⟩,
      ⟨.info ⟨startedAt,endedAt,str "POST",str "/mcp",finalStatus calls⟩,.ok ()⟩]) :
      List (LoggedEvent Nat (fun _ : Empty => Unit))) := by
  let scope : Scope := ⟨str "http",str "POST",str "/mcp",[(ascii "Content-Length",ascii "1048577")]⟩
  have hstart : start compactStarlette maxRequestBytes scope 0 =
      .responding (jsonResponse compactStarlette 413 (errorDocument "body_too_large")) := rfl
  have hrun : Steps (gateway compactStarlette scope acknowledge) (.starting (start compactStarlette maxRequestBytes scope 0))
      ([⟨.perfCounter,.ok 1⟩,⟨.app (.send (.responseStart 413 tooLargeHeaders)),.error (.other [])⟩,
        ⟨.perfCounter,.ok 2⟩,⟨.info ⟨1,2,str "POST",str "/mcp",413⟩,.ok ()⟩] :
        List (LoggedEvent Nat (fun _ : Empty => Unit)))
      (.ended (.error (.other []))) := by
    rw [hstart]
    exact .call rfl (.call rfl (.call rfl (.call rfl (.refl _))))
  obtain ⟨startedAt,endedAt,calls,hes,_⟩ := gateway_ended compactStarlette acknowledge scope 0 _ _ rfl hrun
    (by simp [Works,Except.isOk,Except.toBool])
  exact ⟨startedAt,endedAt,calls,hes⟩

end Woodhouse.Http
