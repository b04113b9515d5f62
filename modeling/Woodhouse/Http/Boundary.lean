import Woodhouse.Effects.Process
import Woodhouse.Python.DumpsUtf8
import Woodhouse.Python.Numbers

namespace Woodhouse.Http
open Effects Python

/-- An ASGI message to the application. -/
inductive Message where
  | request (body : Option Bytes) (moreBody : Option Bool)
  | disconnect
  | other (type : Str)

/-- An ASGI message from the application. -/
inductive Sent where
  | responseStart (status : Int) (headers : List (String × String))
  | responseBody (body : Bytes)
  | other (type : Str)

inductive Exc where
  | timeoutError
  | other (name : Str)
  deriving DecidableEq

structure Scope where
  type : Str
  method : Str
  path : Str
  headers : List (Bytes × Bytes)

/-- The calls of an ASGI application; `Other` is whatever else it does. -/
inductive Call (Other : Type) where
  | receive
  | send (message : Sent)
  | other (op : Other)

abbrev Call.Ret {Other : Type} (Answer : Other → Type) : Call Other → Type
  | .receive => Message
  | .send _ => Unit
  | .other op => Answer op

variable {Other : Type} {Answer : Other → Type} {σ : Type}

abbrev App {Other : Type} (Answer : Other → Type) (σ : Type) :=
  Process (Call Other) (Call.Ret Answer) Exc σ

abbrev AppEvent {Other : Type} (Answer : Other → Type) := Event (Call Other) (Call.Ret Answer) Exc

section Responses

def noStoreHeaders : List (String × String) :=
  [("Cache-Control","no-store"),("Referrer-Policy","no-referrer"),
   ("X-Content-Type-Options","nosniff")]

/-- What Starlette's `JSONResponse` makes of a status, a document and the headers it is given. -/
structure Starlette where
  headers : Int → Json → List (String × String) → List (String × String)
  body : Json → Bytes

/-- `json_response(status, document)` as it answers a request. -/
def jsonResponse (starlette : Starlette) (status : Int) (document : Json) : List Sent :=
  [.responseStart status (starlette.headers status document noStoreHeaders),
   .responseBody (starlette.body document)]

def errorDocument (category : String) : Json := .obj [(str "error",.str (str category))]

end Responses

section ContentLength

def lower (name : Bytes) : Bytes :=
  name.map (fun b => if 65 ≤ b.toNat ∧ b.toNat ≤ 90 then b + 32 else b)

/-- `int(value)` of bytes, which reads ASCII only. -/
def intOfBytes (value : Bytes) : Except PyExc Int :=
  intOfStr (value.map (fun b => if b.toNat < 128 then Fin.ofNat _ b.toNat else chr '?'))

def contentLength (scope : Scope) : Option Int :=
  let values := scope.headers.filterMap
    (fun h => if lower h.1 = ascii "content-length" then some h.2 else none)
  match values with
  | [] => some 0
  | [value] =>
    match intOfBytes value with
    | .ok result => if 0 ≤ result then some result else none
    | .error _ => none
  | _ => none

end ContentLength

section Middleware
variable (starlette : Starlette)

/-- Where a request stands in `RequestBodyBoundaryMiddleware`, in front of an application
in state `app`. -/
inductive Boundary (σ : Type) where
  | reading (body : Bytes) (app : σ)
  | responding (rest : List Sent)
  | raised (e : Exc)
  | replaying (message : Message) (app : σ)
  | forwarding (app : σ)

def maxRequestBytes : Int := 1048576

def start (maxBytes : Int) (scope : Scope) (app : σ) : Boundary σ :=
  if scope.type ≠ str "http" then .forwarding app
  else match contentLength scope with
    | none => .responding (jsonResponse starlette 400 (errorDocument "invalid_content_length"))
    | some n =>
      if maxBytes < n then .responding (jsonResponse starlette 413 (errorDocument "body_too_large"))
      else .reading [] app

/-- What the loop does with one message. -/
def readMessage (maxBytes : Int) (body : Bytes) (app : σ) : Message → Boundary σ
  | .disconnect => .replaying .disconnect app
  | .other _ => .reading body app
  | .request chunk moreBody =>
    let body := body ++ chunk.getD []
    if maxBytes < body.length then
      .responding (jsonResponse starlette 413 (errorDocument "body_too_large"))
    else if moreBody.getD false then .reading body app
    else .replaying (.request (some body) (some false)) app

/-- What the loop does with the answer of `receive()`; the deadline of `fail_after` is an
answer of its own. -/
def received (maxBytes : Int) (body : Bytes) (app : σ) : Except Exc Message → Boundary σ
  | .ok message => readMessage starlette maxBytes body app message
  | .error .timeoutError => .responding (jsonResponse starlette 408 (errorDocument "request_timeout"))
  | .error e => .raised e

/-- `RequestBodyBoundaryMiddleware.__call__` from `start` on. -/
def boundary (maxBytes : Int) (app : App Answer σ) : App Answer (Boundary σ)
  | .reading body s => .call .receive (received starlette maxBytes body s)
  | .responding [] => .done (.ok ())
  | .responding (m :: rest) => .call (.send m) (fun
    | .ok _ => .responding rest
    | .error e => .raised e)
  | .raised e => .done (.error e)
  | .replaying message s =>
    -- `replay_body` answers the first `receive()` of the application itself
    match app s with
    | .call .receive k => (app (k (.ok message))).map .forwarding
    | .call op k => .call op (fun r => .replaying message (k r))
    | .done result => .done result
  | .forwarding s => (app s).map .forwarding

end Middleware

end Woodhouse.Http
