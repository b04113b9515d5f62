import Mathlib.Data.List.Induction
import Woodhouse.Http.Boundary

namespace Woodhouse.Http
open Effects Python

variable {Other : Type} {Answer : Other → Type} {σ : Type}

section Messages

def Message.chunk : Message → Bytes
  | .request body _ => body.getD []
  | _ => []

/-- More of the body is to come after this message. -/
def Message.more : Message → Bool
  | .request _ moreBody => moreBody.getD false
  | .disconnect => false
  | .other _ => true

def content (messages : List Message) : Bytes := messages.flatMap Message.chunk

@[simp] theorem content_nil : content [] = [] := rfl

@[simp] theorem content_append (messages messages' : List Message) :
    content (messages ++ messages') = content messages ++ content messages' := List.flatMap_append

@[simp] theorem content_singleton (m : Message) : content [m] = m.chunk := by simp [content]

/-- The one message that stands for a body and for how its last message ended it. -/
def Message.replay (body : Bytes) : Message → Message
  | .disconnect => .disconnect
  | _ => .request (some body) (some false)

def receivedEvent (m : Message) : AppEvent Answer := ⟨.receive,.ok m⟩

end Messages

/-- The messages of a response go out in order, until one of them fails. -/
inductive Sends : List Sent → List (AppEvent Answer) → Prop
  | nil (rest : List Sent) : Sends rest []
  | failed (m : Sent) (rest : List Sent) (e : Exc) : Sends (m :: rest) [⟨.send m,.error e⟩]
  | cons {rest : List Sent} {es : List (AppEvent Answer)} (m : Sent) (tail : Sends rest es) :
      Sends (m :: rest) (⟨.send m,.ok ()⟩ :: es)

/-- The calls of an application that meet the server, where the first message it receives
is one that the server is not asked for. -/
inductive Replays (message : Message) : List (AppEvent Answer) → List (AppEvent Answer) → Prop
  | none : Replays message [] []
  | first (es : List (AppEvent Answer)) : Replays message (⟨.receive,.ok message⟩ :: es) es
  | cons {e : AppEvent Answer} {es es' : List (AppEvent Answer)} (other : e.op ≠ .receive)
      (tail : Replays message es es') : Replays message (e :: es) (e :: es')

section Runs
variable {starlette : Starlette} {maxBytes : Int} {app : App Answer σ} {s : σ}
  {es : List (AppEvent Answer)}

theorem responding_steps_iff {rest : List Sent} :
    (∃ t, Steps (boundary starlette maxBytes app) (.responding rest) es t) ↔ Sends rest es := by
  induction rest generalizing es with
  | nil =>
    constructor
    · rintro ⟨t,h⟩
      obtain ⟨rfl,_⟩ := h.of_done rfl
      exact .nil []
    · intro h
      cases h
      exact ⟨_,.refl _⟩
  | cons m rest ih =>
    constructor
    · rintro ⟨t,h⟩
      cases es with
      | nil => exact .nil _
      | cons e es =>
        obtain ⟨k,here,tail⟩ := h.cons
        obtain ⟨op,r⟩ := e
        cases here
        cases r with
        | ok u => exact .cons m (ih.mp ⟨t,tail⟩)
        | error e =>
          obtain ⟨rfl,_⟩ := tail.of_done rfl
          exact .failed m rest e
    · intro h
      cases h with
      | nil => exact ⟨_,.refl _⟩
      | failed m rest e => exact ⟨.raised e,.call rfl (.refl _)⟩
      | cons m tail =>
        obtain ⟨t,ht⟩ := ih.mpr tail
        exact ⟨t,.call rfl ht⟩

theorem forwarding_steps_iff :
    (∃ t, Steps (boundary starlette maxBytes app) (.forwarding s) es t) ↔ ∃ s', Steps app s es s' := by
  have hsame : ∀ s, boundary starlette maxBytes app (.forwarding s) = (app s).map .forwarding := fun _ => rfl
  have hmap : ∀ t, Steps (boundary starlette maxBytes app) (.forwarding s) es t ↔
      ∃ s', t = .forwarding s' ∧ Steps app s es s' := fun t => steps_map_iff hsame
  constructor
  · rintro ⟨t,h⟩
    obtain ⟨s',_,hs⟩ := (hmap t).mp h
    exact ⟨s',hs⟩
  · rintro ⟨s',hs⟩
    exact ⟨_,(hmap _).mpr ⟨s',rfl,hs⟩⟩

section Replaying
variable {message : Message}

/-- Once the application asks for its first message, it goes on from the replayed one. -/
theorem replaying_receive {k : Except Exc Message → σ} (h : app s = .call .receive k) :
    boundary starlette maxBytes app (.replaying message s) =
      boundary starlette maxBytes app (.forwarding (k (.ok message))) := by
  rw [boundary,h]
  rfl

theorem replaying_call {op : Call Other} {k : Except Exc (op.Ret Answer) → σ}
    (h : app s = .call op k) (hop : op ≠ .receive) :
    boundary starlette maxBytes app (.replaying message s) = .call op (fun r => .replaying message (k r)) := by
  rw [boundary,h]
  cases op with
  | receive => exact absurd rfl hop
  | send m => rfl
  | other op => rfl

theorem replaying_done {result : Except Exc Unit} (h : app s = .done result) :
    boundary starlette maxBytes app (.replaying message s) = .done result := by
  rw [boundary,h]

/-- States that do the same have the same runs. -/
theorem steps_congr {next : App Answer σ} {s t : σ} (same : next s = next t)
    (h : ∃ u, Steps next s es u) : ∃ u, Steps next t es u := by
  obtain ⟨u,h⟩ := h
  cases h with
  | refl s => exact ⟨t,.refl t⟩
  | call here tail => exact ⟨u,.call (same ▸ here) tail⟩

theorem replaying_steps_iff :
    (∃ t, Steps (boundary starlette maxBytes app) (.replaying message s) es t) ↔
      ∃ es' s', Steps app s es' s' ∧ Replays message es' es := by
  constructor
  · intro h
    induction es generalizing s with
    | nil => exact ⟨[],s,.refl s,.none⟩
    | cons e es ih =>
      cases hact : app s with
      | done result =>
        obtain ⟨t,h⟩ := h
        obtain ⟨hnil,_⟩ := h.of_done (replaying_done hact)
        cases hnil
      | call op k =>
        by_cases hop : op = .receive
        · subst hop
          obtain ⟨s',hs⟩ := forwarding_steps_iff.mp (steps_congr (replaying_receive hact) h)
          exact ⟨_,s',.call hact hs,.first _⟩
        · obtain ⟨t,h⟩ := h
          obtain ⟨k',here,tail⟩ := h.cons
          rw [replaying_call hact hop] at here
          obtain ⟨op',r⟩ := e
          cases here
          obtain ⟨es',s',hs,hr⟩ := ih ⟨t,tail⟩
          exact ⟨_,s',.call hact hs,.cons hop hr⟩
  · rintro ⟨es',s',hs,hr⟩
    induction hr generalizing s with
    | none => exact ⟨_,.refl _⟩
    | first es =>
      obtain ⟨k,here,tail⟩ := hs.cons
      exact steps_congr (replaying_receive here).symm (forwarding_steps_iff.mpr ⟨s',tail⟩)
    | cons other tail ih =>
      obtain ⟨k,here,hs⟩ := hs.cons
      obtain ⟨t,ht⟩ := ih hs
      exact ⟨t,.call (replaying_call here other) ht⟩

end Replaying

end Runs

/-- What happens to a request whose length is admitted, in front of an application in
state `s`. -/
inductive Handled (starlette : Starlette) (maxBytes : Int) (app : App Answer σ) (s : σ) :
    List (AppEvent Answer) → Prop
  | waiting (ms : List Message) (unended : ∀ m ∈ ms, m.more) (fits : (content ms).length ≤ maxBytes) :
      Handled starlette maxBytes app s (ms.map receivedEvent)
  | timedOut (ms : List Message) (unended : ∀ m ∈ ms, m.more)
      (fits : (content ms).length ≤ maxBytes) (es : List (AppEvent Answer))
      (sent : Sends (jsonResponse starlette 408 (errorDocument "request_timeout")) es) :
      Handled starlette maxBytes app s (ms.map receivedEvent ++ ⟨.receive,.error .timeoutError⟩ :: es)
  | failed (ms : List Message) (unended : ∀ m ∈ ms, m.more)
      (fits : (content ms).length ≤ maxBytes) (e : Exc) (other : e ≠ .timeoutError) :
      Handled starlette maxBytes app s (ms.map receivedEvent ++ [⟨.receive,.error e⟩])
  | tooLarge (ms : List Message) (m : Message) (unended : ∀ m ∈ ms, m.more)
      (fits : (content ms).length ≤ maxBytes) (exceeds : maxBytes < (content (ms ++ [m])).length)
      (es : List (AppEvent Answer))
      (sent : Sends (jsonResponse starlette 413 (errorDocument "body_too_large")) es) :
      Handled starlette maxBytes app s ((ms ++ [m]).map receivedEvent ++ es)
  | served (ms : List Message) (m : Message) (unended : ∀ m ∈ ms, m.more) (ended : m.more = false)
      (fits : (content (ms ++ [m])).length ≤ maxBytes) (es es' : List (AppEvent Answer)) (s' : σ)
      (run : Steps app s es' s') (replays : Replays (m.replay (content (ms ++ [m]))) es' es) :
      Handled starlette maxBytes app s ((ms ++ [m]).map receivedEvent ++ es)

/-- What may happen to an HTTP request. -/
def Bounded (starlette : Starlette) (maxBytes : Int) (app : App Answer σ) (scope : Scope) (s : σ)
    (es : List (AppEvent Answer)) : Prop :=
  match contentLength scope with
  | none => Sends (jsonResponse starlette 400 (errorDocument "invalid_content_length")) es
  | some n =>
    if maxBytes < n then Sends (jsonResponse starlette 413 (errorDocument "body_too_large")) es
    else Handled starlette maxBytes app s es

section Reading
variable {starlette : Starlette} {maxBytes : Int} {app : App Answer σ} {s : σ}
  {es : List (AppEvent Answer)}
  {ms : List Message} {m : Message}

theorem readMessage_more (more : m.more) (fits : (content (ms ++ [m])).length ≤ maxBytes) :
    readMessage starlette maxBytes (content ms) s m = .reading (content (ms ++ [m])) s := by
  cases m with
  | disconnect => cases more
  | other type => simp [readMessage,Message.chunk]
  | request body moreBody =>
    simp only [Message.more] at more
    simp only [content_append,content_singleton,Message.chunk] at fits ⊢
    simp only [readMessage]
    rw [if_neg (by omega),if_pos more]

theorem readMessage_ended (ended : m.more = false) (fits : (content (ms ++ [m])).length ≤ maxBytes) :
    readMessage starlette maxBytes (content ms) s m = .replaying (m.replay (content (ms ++ [m]))) s := by
  cases m with
  | disconnect => rfl
  | other type => cases ended
  | request body moreBody =>
    simp only [Message.more] at ended
    simp only [content_append,content_singleton,Message.chunk] at fits ⊢
    simp only [readMessage,ended,Message.replay]
    rw [if_neg (by omega),if_neg (by simp)]

theorem readMessage_exceeds (fits : (content ms).length ≤ maxBytes)
    (exceeds : maxBytes < (content (ms ++ [m])).length) :
    readMessage starlette maxBytes (content ms) s m =
      .responding (jsonResponse starlette 413 (errorDocument "body_too_large")) := by
  simp only [content_append,content_singleton] at exceeds
  cases m with
  | disconnect =>
    simp only [Message.chunk,List.append_nil] at exceeds
    omega
  | other type =>
    simp only [Message.chunk,List.append_nil] at exceeds
    omega
  | request body moreBody =>
    simp only [Message.chunk] at exceeds
    simp only [readMessage]
    rw [if_pos exceeds]

/-- Whatever was read so far belongs to a request that is handled. -/
theorem handled_of_reading (unended : ∀ m ∈ ms, m.more) (fits : (content ms).length ≤ maxBytes)
    (h : ∃ t, Steps (boundary starlette maxBytes app) (.reading (content ms) s) es t) :
    Handled starlette maxBytes app s (ms.map receivedEvent ++ es) := by
  induction es generalizing ms with
  | nil =>
    rw [List.append_nil]
    exact .waiting ms unended fits
  | cons e es ih =>
    obtain ⟨t,h⟩ := h
    obtain ⟨k,here,tail⟩ := h.cons
    obtain ⟨op,r⟩ := e
    cases here
    cases r with
    | error e =>
      cases e with
      | timeoutError => exact .timedOut ms unended fits es (responding_steps_iff.mp ⟨t,tail⟩)
      | other name =>
        obtain ⟨rfl,_⟩ := tail.of_done rfl
        exact .failed ms unended fits _ (by simp)
    | ok m =>
      have hshift : ms.map receivedEvent ++ ⟨.receive,.ok m⟩ :: es =
          (ms ++ [m]).map receivedEvent ++ es := by simp [receivedEvent]
      change Steps _ (readMessage starlette maxBytes (content ms) s m) es t at tail
      rw [hshift]
      by_cases hfits : (content (ms ++ [m])).length ≤ maxBytes
      · cases hmore : m.more with
        | true =>
          rw [readMessage_more hmore hfits] at tail
          refine ih ?_ hfits ⟨t,tail⟩
          intro m' hm'
          rcases List.mem_append.mp hm' with h | h
          · exact unended m' h
          · obtain rfl := List.mem_singleton.mp h
            exact hmore
        | false =>
          rw [readMessage_ended hmore hfits] at tail
          obtain ⟨es',s',run,replays⟩ := replaying_steps_iff.mp ⟨t,tail⟩
          exact .served ms m unended hmore hfits es es' s' run replays
      · rw [readMessage_exceeds fits (not_le.mp hfits)] at tail
        exact .tooLarge ms m unended fits (not_le.mp hfits) es (responding_steps_iff.mp ⟨t,tail⟩)

/-- The messages of an unended body within the limit are all read. -/
theorem reading_steps (unended : ∀ m ∈ ms, m.more) (fits : (content ms).length ≤ maxBytes) :
    Steps (boundary starlette maxBytes app) (.reading [] s) (ms.map receivedEvent)
      (.reading (content ms) s) := by
  induction ms using List.reverseRecOn with
  | nil => exact .refl _
  | append_singleton ms m ih =>
    have hms : (content ms).length ≤ maxBytes := by
      simp only [content_append,List.length_append] at fits
      omega
    have hread := @readMessage_more _ starlette _ s _ _ (unended m (by simp)) fits
    have hstep : Steps (boundary starlette maxBytes app) (.reading (content ms) s) [receivedEvent m]
        (.reading (content (ms ++ [m])) s) := .call rfl (hread ▸ .refl _)
    rw [List.map_append]
    exact (ih (fun m hm => unended m (by simp [hm])) hms).append hstep

/-- One more message, and what the request does from then on. -/
theorem reading_received {t : Boundary σ} (unended : ∀ m ∈ ms, m.more)
    (fits : (content ms).length ≤ maxBytes) (hread : readMessage starlette maxBytes (content ms) s m = t)
    (h : ∃ u, Steps (boundary starlette maxBytes app) t es u) :
    ∃ u, Steps (boundary starlette maxBytes app) (.reading [] s) ((ms ++ [m]).map receivedEvent ++ es) u := by
  obtain ⟨u,h⟩ := h
  subst hread
  refine ⟨u,?_⟩
  rw [List.map_append,List.append_assoc]
  exact (reading_steps unended fits).append (.call rfl h)

theorem reading_of_handled (h : Handled starlette maxBytes app s es) :
    ∃ t, Steps (boundary starlette maxBytes app) (.reading [] s) es t := by
  cases h with
  | waiting ms unended fits => exact ⟨_,reading_steps unended fits⟩
  | timedOut ms unended fits es sent =>
    obtain ⟨t,ht⟩ := responding_steps_iff.mpr sent
    exact ⟨t,(reading_steps unended fits).append (.call rfl ht)⟩
  | failed ms unended fits e other =>
    cases e with
    | timeoutError => exact absurd rfl other
    | other name => exact ⟨_,(reading_steps unended fits).append (.call rfl (.refl _))⟩
  | tooLarge ms m unended fits exceeds es sent =>
    exact reading_received unended fits (readMessage_exceeds fits exceeds)
      (responding_steps_iff.mpr sent)
  | served ms m unended ended fits es es' s' run replays =>
    have hms : (content ms).length ≤ maxBytes := by
      simp only [content_append,List.length_append] at fits
      omega
    exact reading_received unended hms (readMessage_ended ended fits)
      (replaying_steps_iff.mpr ⟨es',s',run,replays⟩)

end Reading

theorem contentLength_nonneg {scope : Scope} {n : Int} (h : contentLength scope = some n) :
    0 ≤ n := by
  unfold contentLength at h
  dsimp only at h
  split at h
  · cases h
    exact le_refl 0
  · split at h
    · split at h
      · rename_i hn
        cases h
        exact hn
      · cases h
    · cases h
  · cases h

/-- An HTTP request is read up to the limit and then served from its replayed body, or it
is refused before the application does anything. -/
theorem boundary_runs_iff (starlette : Starlette) (maxBytes : Int) (app : App Answer σ) (scope : Scope) (s : σ)
    (es : List (AppEvent Answer)) (http : scope.type = str "http") :
    (∃ t, Steps (boundary starlette maxBytes app) (start starlette maxBytes scope s) es t) ↔
      Bounded starlette maxBytes app scope s es := by
  unfold start Bounded
  rw [if_neg (by simp [http])]
  cases hlength : contentLength scope with
  | none => exact responding_steps_iff
  | some n =>
    dsimp only
    split
    · exact responding_steps_iff
    · rename_i hfits
      constructor
      · intro h
        have hnone : ∀ m ∈ ([] : List Message), m.more := by simp
        have hpos : 0 ≤ maxBytes := (contentLength_nonneg hlength).trans (not_lt.mp hfits)
        have hhandled := handled_of_reading hnone (by simpa using hpos) h
        simpa using hhandled
      · exact reading_of_handled

/-- A request to the tools without a `Content-Length`. -/
def mcpPost : Scope := ⟨str "http",str "POST",str "/mcp",[]⟩

/-- An application that receives once and answers 204. -/
def acknowledge : App (fun _ : Empty => Unit) Nat
  | 0 => .call .receive (fun _ => 1)
  | 1 => .call (.send (.responseStart 204 [])) (fun _ => 2)
  | 2 => .call (.send (.responseBody [])) (fun _ => 3)
  | _ => .done (.ok ())

/-- The header fields and the compact UTF-8 text that Starlette makes of a document. -/
def compactStarlette : Starlette :=
  { headers := fun _ document headers => headers ++
      [("content-length",toString ((dumpsUtf8 document).flatMap utf8Bytes).length),
       ("content-type","application/json")]
    body := fun document => (dumpsUtf8 document).flatMap utf8Bytes }

theorem mcpPost_served : ∃ t, Steps (boundary compactStarlette 8 acknowledge)
    (start compactStarlette 8 mcpPost 0)
    ([.request (some [1,2,3]) (some true),.request (some [4]) none].map receivedEvent ++
      [⟨.send (.responseStart 204 []),.ok ()⟩]) t := by
  refine (boundary_runs_iff compactStarlette 8 acknowledge mcpPost 0 _ rfl).mpr ?_
  have hrun : Steps acknowledge 0 [⟨.receive,.ok (.request (some [1,2,3,4]) (some false))⟩,
      ⟨.send (.responseStart 204 []),.ok ()⟩] 2 := .call rfl (.call rfl (.refl 2))
  have hserved := @Handled.served _ _ _ compactStarlette 8 acknowledge 0 [.request (some [1,2,3]) (some true)]
    (.request (some [4]) none) (by simp [Message.more]) rfl (by decide) _ _ _ hrun (.first _)
  exact hserved

end Woodhouse.Http
