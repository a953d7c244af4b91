import ApiClient.Client.Journal
import ApiClient.Error.Transport
import ApiClient.Message.Request
import ApiClient.Message.Response

/-!
# ApiClient.Engine.Outcome

What an engine does with a request.

Design points:

* An engine works on the request in place. Its steps look at the request, take the body or the
  settings out of it, and may fail. What they left of it is what the caller finds, whether the last
  of them failed or not.
* An error is made from the request as it is when the step fails. Which error that is, and that it
  names the address, is up to the engine.
* The settings go over to the response as a whole. They are taken by the step that makes the
  response, so a step that fails before it leaves them where they are.
-/

namespace ApiClient

variable {σ α β : Type}

/-- An answer that an engine understood. -/
structure EngineAnswer where
  /-- The status. -/
  status : Status
  /-- The protocol version. -/
  version : Version
  /-- The headers. -/
  headers : HeaderMap
  /-- The body, still to be read. -/
  body : Stream

/-- The response of an answer, with the settings of the request. -/
def EngineAnswer.toResponse (a : EngineAnswer) (extensions : Extensions) : Response :=
  { status := a.status, version := a.version, headers := a.headers, extensions,
    body := .ofStream a.body }

/-- A step of an engine: it has the effects of a call, may change the request, and may fail. -/
abbrev EngineStep (σ α : Type) := ExceptT TransportError (StateT Request (Call σ)) α

namespace EngineStep

/-- Makes something of the request as it is, or fails. -/
def query (f : Request → Except TransportError α) : EngineStep σ α :=
  ExceptT.mk fun r => return (f r, r)

/-- Fails with an error that is made from the request. -/
def fail (error : RequestParts → TransportError) : EngineStep σ α := do
  throw (error (← get).parts)

/-- Takes the body out of the request, and leaves the one without content. -/
def takeBody : EngineStep σ RequestBody :=
  modifyGet fun r => (r.body, { r with body := .empty })

/-- Takes the settings out of the request, and leaves none. -/
def takeExtensions : EngineStep σ Extensions :=
  modifyGet fun r => (r.parts.extensions, { r with parts := { r.parts with extensions := {} } })

/-- Does something with the body of the request where it is. -/
def onBody (m : StateT RequestBody (Call σ) α) : EngineStep σ α := do
  let (a, body) ← (m.run (← get).body : Call σ (α × RequestBody))
  modify fun r => { r with body }
  return a

/-- Makes the response of an answer. -/
def respond (a : EngineAnswer) : EngineStep σ Response := do
  return a.toResponse (← takeExtensions)

/-- What is left of a request behind a step, and the result of the step. -/
def runOn (m : EngineStep σ α) (r : Request) : Call σ (Request × Except TransportError α) := do
  let (result, left) ← m.run.run r
  return (left, result)

/-- Behind a step that fails there is no other. -/
theorem runOn_bind (m : EngineStep σ α) (next : α → EngineStep σ β) (r : Request) (j : Journal σ) :
    (m >>= next).runOn r j = match m.runOn r j with
      | ((left, .ok a), j) => (next a).runOn left j
      | ((left, .error e), j) => ((left, .error e), j) := by
  have hsplit : (m >>= next).runOn r j = match m r j with
      | ((.ok a, left), j) => (next a).runOn left j
      | ((.error e, left), j) => ((left, .error e), j) := by
    simp only [runOn, bind, StateT.bind, StateT.run, ExceptT.run, ExceptT.bind, ExceptT.mk]
    rcases m r j with ⟨⟨_ | _, left⟩, j⟩ <;> rfl
  rw [hsplit]
  simp only [runOn, bind, StateT.bind, StateT.run, ExceptT.run]
  rcases m r j with ⟨⟨_ | _, left⟩, j⟩ <;> rfl

theorem runOn_bind_of_ok {m : EngineStep σ α} {next : α → EngineStep σ β} {r left : Request}
    {j reached : Journal σ} {a : α} (h : m.runOn r j = ((left, .ok a), reached)) :
    (m >>= next).runOn r j = (next a).runOn left reached := by
  rw [runOn_bind, h]

theorem runOn_query (f : Request → Except TransportError α) (r : Request) (j : Journal σ) :
    (query f).runOn r j = ((r, f r), j) := rfl

theorem runOn_liftM {m : Call σ α} {a : α} {j left : Journal σ} (h : m j = (a, left))
    (r : Request) : (liftM m : EngineStep σ α).runOn r j = ((r, .ok a), left) := by
  show (((r, Except.ok (m j).1) : Request × Except TransportError α), (m j).2) = _
  rw [h]

theorem runOn_onBody {m : StateT RequestBody (Call σ) α} {a : α} {r : Request} {body : RequestBody}
    {j left : Journal σ} (h : m r.body j = ((a, body), left)) :
    (onBody m).runOn r j = (({ r with body }, .ok a), left) := by
  show ((({ r with body := (m r.body j).1.2 }, Except.ok (m r.body j).1.1) :
    Request × Except TransportError α), (m r.body j).2) = _
  rw [h]

theorem runOn_takeBody (r : Request) (j : Journal σ) :
    takeBody.runOn r j = (({ r with body := .empty }, .ok r.body), j) := rfl

end EngineStep

/-- The name of the sending software with the name of an engine behind it. -/
def RequestParts.engineUserAgent [Build] (p : RequestParts) (engine : String) : String :=
  p.userAgent ++ "/" ++ engine

end ApiClient
