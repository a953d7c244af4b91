import ApiClient.Client.Build

/-!
# ApiClient.Client.Execute

Sending a built request: initializers, then interceptors, then the transport.

Design points:

* Interceptors see the body as bytes, so it is read into memory before the first of them. Without
  interceptors the transport gets the body as it is.
* The chain is a recursion over the list of interceptors. What comes back passes them in reverse
  order.
* While the transport has a request, fresh parts stand in for those of the caller. They are replaced
  by what the transport left before anything is made of its result.
* A response that the client buffers is in memory before anyone but the transport sees it.
-/

namespace ApiClient

variable {σ : Type}

namespace Client

/-- Applies the initializers in order. -/
def applyInitializers (hooks : List (RequestParts → Call σ RequestParts)) (parts : RequestParts) :
    Call σ RequestParts :=
  match hooks with
  | [] => pure parts
  | hook :: rest => do applyInitializers rest (← hook parts)

/-- A request line in log records. -/
def lineText (parts : RequestParts) : String := s!"{parts.method.text} {parts.url.text}"

/-- Moves the body of a response into memory if the client buffers the response. -/
def bufferResponse (c : Client σ) (parts : RequestParts) (response : Response) :
    Call σ Outcome := do
  if ← c.buffers parts.url parts.method then
    match response.body.buffer with
    | (.ok (), body) => return .ok { response with body }
    | (.error e, _) => return .error (.ofIo e)
  else return .ok response

/-- Gives a request to the transport. Its parts are taken for the call, and what the transport left
of them is put back, however the call ended. -/
def handToTransport (c : Client σ) (body : RequestBody) : StateT RequestParts (Call σ) Outcome := do
  let parts ← modifyGet fun parts => (parts, {})
  (Call.log .debug (lineText parts) : Call σ Unit)
  let (request, result) ← c.transport.call ⟨parts, body⟩
  set request.parts
  let parts ← get
  match result with
  | .error e =>
    (Call.log .warn s!"Failed to call {lineText parts}: {e.text}" : Call σ Unit)
    return .error (.ofTransport e)
  | .ok response =>
    (Call.log .debug s!"{lineText parts} responded {response.status.shown}" : Call σ Unit)
    c.bufferResponse parts response

/-- What is left of the parts of a request behind the transport, and how its call ended. -/
def callTransport (c : Client σ) (parts : RequestParts) (body : RequestBody) :
    Call σ (RequestParts × Outcome) := do
  let (outcome, left) ← (c.handToTransport body).run parts
  return (left, outcome)

/-- The parts that stand in are seen by nothing. -/
theorem callTransport_eq_call (c : Client σ) (parts : RequestParts) (body : RequestBody) :
    c.callTransport parts body = do
      Call.log .debug (lineText parts)
      let (request, result) ← c.transport.call ⟨parts, body⟩
      match result with
      | .error e =>
        Call.log .warn s!"Failed to call {lineText request.parts}: {e.text}"
        return (request.parts, .error (.ofTransport e))
      | .ok response =>
        Call.log .debug s!"{lineText request.parts} responded {response.status.shown}"
        return (request.parts, ← c.bufferResponse request.parts response) := by
  simp only [callTransport, handToTransport, StateT.run_bind, StateT.run_modifyGet,
    StateT.run_monadLift, StateT.run_set, StateT.run_get, monadLift_self, bind_assoc, pure_bind]
  refine bind_congr fun _ => bind_congr fun (left, result) => ?_
  cases result with
  | error e => simp
  | ok response => simp

/-- Gives a request to the interceptors `rest`, behind `passed` others, and then to the
transport. -/
def runChain (c : Client σ) (passed : Nat) :
    List (Interceptor σ) → RequestParts → Bytes → Call σ (RequestParts × Outcome)
  | [], parts, body => c.callTransport parts (.ofBytes body)
  | interceptor :: rest, parts, body => do
    match ← interceptor.intercept ⟨passed + 1, c.interceptors.length⟩ parts body with
    | .answer parts outcome => return (parts, outcome)
    | .forward parts body resume =>
      let (parts, outcome) ← c.runChain (passed + 1) rest parts body
      resume parts outcome

/-- Sends a built request. -/
def execute (c : Client σ) (parts : RequestParts) (body : RequestBody) :
    Call σ (RequestParts × Outcome) := do
  let parts ← applyInitializers c.initializers parts
  if c.interceptors.isEmpty then c.callTransport parts body
  else match body.toBytes with
    | .error e => return (parts, .error (.ofIo e))
    | .ok bytes => c.runChain 0 c.interceptors parts bytes

end Client

end ApiClient
