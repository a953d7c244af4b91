import ApiClient.Client.Basic

/-!
# ApiClient.Client.Status

What becomes of a reply by its status.

Design points:

* The handlers of a call are asked before those of the client, each list in order. The first one
  that accepts the status decides; the others are not even asked.
* Without a handler a success goes on, and any other status is an error with the whole body.
-/

namespace ApiClient

variable {σ : Type}

/-- The first handler that accepts a status. -/
def StatusHandler.find (status : Status) :
    List (StatusHandler σ) → Call σ (Option (StatusHandler σ))
  | [] => pure none
  | handler :: rest => do if ← handler.accepts status then return some handler else find status rest

namespace Reply

/-- The error of a reply whose status is no success. -/
def statusError (r : Reply) : ClientError × Reply :=
  match r.readBytes with
  | (.error e, r) => (e, r)
  | (.ok body, r) => (.ofStatus r.response.status r.response.headers body, r)

/-- What becomes of a reply that no handler accepts. -/
def checkStatus (r : Reply) : Reply × Except ClientError Unit :=
  if r.response.status.isSuccess then (r, .ok ())
  else
    let (e, r) := r.statusError
    (r, .error e)

/-- Gives a reply to the handler for its status. -/
def handleStatus (handlers : List (StatusHandler σ)) (parts : RequestParts) (r : Reply) :
    Call σ (Reply × Except ClientError Unit) := do
  let status := r.response.status
  match ← StatusHandler.find status handlers with
  | none => return r.checkStatus
  | some handler =>
    Call.log .debug
      s!"Status {status.shown} of {parts.url.text} is handled by status handler"
    let (r, result) ← handler.act parts r.rewind.2
    return (r, result.mapError (Failure.toError .statusHandling))

end Reply

end ApiClient
