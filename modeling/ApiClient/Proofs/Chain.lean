import ApiClient.Proofs.Observation

/-!
# ApiClient.Proofs.Chain

The way of a request through initializers, interceptors and the transport.

A `Route` is the way of one request through the chain: the interceptors that passed it on, in order,
and the place where it turned round, which is an interceptor that answered it itself or the
transport. What the hooks note is a function of the route (`Route.events`), and `Route.Runs` says
that nothing is lost between neighbours: each place gets the request that the one before it passed
on, and each interceptor sees what the one behind it gave back.

The induction is on the interceptors that are still ahead. Its step puts one passage in front of a
route (`Route.Runs.cons`), so the first interceptor ends up outermost.
-/

namespace ApiClient

variable {σ : Type}

open Call

/-! ### Initializers -/

/-- What initializers note that take a request through the given states. -/
def initializations : Nat → RequestParts → List RequestParts → List Event
  | _, _, [] => []
  | index, before, after :: rest =>
    .initialized index before after :: initializations (index + 1) after rest

/-- Every initializer runs once, in order, on what the one before it left. -/
theorem applyInitializers_tells (hooks : List (RequestParts → Call σ RequestParts)) :
    ∀ (start : Nat) (parts : RequestParts),
      Tells
        (Client.applyInitializers
          ((hooks.zipIdx start).map fun h => watchInitializer h.1 h.2) parts)
        (Client.applyInitializers hooks parts) fun prepared told =>
          ∃ states : List RequestParts, states.length = hooks.length
            ∧ prepared = states.getLastD parts ∧ told = initializations start parts states := by
  induction hooks with
  | nil =>
      intro start parts
      exact tells_pure ⟨[], rfl, rfl, rfl⟩
  | cons hook rest ih =>
      intro start parts
      -- The head notes its own change, and the rest goes on from what it left.
      rw [List.zipIdx_cons, List.map_cons, Client.applyInitializers, Client.applyInitializers]
      refine (Tells.bind (tells_watch_note (hook parts) _) fun after =>
        ih (start + 1) after).mono ?_
      rintro prepared _ ⟨after, _, _, rfl, rfl, states, hlen, rfl, rfl⟩
      exact ⟨after :: states, by simp [hlen], by rw [List.getLastD_cons], rfl⟩

/-! ### The transport -/

/-- A response in memory, or the failure to read it. -/
def Response.buffered (response : Response) : Outcome :=
  match response.body.buffer with
  | (.ok (), body) => .ok { response with body }
  | (.error e, _) => .error (.ofIo e)

/-- One call of the transport. -/
structure Delivery where
  /-- The request that the transport got. -/
  request : Request
  /-- What the transport left of the request. -/
  left : Request
  /-- What the transport answered. -/
  answer : Except TransportError Response
  /-- What the buffering policy said, if it was asked. -/
  buffers : Option Bool

namespace Delivery

/-- How the call ends: with the error of the transport, or with the response, moved into memory if
the policy accepts it. -/
def outcome (d : Delivery) : Outcome :=
  match d.answer with
  | .error e => .error (.ofTransport e)
  | .ok response => if d.buffers = some true then response.buffered else .ok response

/-- What comes back from the call. -/
def back (d : Delivery) : RequestParts × Outcome := (d.left.parts, d.outcome)

/-- What the hooks note. The policy is asked about the request that the transport left. -/
def events (d : Delivery) : List Event :=
  .called d.request :: .answered d.left d.answer ::
    (d.buffers.map (.policyAsked d.left.parts.url d.left.parts.method)).toList

/-- The policy is asked if there is one, and only about a response. -/
def Asks (d : Delivery) (c : Client σ) : Prop :=
  d.buffers.isSome = (c.buffering.isSome && d.answer.isOk)

end Delivery

theorem buffers_tells (c : Client σ) (calls : Nat) (url : Uri) (method : Method) :
    Tells ((c.watched calls).buffers url method) (c.buffers url method) fun accepts told =>
      ∃ asked : Option Bool, asked.isSome = c.buffering.isSome ∧ accepts = asked.getD false
        ∧ told = (asked.map (.policyAsked url method)).toList := by
  unfold Client.buffers Client.watched
  cases c.buffering with
  | none => exact tells_pure ⟨none, rfl, rfl, rfl⟩
  | some policy =>
      refine (tells_watch_note (policy url method) (.policyAsked url method)).mono ?_
      rintro accepts _ rfl
      exact ⟨some accepts, rfl, rfl, rfl⟩

theorem bufferResponse_tells (c : Client σ) (calls : Nat) (parts : RequestParts)
    (response : Response) :
    Tells ((c.watched calls).bufferResponse parts response) (c.bufferResponse parts response)
      fun outcome told => ∃ asked : Option Bool, asked.isSome = c.buffering.isSome
        ∧ outcome = (if asked = some true then response.buffered else .ok response)
        ∧ told = (asked.map (.policyAsked parts.url parts.method)).toList := by
  unfold Client.bufferResponse
  refine (Tells.bind (Q := fun accepts outcome told =>
    outcome = (if accepts then response.buffered else .ok response) ∧ told = [])
    (buffers_tells c calls parts.url parts.method) ?_).mono ?_
  · intro accepts
    unfold Response.buffered
    cases accepts with
    | false => exact tells_pure ⟨rfl, rfl⟩
    | true =>
        rcases response.body.buffer with ⟨_ | _, body⟩
        · exact tells_pure ⟨rfl, rfl⟩
        · exact tells_pure ⟨rfl, rfl⟩
  · rintro outcome _ ⟨accepts, _, _, rfl, ⟨asked, hasked, rfl, rfl⟩, rfl, rfl⟩
    refine ⟨asked, hasked, ?_, by rw [List.append_nil]⟩
    -- Without a policy the response stays as it is, like one that the policy refuses.
    rcases asked with _ | _ | _ <;> rfl

/-- The transport gets the request as it is, once, and the policy is asked behind it. -/
theorem callTransport_tells (c : Client σ) (calls : Nat) (parts : RequestParts)
    (body : RequestBody) :
    Tells ((c.watched calls).callTransport parts body) (c.callTransport parts body)
      fun back told => ∃ d : Delivery, d.request = ⟨parts, body⟩ ∧ d.Asks c ∧ back = d.back
        ∧ told = d.events := by
  rw [Client.callTransport_eq_call, Client.callTransport_eq_call]
  refine tells_log_bind ((Tells.bind (Tells.note (.called ⟨parts, body⟩)
    (tells_watch_note (c.transport.call ⟨parts, body⟩) fun back => .answered back.1 back.2))
    (Q := fun request back told => ∃ asked : Option Bool,
      asked.isSome = (c.buffering.isSome && request.2.isOk)
        ∧ back = Delivery.back ⟨⟨parts, body⟩, request.1, request.2, asked⟩
        ∧ told = (asked.map (.policyAsked request.1.parts.url request.1.parts.method)).toList)
    ?_).mono ?_)
  · rintro ⟨left, answer⟩
    cases answer with
    -- A failed call has no response that the policy could be asked about.
    | error e =>
        exact tells_log_bind (tells_pure ⟨none, by simp [Except.isOk, Except.toBool], rfl, rfl⟩)
    | ok response =>
        refine tells_log_bind ((Tells.bind (bufferResponse_tells c calls left.parts response)
          fun outcome => tells_pure (P := fun back told => back = (left.parts, outcome) ∧ told = [])
            ⟨rfl, rfl⟩).mono ?_)
        rintro _ _ ⟨outcome, _, _, rfl, ⟨asked, hasked, rfl, rfl⟩, rfl, rfl⟩
        exact ⟨asked, by simp [hasked, Except.isOk, Except.toBool], rfl, by rw [List.append_nil]⟩
  · rintro back _ ⟨⟨left, answer⟩, _, _, rfl, ⟨_, rfl, rfl⟩, asked, hasked, rfl, rfl⟩
    exact ⟨⟨⟨parts, body⟩, left, answer, asked⟩, rfl, hasked, rfl, rfl⟩

/-! ### Routes -/

/-- An interceptor that passed a request on. -/
structure Passage where
  /-- The place of the interceptor among all of them. -/
  index : Nat
  /-- The request that it got. -/
  request : Request
  /-- The request that it passed on. -/
  onward : Request
  /-- What came back to it. -/
  back : RequestParts × Outcome
  /-- What it gave back. -/
  result : RequestParts × Outcome

namespace Passage

/-- What the interceptor notes on the way to the transport. -/
def inward (p : Passage) : List Event := [.entered p.index p.request, .passedOn p.index p.onward]

/-- What the interceptor notes on the way back. -/
def outward (p : Passage) : List Event := [.cameBack p.index p.back, .gaveBack p.index p.result]

end Passage

/-- Where a request turns round. -/
inductive Turn where
  /-- At an interceptor that answers it itself. -/
  | link (index : Nat) (request : Request) (result : RequestParts × Outcome)
  /-- At the transport. -/
  | transport (delivery : Delivery)

namespace Turn

/-- The request that turns round. -/
def request : Turn → Request
  | link _ request _ => request
  | transport d => d.request

/-- What comes back from there. -/
def back : Turn → RequestParts × Outcome
  | link _ _ result => result
  | transport d => d.back

/-- What the hooks note there. -/
def events : Turn → List Event
  | link index request result => [.entered index request, .gaveBack index result]
  | transport d => d.events

/-- Behind the first `place` interceptors a request turns round at the next one, or at the transport
if there is none. -/
def StandsAt (t : Turn) (c : Client σ) (place : Nat) : Prop :=
  match t with
  | link index _ _ => index = place ∧ place < c.interceptors.length
  | transport d => place = c.interceptors.length ∧ d.Asks c

end Turn

/-- The way of a request through the chain. -/
structure Route where
  /-- The interceptors that passed the request on, in order. -/
  passages : List Passage
  /-- Where the request turned round. -/
  turn : Turn

namespace Route

/-- What the hooks note: inward in order, then where the request turns round, then outward in
reverse. -/
def events (r : Route) : List Event :=
  r.passages.flatMap Passage.inward ++ r.turn.events ++ r.passages.reverse.flatMap Passage.outward

/-- The route starts behind `passed` interceptors with the request `first` and ends there with
`last`. -/
structure Runs (r : Route) (c : Client σ) (passed : Nat) (first : Request)
    (last : RequestParts × Outcome) : Prop where
  /-- The interceptors are entered in order, without a gap. -/
  order : r.passages.map Passage.index = List.range' passed r.passages.length
  /-- The request turns round at the next interceptor, or at the transport if all passed it on. -/
  turn_at : r.turn.StandsAt c (passed + r.passages.length)
  /-- Each place gets the request that the one before it passed on. -/
  inward : r.passages.map Passage.request ++ [r.turn.request] =
    first :: r.passages.map Passage.onward
  /-- Each interceptor sees what the one behind it gave back. -/
  outward : r.passages.map Passage.result ++ [r.turn.back] = last :: r.passages.map Passage.back

/-- A request that turns round at once. -/
theorem runs_nil {c : Client σ} {passed : Nat} {t : Turn} (h : t.StandsAt c passed) :
    Runs ⟨[], t⟩ c passed t.request t.back :=
  { order := rfl, turn_at := h, inward := rfl, outward := rfl }

/-- One more interceptor in front of a route. -/
theorem Runs.cons {passages : List Passage} {t : Turn} {c : Client σ} {p : Passage}
    (h : Runs ⟨passages, t⟩ c (p.index + 1) p.onward p.back) :
    Runs ⟨p :: passages, t⟩ c p.index p.request p.result where
  order := by rw [List.map_cons, h.order, List.length_cons, List.range'_succ]
  turn_at := by
    rw [List.length_cons, Nat.add_comm passages.length 1, ← Nat.add_assoc]
    exact h.turn_at
  inward := congrArg (p.request :: ·) h.inward
  outward := congrArg (p.result :: ·) h.outward

/-- What the route gives back to the place in front of it. -/
def result (r : Route) : RequestParts × Outcome :=
  match r.passages with
  | [] => r.turn.back
  | p :: _ => p.result

/-- An error that comes out of the inner part of a route is the end of the call if no interceptor of
the outer part replaces it. -/
theorem error_unchanged {t : Turn} {e : ClientError} {inner : List Passage}
    (herr : (result ⟨inner, t⟩).2 = .error e) :
    ∀ {outer : List Passage} {last : RequestParts × Outcome},
      (outer ++ inner).map Passage.result ++ [t.back] = last :: (outer ++ inner).map Passage.back →
      (∀ p ∈ outer, p.back.2 = .error e → p.result.2 = .error e) → last.2 = .error e := by
  -- By induction on the outer part: what comes out of it came back to its first interceptor.
  intro outer
  induction outer with
  | nil =>
      intro last hout _
      cases inner with
      | nil => exact (List.cons.inj hout).1 ▸ herr
      | cons p rest => exact (List.cons.inj hout).1 ▸ herr
  | cons p rest ih =>
      intro last hout hpass
      obtain ⟨hlast, hrest⟩ := List.cons.inj hout
      rw [← hlast]
      exact hpass p List.mem_cons_self
        (ih hrest fun q hq => hpass q (List.mem_cons_of_mem _ hq))

theorem events_ne_nil (r : Route) : r.events ≠ [] := by
  have hturn : r.turn.events ≠ [] := by cases r.turn <;> simp [Turn.events, Delivery.events]
  simp [events, hturn]

theorem events_cons (p : Passage) (passages : List Passage) (t : Turn) :
    events ⟨p :: passages, t⟩ = .entered p.index p.request :: .passedOn p.index p.onward ::
      (events ⟨passages, t⟩ ++ [.cameBack p.index p.back, .gaveBack p.index p.result]) := by
  simp [events, Passage.inward, Passage.outward]

end Route

/-! ### The chain -/

/-- The chain under observation, one interceptor unfolded. -/
theorem runChain_watched_cons (c : Client σ) (calls passed : Nat) (hook : Interceptor σ)
    (rest : List (Interceptor (Observed σ))) (parts : RequestParts) (body : Bytes) :
    (c.watched calls).runChain passed (hook.watched passed :: rest) parts body = (do
      note (.entered passed ⟨parts, .ofBytes body⟩)
      match ← watch (hook.intercept ⟨passed + 1, c.interceptors.length⟩ parts body) with
      | .answer parts outcome =>
        note (.gaveBack passed (parts, outcome))
        return (parts, outcome)
      | .forward parts body resume =>
        note (.passedOn passed ⟨parts, .ofBytes body⟩)
        let back ← (c.watched calls).runChain (passed + 1) rest parts body
        note (.cameBack passed back)
        let back ← watch (resume back.1 back.2)
        note (.gaveBack passed back)
        return back) := by
  rw [Client.runChain]
  have hlen : (c.watched calls).interceptors.length = c.interceptors.length := by
    simp [Client.watched]
  simp only [Interceptor.watched, hlen, bind_assoc]
  -- Both sides note the entry and take the decision; what they do then depends on it.
  congr 1
  funext _
  congr 1
  funext decision
  cases decision <;> simp [Interception.watched]

/-- Behind all interceptors the route is the transport alone. -/
theorem callTransport_runs (c : Client σ) (calls : Nat) (parts : RequestParts) (body : RequestBody)
    {passed : Nat} (h : passed = c.interceptors.length) :
    Tells ((c.watched calls).callTransport parts body) (c.callTransport parts body)
      fun back told => ∃ route : Route, route.Runs c passed ⟨parts, body⟩ back
        ∧ told = route.events := by
  refine (callTransport_tells c calls parts body).mono ?_
  rintro _ _ ⟨d, hd, hasks, rfl, rfl⟩
  refine ⟨⟨[], .transport d⟩, ?_, by simp [Route.events, Turn.events]⟩
  rw [← hd]
  exact Route.runs_nil ⟨h, hasks⟩

/-- A request runs along a route through the interceptors `hooks`, which are the last ones. -/
theorem runChain_tells (c : Client σ) (calls : Nat) (hooks : List (Interceptor σ)) :
    ∀ (passed : Nat) (parts : RequestParts) (body : Bytes),
      passed + hooks.length = c.interceptors.length →
      Tells ((c.watched calls).runChain passed ((hooks.zipIdx passed).map fun h => h.1.watched h.2)
          parts body)
        (c.runChain passed hooks parts body) fun back told =>
          ∃ route : Route, route.Runs c passed ⟨parts, .ofBytes body⟩ back
            ∧ told = route.events := by
  induction hooks with
  | nil =>
      intro passed parts body hlen
      exact callTransport_runs c calls parts (.ofBytes body) hlen
  | cons hook rest ih =>
      intro passed parts body hlen
      rw [List.length_cons] at hlen
      rw [List.zipIdx_cons, List.map_cons, runChain_watched_cons, Client.runChain]
      refine (Tells.note _ (tells_watch_bind (P := fun back told => ∃ route : Route,
        route.Runs c passed ⟨parts, .ofBytes body⟩ back
          ∧ .entered passed ⟨parts, .ofBytes body⟩ :: told = route.events) ?_)).mono ?_
      · intro decision
        cases decision with
        | answer parts' outcome =>
            -- The request turns round here, and nothing behind this interceptor is run.
            refine (Tells.note _ (tells_pure (P := fun back told =>
              back = (parts', outcome) ∧ told = []) ⟨rfl, rfl⟩)).mono ?_
            rintro _ _ ⟨_, rfl, rfl, rfl⟩
            exact ⟨⟨[], .link passed ⟨parts, .ofBytes body⟩ (parts', outcome)⟩,
              Route.runs_nil ⟨rfl, by omega⟩, rfl⟩
        | forward parts' body' resume =>
            -- The rest has a route of its own, and this interceptor goes in front of it.
            refine (Tells.note _ (Tells.bind (ih (passed + 1) parts' body' (by omega)) fun back =>
              Tells.note (.cameBack passed back)
                (tells_watch_note (resume back.1 back.2) (.gaveBack passed)))).mono ?_
            rintro last _ ⟨_, rfl, back, _, _, rfl, ⟨route, hroute, rfl⟩, _, rfl, rfl⟩
            refine ⟨⟨⟨passed, ⟨parts, .ofBytes body⟩, ⟨parts', .ofBytes body'⟩, back, last⟩
              :: route.passages, route.turn⟩, Route.Runs.cons hroute, ?_⟩
            rw [Route.events_cons]
      · rintro back _ ⟨told, rfl, route, hroute, htold⟩
        exact ⟨route, hroute, htold⟩

/-! ### Sending a built request -/

/-- The body as interceptors and the transport get it: in memory if there is an interceptor. -/
def Client.handedBody (c : Client σ) (body : RequestBody) : ReadResult RequestBody :=
  if c.interceptors.isEmpty then .ok body else body.toBytes.map .ofBytes

/-- A request runs through the initializers, which take it through `states`, and then along
`route`. -/
structure Client.RunsThrough (c : Client σ) (parts : RequestParts) (body : RequestBody)
    (states : List RequestParts) (route : Route) (back : RequestParts × Outcome)
    (told : List Event) : Prop where
  /-- Every initializer runs once. -/
  initialized : states.length = c.initializers.length
  /-- The route starts with what the last initializer left. -/
  runs : route.Runs c 0 ⟨states.getLastD parts, body⟩ back
  /-- The initializers come before everything else, and nothing else runs. -/
  told_eq : told = initializations 0 parts states ++ route.events

/-- How a built request is sent. A body that cannot be read into memory for the interceptors ends
the call behind the initializers. -/
def Client.Sends (c : Client σ) (parts : RequestParts) (body : RequestBody)
    (back : RequestParts × Outcome) (told : List Event) : Prop :=
  match c.handedBody body with
  | .ok handed => ∃ states route, c.RunsThrough parts handed states route back told
  | .error e => ∃ states : List RequestParts, states.length = c.initializers.length
      ∧ told = initializations 0 parts states ∧ back = (states.getLastD parts, .error (.ofIo e))

theorem execute_tells (c : Client σ) (calls : Nat) (parts : RequestParts) (body : RequestBody) :
    Tells ((c.watched calls).execute parts body) (c.execute parts body) (c.Sends parts body) := by
  -- Whether the body is read depends on the number of interceptors, which watching keeps.
  have hempty : (c.watched calls).interceptors.isEmpty = c.interceptors.isEmpty := by
    rw [Bool.eq_iff_iff]
    simp [Client.watched]
  unfold Client.execute
  refine (Tells.bind (Q := fun prepared back told => match c.handedBody body with
    | .ok handed => ∃ route : Route, route.Runs c 0 ⟨prepared, handed⟩ back ∧ told = route.events
    | .error e => told = [] ∧ back = (prepared, .error (.ofIo e)))
    (applyInitializers_tells c.initializers 0 parts) ?_).mono ?_
  · intro prepared
    rw [hempty, Client.handedBody]
    by_cases h : c.interceptors.isEmpty = true
    · rw [if_pos h, if_pos h, if_pos h]
      exact callTransport_runs c calls prepared body (List.isEmpty_iff_length_eq_zero.1 h).symm
    · rw [if_neg h, if_neg h, if_neg h]
      cases body.toBytes with
      | error e => exact tells_pure ⟨rfl, rfl⟩
      | ok bytes => exact runChain_tells c calls c.interceptors 0 prepared bytes (Nat.zero_add _)
  · rintro back _ ⟨prepared, _, rest, rfl, ⟨states, hlen, rfl, rfl⟩, hrest⟩
    unfold Client.Sends
    cases hbody : c.handedBody body with
    | error e =>
        rw [hbody] at hrest
        exact ⟨states, hlen, by rw [hrest.1, List.append_nil], hrest.2⟩
    | ok handed =>
        rw [hbody] at hrest
        obtain ⟨route, hroute, rfl⟩ := hrest
        exact ⟨states, route, hlen, hroute, rfl⟩

/-- A reply is the response that came back, with the codecs of the client. -/
theorem send_tells (c : Client σ) (calls : Nat) (request : Prepared) :
    Tells ((c.watched calls).send request) (c.send request) fun back told =>
      ∃ outcome : Outcome, back.2 = outcome.map (fun response => { response, codecs := c.codecs })
        ∧ c.Sends request.1 request.2 (back.1, outcome) told := by
  unfold Client.send
  refine (Tells.bind (execute_tells c calls request.1 request.2) fun back => tells_pure
    (P := fun given told => given = (back.1, back.2.map fun response =>
      { response, codecs := c.codecs }) ∧ told = []) ⟨rfl, rfl⟩).mono ?_
  rintro _ _ ⟨back, told, _, rfl, hsends, rfl, rfl⟩
  rw [List.append_nil]
  exact ⟨back.2, rfl, hsends⟩

/-- **The hooks run in order.** Every initializer runs once, before anything else. Then the request
runs along a route through the interceptors, to the first one that answers it itself or to the
transport, and back in reverse order. An error that comes out of an inner part of the route is the
end of the call if no interceptor further out replaces it. If there are interceptors and the body
cannot be read into memory for them, the call ends behind the initializers. -/
theorem execute_runs_in_order (c : Client σ) (calls : Nat) (parts : RequestParts)
    (body : RequestBody) :
    Tells ((c.watched calls).execute parts body) (c.execute parts body) fun back told =>
      match c.handedBody body with
      | .ok handed => ∃ states route, c.RunsThrough parts handed states route back told
          ∧ ∀ (outer inner : List Passage) (e : ClientError), route.passages = outer ++ inner →
            (Route.result ⟨inner, route.turn⟩).2 = .error e →
            (∀ p ∈ outer, p.back.2 = .error e → p.result.2 = .error e) → back.2 = .error e
      | .error e => ∃ states : List RequestParts, states.length = c.initializers.length
          ∧ told = initializations 0 parts states
          ∧ back = (states.getLastD parts, .error (.ofIo e)) := by
  refine (execute_tells c calls parts body).mono ?_
  intro back told hsends
  unfold Client.Sends at hsends
  cases hbody : c.handedBody body with
  | error e => rwa [hbody] at hsends
  | ok handed =>
      rw [hbody] at hsends
      obtain ⟨states, route, hruns⟩ := hsends
      refine ⟨states, route, hruns, ?_⟩
      intro outer inner e hsplit herr
      exact Route.error_unchanged herr (hsplit ▸ hruns.runs.outward)

/-- The interceptor that changes nothing. -/
def Interceptor.passOn : Interceptor σ where
  intercept _ parts body := pure (.forward parts body fun parts outcome => pure (parts, outcome))

/-- A client over a transport that answers every request, with an interceptor that changes
nothing. -/
def Client.relay : Client Unit where
  transport := { name := "relay", call := fun request => pure (request, .ok {}) }
  interceptors := [.passOn]
  codecs := []

/-- A body that cannot be read. -/
def RequestBody.broken : RequestBody :=
  .stream [{ rest := [], failure := some (0, .invalidText) }] none

/-- With an interceptor ahead, a request whose body cannot be read runs along no route at all:
neither the interceptor nor the transport gets it. -/
theorem broken_body_runs_through_nothing :
    ¬ Tells ((Client.relay.watched 0).execute {} .broken) (Client.relay.execute {} .broken)
      fun back told => ∃ handed states route,
        Client.relay.RunsThrough {} handed states route back told := by
  intro h
  obtain ⟨told, hrun, handed, states, route, hruns⟩ := h { world := () } []
  -- The run notes nothing, but a route always has a place where it turns round.
  have hnone : [] = [] ++ told := congrArg (fun r => r.2.world.events) hrun
  rw [List.nil_append] at hnone
  have hevents := hruns.told_eq
  rw [← hnone] at hevents
  exact route.events_ne_nil (List.append_eq_nil_iff.1 hevents.symm).2

end ApiClient
