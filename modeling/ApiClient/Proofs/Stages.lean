import ApiClient.Proofs.StatusPolicy

/-!
# ApiClient.Proofs.Stages

Which stage decides a call.

A call builds its request, runs the initializers, reads the body if there are interceptors, sends
the request, and finishes with the response. `Client.Proceeds` has a case for each stage that can be
the first to fail, and one for a call that finishes; each case gives the result and all that the
hooks note, so a stage behind the failing one is seen not to run.

Interceptors, transport and buffering are no stages in a row. A failure of the transport goes back
through the interceptors like any outcome, and any of them may put a response in its place.
-/

namespace ApiClient

variable {σ α β : Type}

open Call

/-! ### Ways to end a retrieval -/

/-- The functions that send a retrieval and take what comes back. -/
inductive Terminal : Type → Type 1 where
  /-- The decoded body. -/
  | body (target : Expectation) : Terminal (Option Json)
  /-- The body. -/
  | bytes : Terminal Bytes
  /-- The body as text. -/
  | text : Terminal String
  /-- The decoded body with status and headers. -/
  | entity (target : Expectation) : Terminal (Entity (Option Json))
  /-- Status and headers. -/
  | bodilessEntity : Terminal (Entity Unit)

namespace Terminal

/-- Sends the retrieval. -/
def run (r : Retrieval σ) : {α : Type} → Terminal α → Call σ (Except ClientError α)
  | _, body target => r.body target
  | _, bytes => r.bodyBytes
  | _, text => r.bodyText
  | _, entity target => r.entity target
  | _, bodilessEntity => r.bodilessEntity

/-- What is made of a reply that the status policy lets through. -/
def decode (reply : Reply) : {α : Type} → Terminal α → Except ClientError α
  | _, body target => (reply.decode target).1
  | _, bytes => reply.readBytes.1
  | _, text => reply.readText.1
  | _, entity target => (reply.decode target).1.map fun body =>
      { status := reply.response.status, headers := reply.response.headers, body }
  | _, bodilessEntity => reply.readBytes.1.map fun _ =>
      { status := reply.response.status, headers := reply.response.headers, body := () }

/-- Every terminal decodes what retrieving gives, and runs no hook of its own. -/
theorem run_tells {watched : Retrieval (Observed σ)} {plain : Retrieval σ}
    {P : Except ClientError Reply → List Event → Prop} (h : Tells watched.reply plain.reply P)
    (t : Terminal α) :
    Tells (t.run watched) (t.run plain) fun result told =>
      ∃ got, P got told ∧ result = got.bind fun reply => t.decode reply := by
  have hbind : ∀ {γ : Type} (f : Reply → Except ClientError γ),
      Tells (do return (← watched.reply).bind f) (do return (← plain.reply).bind f)
        fun result told => ∃ got, P got told ∧ result = got.bind f := by
    intro γ f
    refine (Tells.bind h fun got => tells_pure (P := fun result told =>
      result = got.bind f ∧ told = []) ⟨rfl, rfl⟩).mono ?_
    rintro _ _ ⟨got, told, _, rfl, hP, rfl, rfl⟩
    exact ⟨got, by rwa [List.append_nil], rfl⟩
  -- All terminals but the last are a bind; the last one writes a record on the way.
  cases t with
  | body target => exact hbind _
  | bytes => exact hbind _
  | text => exact hbind _
  | entity target => exact hbind _
  | bodilessEntity =>
      refine (Tells.bind h (Q := fun got result told =>
        result = (got.bind fun reply => bodilessEntity.decode reply) ∧ told = []) ?_).mono ?_
      · intro got
        cases got with
        | error e => exact tells_pure ⟨rfl, rfl⟩
        | ok reply =>
            simp only [Except.bind, decode]
            cases reply.readBytes.1 with
            | error e => exact tells_pure ⟨rfl, rfl⟩
            | ok bytes => exact tells_log_bind (tells_pure ⟨rfl, rfl⟩)
      · rintro _ _ ⟨got, told, _, rfl, hP, rfl, rfl⟩
        exact ⟨got, by rwa [List.append_nil], rfl⟩

end Terminal

/-! ### Stages -/

/-- How a call with the request `request` goes on: the first stage that fails decides the result,
and `finish` says what becomes of a reply if none does. -/
inductive Client.Proceeds (c : Client σ) (request : Except ClientError Prepared)
    (finish : RequestParts → Reply → Except ClientError α → List Event → Prop) :
    Except ClientError α → List Event → Prop where
  /-- The request was not built. -/
  | building (e : ClientError) (hrequest : request = .error e) :
      Proceeds c request finish (.error e) []
  /-- There are interceptors, and the body cannot be read into memory for them. -/
  | reading (parts : RequestParts) (body : RequestBody) (states : List RequestParts) (e : IoError)
      (hrequest : request = .ok (parts, body)) (hread : c.handedBody body = .error e)
      (hinit : states.length = c.initializers.length) :
      Proceeds c request finish (.error ⟨.localIo, .io e, none⟩) (initializations 0 parts states)
  /-- An error came back from the interceptors and the transport. -/
  | sending (parts : RequestParts) (body handed : RequestBody) (states : List RequestParts)
      (route : Route) (left : RequestParts) (e : ClientError) (sent : List Event)
      (hrequest : request = .ok (parts, body)) (hread : c.handedBody body = .ok handed)
      (hruns : c.RunsThrough parts handed states route (left, .error e) sent) :
      Proceeds c request finish (.error e) sent
  /-- A response came back from the interceptors and the transport. -/
  | finishing (parts : RequestParts) (body handed : RequestBody) (states : List RequestParts)
      (route : Route) (left : RequestParts) (response : Response) (sent rest : List Event)
      (result : Except ClientError α)
      (hrequest : request = .ok (parts, body)) (hread : c.handedBody body = .ok handed)
      (hruns : c.RunsThrough parts handed states route (left, .ok response) sent)
      (hfinish : finish left { response, codecs := c.codecs } result rest) :
      Proceeds c request finish result (sent ++ rest)

/-- Sending a request and going on with the reply. The result stands in a value of type `β`. -/
def Client.sendThen (c : Client σ) (request : Except ClientError Prepared)
    (wrap : Except ClientError α → β) (next : RequestParts → Reply → Call σ β) : Call σ β := do
  match request with
  | .error e => return wrap (.error e)
  | .ok request =>
    match ← c.send request with
    | (_, .error e) => return wrap (.error e)
    | (parts, .ok reply) => next parts reply

/-- How it goes on behind the sending: an error is the result, and a reply is finished with. -/
abbrev GoesOn (wrap : Except ClientError α → β)
    (finish : RequestParts → Reply → Except ClientError α → List Event → Prop)
    (sent : RequestParts × Except ClientError Reply) (back : β) (told : List Event) : Prop :=
  match sent.2 with
  | .error e => back = wrap (.error e) ∧ told = []
  | .ok reply => ∃ result, back = wrap result ∧ finish sent.1 reply result told

theorem sendThen_tells (c : Client σ) (calls : Nat) (request : Except ClientError Prepared)
    (wrap : Except ClientError α → β)
    (finish : RequestParts → Reply → Except ClientError α → List Event → Prop)
    (watchedNext : RequestParts → Reply → Call (Observed σ) β)
    (next : RequestParts → Reply → Call σ β)
    (hnext : ∀ parts reply, Tells (watchedNext parts reply) (next parts reply) fun back told =>
      ∃ result, back = wrap result ∧ finish parts reply result told) :
    Tells ((c.watched calls).sendThen request wrap watchedNext) (c.sendThen request wrap next)
      fun back told => ∃ result, back = wrap result ∧ c.Proceeds request finish result told := by
  unfold Client.sendThen
  cases hrequest : request with
  | error e => exact tells_pure ⟨.error e, rfl, .building e rfl⟩
  | ok built =>
      obtain ⟨parts, body⟩ := built
      refine (Tells.bind (send_tells c calls (parts, body)) (Q := GoesOn wrap finish) ?_).mono ?_
      · rintro ⟨left, e | reply⟩
        · exact tells_pure ⟨rfl, rfl⟩
        · exact hnext left reply
      · rintro back _ ⟨⟨left, got⟩, sent, rest, rfl, ⟨outcome, rfl, hsends⟩, hrest⟩
        unfold Client.Sends at hsends
        -- The stage that failed shows in what was read and in what came back.
        cases hread : c.handedBody body with
        | error e =>
            rw [hread] at hsends
            obtain ⟨states, hinit, rfl, hback⟩ := hsends
            obtain ⟨-, rfl⟩ := Prod.mk.inj hback
            obtain ⟨rfl, rfl⟩ := hrest
            rw [List.append_nil]
            exact ⟨_, rfl, .reading parts body states e rfl hread hinit⟩
        | ok handed =>
            rw [hread] at hsends
            obtain ⟨states, route, hruns⟩ := hsends
            cases outcome with
            | error e =>
                obtain ⟨rfl, rfl⟩ := hrest
                rw [List.append_nil]
                exact ⟨_, rfl, .sending parts body handed states route left e sent rfl hread hruns⟩
            | ok response =>
                obtain ⟨result, rfl, hfinish⟩ := hrest
                exact ⟨result, rfl,
                  .finishing parts body handed states route left response sent rest result rfl
                    hread hruns hfinish⟩

theorem prepare_tells (c : Client σ) (calls : Nat) (d : Draft) :
    Tells ((c.watched calls).prepare d) (c.prepare d) fun back told =>
      back = c.build d ∧ told = [] := by
  unfold Client.prepare
  -- Building looks at no hook of the client.
  have hbuild : (c.watched calls).build d = c.build d := rfl
  rw [hbuild]
  rcases c.build d with ⟨_ | ⟨parts, body⟩, left⟩
  · exact tells_pure ⟨rfl, rfl⟩
  · exact tells_log_bind (tells_pure ⟨rfl, rfl⟩)

/-! ### Retrieving -/

theorem reply_tells (r : Retrieval σ) :
    Tells r.watched.reply r.reply (r.client.Proceeds r.request
      (StatusPolicy (r.handlers ++ r.client.statusHandlers).length)) := by
  refine (sendThen_tells r.client r.handlers.length r.request id
    (StatusPolicy (r.handlers ++ r.client.statusHandlers).length)
    (fun parts reply => do
      let back ← reply.handleStatus (r.watched.handlers ++ r.watched.client.statusHandlers) parts
      return back.2.map fun _ => back.1)
    (fun parts reply => do
      let back ← reply.handleStatus (r.handlers ++ r.client.statusHandlers) parts
      return back.2.map fun _ => back.1) ?_).mono ?_
  · intro parts reply
    rw [r.watched_handlers]
    refine (Tells.bind (reply.handleStatus_tells (r.handlers ++ r.client.statusHandlers) parts)
      fun back => tells_pure (P := fun result told =>
        result = (back.2.map fun _ => back.1) ∧ told = []) ⟨rfl, rfl⟩).mono ?_
    rintro _ _ ⟨back, told, _, rfl, hpolicy, rfl, rfl⟩
    exact ⟨_, rfl, by rwa [List.append_nil]⟩
  · rintro _ told ⟨result, rfl, hproceeds⟩
    exact hproceeds

/-- Builds the request of a draft for retrieval, adds handlers of the call, and ends the
retrieval. -/
def Client.fetch (c : Client σ) (d : Draft) (handlers : List (StatusHandler σ)) (t : Terminal α) :
    Call σ (Except ClientError α) := do
  let (r, _) ← c.retrieve d
  t.run (handlers.foldl Retrieval.onStatus r)

theorem foldl_onStatus (handlers : List (StatusHandler σ)) :
    ∀ r : Retrieval σ,
      handlers.foldl Retrieval.onStatus r = { r with handlers := r.handlers ++ handlers } := by
  induction handlers with
  | nil => intro r; rw [List.append_nil]; rfl
  | cons handler rest ih =>
      intro r
      rw [List.foldl_cons, ih]
      simp [Retrieval.onStatus]

theorem fetch_eq (c : Client σ) (d : Draft) (handlers : List (StatusHandler σ)) (t : Terminal α) :
    c.fetch d handlers t = (do
      let back ← c.prepare d
      t.run { client := c, request := back.1, handlers }) := by
  unfold Client.fetch Client.retrieve
  rw [bind_assoc]
  congr 1
  funext back
  simp [foldl_onStatus]

theorem fetch_tells (c : Client σ) (d : Draft) (handlers : List (StatusHandler σ))
    (t : Terminal α) :
    Tells ((c.watched handlers.length).fetch d (watchHandlers 0 handlers) t) (c.fetch d handlers t)
      fun result told => ∃ got, result = got.bind (fun reply => t.decode reply)
        ∧ c.Proceeds (c.build d).1 (StatusPolicy (handlers ++ c.statusHandlers).length) got
          told := by
  rw [fetch_eq, fetch_eq]
  refine (Tells.bind (prepare_tells c handlers.length d) fun back =>
    Terminal.run_tells (reply_tells { client := c, request := back.1, handlers }) t).mono ?_
  rintro _ _ ⟨back, _, told, rfl, ⟨rfl, rfl⟩, got, hproceeds, rfl⟩
  exact ⟨got, rfl, hproceeds⟩

/-! ### Exchanging -/

/-- What the handler of an exchange makes of a reply: it gets the reply from its start, and its own
error counts as one of the exchange unless it is one of a call. -/
def Exchanged (handler : RequestParts → Reply → Call σ (Reply × Except Failure α))
    (parts : RequestParts) (reply : Reply) (result : Except ClientError α)
    (told : List Event) : Prop :=
  told = [.exchanged parts reply.rewind.2] ∧ ∃ j : Journal σ,
    result = (handler parts reply.rewind.2 j).1.2.mapError (Failure.toError .exchange)

theorem watchExchange_tells (handler : RequestParts → Reply → Call σ (Reply × Except Failure α))
    (parts : RequestParts) (reply : Reply) :
    Tells (watchExchange handler parts reply) (handler parts reply) fun back told =>
      told = [.exchanged parts reply] ∧ ∃ j, back = (handler parts reply j).1 :=
  fun j _ => ⟨_, rfl, rfl, j, rfl⟩

theorem exchange_tells (c : Client σ) (calls : Nat)
    (handler : RequestParts → Reply → Call σ (Reply × Except Failure α)) (d : Draft) :
    Tells ((c.watched calls).exchange (watchExchange handler) d) (c.exchange handler d)
      fun back told => back.2 = (c.build d).2
        ∧ c.Proceeds (c.build d).1 (Exchanged handler) back.1 told := by
  unfold Client.exchange
  refine (Tells.bind (prepare_tells c calls d) fun built =>
    sendThen_tells c calls built.1 (·, built.2) (Exchanged handler)
      (fun parts reply => do
        let back ← watchExchange handler parts reply.rewind.2
        return (back.2.mapError (Failure.toError .exchange), built.2))
      (fun parts reply => do
        let back ← handler parts reply.rewind.2
        return (back.2.mapError (Failure.toError .exchange), built.2)) ?_).mono ?_
  · intro parts reply
    refine (Tells.bind (watchExchange_tells handler parts reply.rewind.2) fun back => tells_pure
      (P := fun given told => given = (back.2.mapError (Failure.toError .exchange), built.2)
        ∧ told = []) ⟨rfl, rfl⟩).mono ?_
    rintro _ _ ⟨_, _, _, rfl, ⟨rfl, j, rfl⟩, rfl, rfl⟩
    exact ⟨_, rfl, rfl, j, rfl⟩
  · rintro _ _ ⟨built, _, told, rfl, ⟨rfl, rfl⟩, result, rfl, hproceeds⟩
    exact ⟨rfl, hproceeds⟩

/-! ### The deciding stage -/

/-- No interceptor of the route puts anything in the place of an error that comes back to it. -/
def Route.KeepsErrors (r : Route) : Prop :=
  ∀ p ∈ r.passages, ∀ e, p.back.2 = .error e → p.result.2 = .error e

/-- An error with which the request turned round is the end of a sending whose route keeps
errors. -/
theorem Client.RunsThrough.error_kept {c : Client σ} {parts : RequestParts} {handed : RequestBody}
    {states : List RequestParts} {route : Route} {back : RequestParts × Outcome} {told : List Event}
    (hruns : c.RunsThrough parts handed states route back told) (hkeeps : route.KeepsErrors)
    {e : ClientError} (herror : route.turn.back.2 = .error e) : back.2 = .error e := by
  -- The whole route is the outer part, and the place where it turns round the inner one.
  have hinner : (Route.result ⟨[], route.turn⟩).2 = .error e := herror
  have hout := hruns.runs.outward
  rw [← List.append_nil route.passages] at hout
  exact Route.error_unchanged hinner hout fun p hp => hkeeps p hp e

/-- A failed call of the transport fails with the transport's kind and cause. -/
theorem Delivery.outcome_of_error {d : Delivery} {e : TransportError} (h : d.answer = .error e) :
    d.outcome = .error ⟨.transport e.kind, e.toCause, none⟩ := by
  rw [outcome, h]
  rfl

/-- A response that cannot be moved into memory fails as local input. -/
theorem Delivery.outcome_of_buffer_error {d : Delivery} {response : Response} {e : IoError}
    (hanswer : d.answer = .ok response) (hbuffers : d.buffers = some true)
    (hfail : response.body.buffer.1 = .error e) : d.outcome = .error ⟨.localIo, .io e, none⟩ := by
  rw [outcome, hanswer]
  dsimp only
  rw [if_pos hbuffers, Response.buffered]
  rcases hbuffer : response.body.buffer with ⟨e' | _, body⟩
  · rw [hbuffer] at hfail
    obtain rfl : e' = e := Except.error.inj hfail
    rfl
  · rw [hbuffer] at hfail
    cases hfail

/-- The policy is not asked about a failed call of the transport. -/
theorem Delivery.Asks.buffers_eq_none {d : Delivery} {c : Client σ} (h : d.Asks c)
    {e : TransportError} (hanswer : d.answer = .error e) : d.buffers = none := by
  have hnone : d.buffers.isSome = false := by
    rw [h, hanswer, Except.isOk, Except.toBool, Bool.and_false]
  rwa [Option.isSome_eq_false_iff, Option.isNone_iff_eq_none] at hnone

/-- **The first failing stage decides a call.** This holds for every way to end a retrieval and for
exchanges. Where the route keeps errors, a failure of the transport or of buffering is the failure
of the sending. -/
theorem first_failure_decides (c : Client σ) (d : Draft) :
    (∀ {α : Type} (handlers : List (StatusHandler σ)) (t : Terminal α),
        Tells ((c.watched handlers.length).fetch d (watchHandlers 0 handlers) t)
          (c.fetch d handlers t)
          fun result told => ∃ got, result = got.bind (fun reply => t.decode reply)
            ∧ c.Proceeds (c.build d).1 (StatusPolicy (handlers ++ c.statusHandlers).length)
              got told)
      ∧ (∀ {α : Type} (calls : Nat)
          (handler : RequestParts → Reply → Call σ (Reply × Except Failure α)),
        Tells ((c.watched calls).exchange (watchExchange handler) d) (c.exchange handler d)
          fun back told => c.Proceeds (c.build d).1 (Exchanged handler) back.1 told)
      ∧ ∀ (parts : RequestParts) (handed : RequestBody) (states : List RequestParts) (route : Route)
          (back : RequestParts × Outcome) (told : List Event) (delivery : Delivery),
        c.RunsThrough parts handed states route back told → route.KeepsErrors →
        route.turn = .transport delivery →
          (∀ e, delivery.answer = .error e →
            back.2 = .error ⟨.transport e.kind, e.toCause, none⟩ ∧ delivery.buffers = none)
          ∧ ∀ response e, delivery.answer = .ok response → delivery.buffers = some true →
            response.body.buffer.1 = .error e → back.2 = .error ⟨.localIo, .io e, none⟩ := by
  refine ⟨fun handlers t => fetch_tells c d handlers t, fun calls handler =>
    (exchange_tells c calls handler d).mono fun _ _ h => h.2, ?_⟩
  intro parts handed states route back told delivery hruns hkeeps hturn
  have hasks := hruns.runs.turn_at
  rw [hturn] at hasks
  refine ⟨fun e hanswer => ⟨hruns.error_kept hkeeps ?_, hasks.2.buffers_eq_none hanswer⟩,
    fun response e hanswer hbuffers hfail => hruns.error_kept hkeeps ?_⟩
  · rw [hturn]
    exact Delivery.outcome_of_error hanswer
  · rw [hturn]
    exact Delivery.outcome_of_buffer_error hanswer hbuffers hfail

/-- The interceptor that puts an empty success in the place of whatever comes back. -/
def Interceptor.forgive : Interceptor σ where
  intercept _ parts body := pure (.forward parts body fun parts _ => pure (parts, .ok {}))

/-- The failure of a transport that reaches no server. -/
def TransportError.unreachable : TransportError := ⟨.connectError, none, .message "unreachable"⟩

/-- A client over a transport that reaches no server, with an interceptor that hides it. -/
def Client.forgiving : Client Unit where
  transport := { name := "offline", call := fun request => pure (request, .error .unreachable) }
  interceptors := [.forgive]
  codecs := []

/-- A request for the root of a host. -/
def Draft.root : Draft := { method := .get, uri := .template "http://h" .none }

/-- Whether the event is a failed call of the transport. -/
def Event.isFailure : Event → Bool
  | .answered _ (.error _) => true
  | _ => false

/-- A failure of the transport that an interceptor replaces does not decide the call: the status is
handled and the body is decoded as if the transport had answered. -/
theorem replaced_failure_decides_nothing :
    ¬ Tells ((Client.forgiving.watched 0).fetch .root [] .bytes)
      (Client.forgiving.fetch .root [] .bytes)
      fun result told => ∀ left e, .answered left (.error e) ∈ told →
        result = .error ⟨.transport e.kind, e.toCause, none⟩ := by
  -- Only the watched run shows that the transport failed; the result does not.
  have hfails : (((Client.forgiving.watched 0).fetch .root [] .bytes)
      (Journal.observe { world := () } [])).2.world.events.any Event.isFailure = true := by
    decide +kernel
  have hok : (Client.forgiving.fetch .root [] .bytes { world := () }).1.isOk = true := by
    decide +kernel
  intro h
  obtain ⟨told, hrun, hdecides⟩ := h { world := () } []
  rw [hrun] at hfails
  obtain ⟨event, hmem, hfailure⟩ := List.any_eq_true.1 hfails
  cases event with
  | answered left answer =>
      cases answer with
      | error e =>
          rw [hdecides left e hmem] at hok
          exact Bool.false_ne_true hok
      | ok response => cases hfailure
  | _ => cases hfailure

end ApiClient
