import ApiClient.Proofs.Stages

/-!
# ApiClient.Proofs.TransportCalls

How often a run calls the transport.

Whether a request reaches the transport depends on what the hooks decide, and so on the state in
which a run starts. `Client.Reaches` follows one request inward, one interceptor after the other,
and `Client.Delivers` is a run from a draft to a response that is buffered.

`Call.CallsAt j` is `Call.Tells` for the run from state `j` alone, with the calls of the transport
counted. It adds up over binds. Everything but the transport counts for nothing, so a request that
reaches the transport calls it once.
-/

namespace ApiClient

variable {σ α β : Type}

open Call

theorem Call.bind_apply (m : Call σ α) (next : α → Call σ β) (j : Journal σ) :
    (m >>= next) j = next (m j).1 (m j).2 := rfl

/-! ### The way to the transport -/

/-- From state `j` on, the interceptors `hooks`, behind `passed` others, take the request `first` to
the transport, which gets `request` in state `sent`. -/
inductive Client.Reaches (c : Client σ) : (passed : Nat) → (hooks : List (Interceptor σ)) →
    (first : Request) → (j : Journal σ) → (request : Request) → (sent : Journal σ) → Prop where
  /-- There is no interceptor left. -/
  | transport (passed : Nat) (request : Request) (j : Journal σ) :
      Reaches c passed [] request j request j
  /-- The next interceptor passes the request on. -/
  | passage {passed : Nat} {hook : Interceptor σ} {rest : List (Interceptor σ)}
      {parts : RequestParts}
      {body : Bytes} {j : Journal σ} {onward : RequestParts} {carried : Bytes}
      {resume : RequestParts → Outcome → Call σ (RequestParts × Outcome)} {decided : Journal σ}
      {request : Request} {sent : Journal σ}
      (hforward : hook.intercept ⟨passed + 1, c.interceptors.length⟩ parts body j =
        (.forward onward carried resume, decided))
      (hrest : Reaches c (passed + 1) rest ⟨onward, .ofBytes carried⟩ decided request sent) :
      Reaches c passed (hook :: rest) ⟨parts, .ofBytes body⟩ j request sent

/-- From state `j` on the transport answers the request with a response, the policy accepts what the
transport left of the request, and the body of the response is read without error. -/
inductive Client.Buffers (c : Client σ) (request : Request) (j : Journal σ) : Prop where
  /-- The transport answers behind a record of the request, and the policy is asked behind one of
  the response. -/
  | intro (left : Request) (response : Response) (answered : Journal σ)
      (hcall : c.transport.call request (log .debug (Client.lineText request.parts) j).2 =
        ((left, .ok response), answered))
      (haccepts : (c.buffers left.parts.url left.parts.method (log .debug
        s!"{Client.lineText left.parts} responded {response.status.shown}" answered).2).1 = true)
      (hbody : response.body.buffer.1 = .ok ())

/-- From state `j` on the request of the draft is built and reaches the transport, and the response
to it is buffered. -/
inductive Client.Delivers (c : Client σ) (d : Draft) (j : Journal σ) : Prop where
  /-- Behind the building come the initializers, and behind them the interceptors. -/
  | intro (parts ready : RequestParts) (body handed : RequestBody) (rest : Draft)
      (request : Request) (built prepared sent : Journal σ)
      (hbuild : c.prepare d j = ((.ok (parts, body), rest), built))
      (hinit : Client.applyInitializers c.initializers parts built = (ready, prepared))
      (hhanded : c.handedBody body = .ok handed)
      (hreaches : c.Reaches 0 c.interceptors ⟨ready, handed⟩ prepared request sent)
      (hbuffers : c.Buffers request sent)

namespace Client

variable {c : Client σ} {j : Journal σ}

/-- Gives a request to the interceptors `hooks`, behind `passed` others, or to the transport if
there are none. -/
def handOn (c : Client σ) (passed : Nat) (hooks : List (Interceptor σ)) (request : Request) :
    Call σ (RequestParts × Outcome) :=
  match hooks with
  | [] => c.callTransport request.parts request.body
  | hook :: rest => c.runChain passed (hook :: rest) request.parts (request.body.data?.getD [])

theorem runChain_eq_handOn (c : Client σ) (passed : Nat) (hooks : List (Interceptor σ))
    (parts : RequestParts) (body : Bytes) :
    c.runChain passed hooks parts body = c.handOn passed hooks ⟨parts, .ofBytes body⟩ := by
  cases hooks with
  | nil => rfl
  | cons hook rest => rfl

/-- Behind the initializers a request is handed on with a body as the interceptors need it. -/
theorem execute_eq_handOn {body handed : RequestBody} (h : c.handedBody body = .ok handed)
    (parts : RequestParts) :
    c.execute parts body = (do
      let ready ← applyInitializers c.initializers parts
      c.handOn 0 c.interceptors ⟨ready, handed⟩) := by
  unfold handedBody at h
  unfold execute
  cases hhooks : c.interceptors with
  | nil =>
      rw [hhooks] at h
      obtain rfl : body = handed := Except.ok.inj h
      rfl
  | cons hook rest =>
      rw [hhooks] at h
      cases hbytes : body.toBytes with
      | error e => rw [hbytes] at h; cases h
      | ok bytes =>
          rw [hbytes] at h
          obtain rfl : RequestBody.ofBytes bytes = handed := Except.ok.inj h
          rfl

/-- An interceptor that passes a request on sees what comes back from those behind it. -/
theorem handOn_forward {passed : Nat} {hook : Interceptor σ} {rest : List (Interceptor σ)}
    {parts onward : RequestParts} {body carried : Bytes} {decided : Journal σ}
    {resume : RequestParts → Outcome → Call σ (RequestParts × Outcome)}
    (hforward : hook.intercept ⟨passed + 1, c.interceptors.length⟩ parts body j =
      (.forward onward carried resume, decided)) :
    c.handOn passed (hook :: rest) ⟨parts, .ofBytes body⟩ j = (do
      let back ← c.handOn (passed + 1) rest ⟨onward, .ofBytes carried⟩
      resume back.1 back.2) decided := by
  rw [← runChain_eq_handOn, ← runChain_eq_handOn, runChain, bind_apply, hforward]

end Client

/-! ### Ways to end a retrieval -/

namespace Terminal

/-- What a terminal does with what retrieving gives. -/
def finish (got : Except ClientError Reply) :
    {α : Type} → Terminal α → Call σ (Except ClientError α)
  | _, body target => pure (got.bind fun reply => (reply.decode target).1)
  | _, bytes => pure (got.bind fun reply => reply.readBytes.1)
  | _, text => pure (got.bind fun reply => reply.readText.1)
  | _, entity target => pure (got.bind fun reply => (reply.decode target).1.map fun body =>
      { status := reply.response.status, headers := reply.response.headers, body })
  | _, bodilessEntity => do
    match got with
    | .error e => return .error e
    | .ok reply =>
      match reply.readBytes.1 with
      | .error e => return .error e
      | .ok whole =>
        log .debug s!"Discarded {whole.length} bytes of response body"
        return .ok
          { status := reply.response.status, headers := reply.response.headers, body := () }

theorem run_eq_finish (r : Retrieval σ) (t : Terminal α) : t.run r = (do t.finish (← r.reply)) := by
  cases t with
  | body target => rfl
  | bytes => rfl
  | text => rfl
  | entity target => rfl
  | bodilessEntity => rfl

end Terminal

/-! ### Calls of the transport -/

/-- Whether the transport got a request. -/
def Event.isCall : Event → Bool
  | .called _ => true
  | _ => false

namespace Call

/-- From this state on the watched computation does what the plain one does, and the transport is
called `n` times. -/
def CallsAt (j : Journal σ) (watched : Call (Observed σ) α) (plain : Call σ α) (n : Nat) : Prop :=
  ∀ events, ∃ told,
    watched (j.observe events) = ((plain j).1, (plain j).2.observe (events ++ told))
      ∧ told.countP Event.isCall = n

variable {watched : Call (Observed σ) α} {plain : Call σ α} {n m : Nat} {j : Journal σ}

theorem Tells.callsAt {P : α → List Event → Prop} (h : Tells watched plain P)
    (hP : ∀ a told, P a told → told.countP Event.isCall = n) (j : Journal σ) :
    CallsAt j watched plain n := by
  intro events
  obtain ⟨told, hrun, hcalls⟩ := h j events
  exact ⟨told, hrun, hP _ _ hcalls⟩

/-- A computation that tells nothing calls no transport. -/
theorem Tells.callsAt_zero {P : α → List Event → Prop} (h : Tells watched plain P)
    (hP : ∀ a told, P a told → told = []) (j : Journal σ) : CallsAt j watched plain 0 :=
  h.callsAt (fun a told htold => congrArg (List.countP Event.isCall) (hP a told htold)) j

theorem callsAt_pure (a : α) (j : Journal σ) : CallsAt j (pure a) (pure a) 0 :=
  (tells_pure (P := fun _ told => told = []) rfl).callsAt_zero (fun _ _ h => h) j

/-- The calls of computations one after the other add up. -/
theorem CallsAt.bind {watchedNext : α → Call (Observed σ) β} {next : α → Call σ β}
    (h : CallsAt j watched plain n)
    (hnext : CallsAt (plain j).2 (watchedNext (plain j).1) (next (plain j).1) m) :
    CallsAt j (watched >>= watchedNext) (plain >>= next) (n + m) := by
  intro events
  obtain ⟨before, hrun, hbefore⟩ := h events
  obtain ⟨after, hrunNext, hafter⟩ := hnext (events ++ before)
  refine ⟨before ++ after, ?_, by rw [List.countP_append, hbefore, hafter]⟩
  rw [bind_apply, hrun, ← List.append_assoc]
  exact hrunNext

/-- Noting anything else is no call. -/
theorem CallsAt.note {event : Event} (h : CallsAt j watched plain n)
    (hevent : event.isCall = false) :
    CallsAt j (do Call.note event; watched) plain n := by
  intro events
  obtain ⟨told, hrun, hcalls⟩ := h (events ++ [event])
  refine ⟨event :: told, ?_, by rw [List.countP_cons_of_neg (by simp [hevent]), hcalls]⟩
  rw [List.append_assoc] at hrun
  exact hrun

/-- A watched hook is no call of the transport. -/
theorem callsAt_watch_bind {plain : Call σ α} {watchedNext : α → Call (Observed σ) β}
    {next : α → Call σ β} (h : CallsAt (plain j).2 (watchedNext (plain j).1) (next (plain j).1) n) :
    CallsAt j (do let a ← watch plain; watchedNext a) (plain >>= next) n := fun events => h events

end Call

theorem countP_initializations (index : Nat) (before : RequestParts) (states : List RequestParts) :
    (initializations index before states).countP Event.isCall = 0 := by
  induction states generalizing index before with
  | nil => rfl
  | cons after rest ih =>
      rw [initializations, List.countP_cons_of_neg Bool.false_ne_true]
      exact ih (index + 1) after

theorem Delivery.countP_events (d : Delivery) : d.events.countP Event.isCall = 1 := by
  obtain ⟨request, left, answer, _ | buffers⟩ := d <;> rfl

/-- Handling the status calls no transport. -/
theorem StatusPolicy.countP_eq {count : Nat} {parts : RequestParts} {reply : Reply}
    {result : Except ClientError Reply} {told : List Event}
    (h : StatusPolicy count parts reply result told) : told.countP Event.isCall = 0 := by
  have hrefusals : ∀ count, (refusals reply.response.status 0 count).countP Event.isCall = 0 := by
    intro count
    simp [refusals, List.countP_eq_zero, Event.isCall]
  cases h with
  | handled index after result hindex => rw [List.countP_append, hrefusals]; rfl
  | success => exact hrefusals count
  | failure => exact hrefusals count
  | unreadable => exact hrefusals count

namespace Client

variable {c : Client σ} {d : Draft} {j : Journal σ}

/-- The interceptors `hooks` under observation, behind `passed` others. -/
def watchHooks (passed : Nat) (hooks : List (Interceptor σ)) : List (Interceptor (Observed σ)) :=
  (hooks.zipIdx passed).map fun h => h.1.watched h.2

theorem Reaches.callsAt {passed : Nat} {hooks : List (Interceptor σ)} {first request : Request}
    {sent : Journal σ} (h : c.Reaches passed hooks first j request sent) (calls : Nat) :
    CallsAt j ((c.watched calls).handOn passed (watchHooks passed hooks) first)
      (c.handOn passed hooks first) 1 := by
  induction h with
  | transport passed request j =>
      refine (callTransport_tells c calls request.parts request.body).callsAt ?_ j
      rintro _ _ ⟨d, -, -, -, rfl⟩
      exact d.countP_events
  | @passage passed hook rest parts body j onward carried resume decided _ _ hforward _ ih =>
      -- The one call is behind the interceptor. What is noted around it is what the interceptor was
      -- given, what it passed on and what it gave back.
      rw [← runChain_eq_handOn, ← runChain_eq_handOn] at ih
      rw [← runChain_eq_handOn, ← runChain_eq_handOn, watchHooks, List.zipIdx_cons, List.map_cons,
        runChain_watched_cons, runChain]
      refine CallsAt.note (callsAt_watch_bind ?_) rfl
      rw [hforward]
      refine CallsAt.note (CallsAt.bind (m := 0) ih ?_) rfl
      refine (Tells.note _ (tells_watch_note _ (.gaveBack passed))).callsAt ?_ _
      rintro _ _ ⟨_, rfl, rfl⟩
      rfl

/-- Whether the body is read into memory depends on the number of interceptors, which watching
keeps. -/
theorem handedBody_watched (c : Client σ) (calls : Nat) (body : RequestBody) :
    (c.watched calls).handedBody body = c.handedBody body := by
  have hempty : (c.watched calls).interceptors.isEmpty = c.interceptors.isEmpty := by
    rw [Bool.eq_iff_iff]
    simp [Client.watched]
  rw [handedBody, handedBody, hempty]

/-- Sending a request that reaches the transport calls the transport once. -/
theorem send_callsAt {parts ready : RequestParts} {body handed : RequestBody}
    {prepared sent : Journal σ} {request : Request}
    (hinit : applyInitializers c.initializers parts j = (ready, prepared))
    (hhanded : c.handedBody body = .ok handed)
    (hreaches : c.Reaches 0 c.interceptors ⟨ready, handed⟩ prepared request sent) (calls : Nat) :
    CallsAt j ((c.watched calls).send (parts, body)) (c.send (parts, body)) 1 := by
  have hexecute :
      CallsAt j ((c.watched calls).execute parts body) (c.execute parts body) (0 + 1) := by
    rw [execute_eq_handOn hhanded,
      execute_eq_handOn ((c.handedBody_watched calls body).trans hhanded)]
    refine CallsAt.bind ((applyInitializers_tells c.initializers 0 parts).callsAt ?_ j) ?_
    · rintro _ _ ⟨states, -, -, rfl⟩
      exact countP_initializations 0 parts states
    · rw [hinit]
      exact hreaches.callsAt calls
  exact CallsAt.bind (m := 0) hexecute (callsAt_pure _ _)

theorem prepare_callsAt (c : Client σ) (calls : Nat) (d : Draft) (j : Journal σ) :
    CallsAt j ((c.watched calls).prepare d) (c.prepare d) 0 :=
  (prepare_tells c calls d).callsAt_zero (fun _ _ h => h.2) j

/-- What was built for a delivered draft is sent with one call. -/
theorem Delivers.callsAt (h : c.Delivers d j) (calls : Nat) :
    ∃ request rest built, c.prepare d j = ((.ok request, rest), built)
      ∧ CallsAt built ((c.watched calls).send request) (c.send request) 1 := by
  obtain ⟨parts, ready, body, handed, rest, request, built, prepared, sent, hbuild, hinit, hhanded,
    hreaches, -⟩ := h
  exact ⟨(parts, body), rest, built, hbuild, send_callsAt hinit hhanded hreaches calls⟩

end Client

/-- Retrieving a reply calls the transport as often as the sending does. -/
theorem Retrieval.reply_callsAt {r : Retrieval σ} {request : Prepared} {j : Journal σ} {n : Nat}
    (hrequest : r.request = .ok request)
    (h : CallsAt j (r.watched.client.send request) (r.client.send request) n) :
    CallsAt j r.watched.reply r.reply n := by
  have hwatched : r.watched.request = .ok request := hrequest
  unfold Retrieval.reply
  rw [hrequest, hwatched]
  refine CallsAt.bind (m := 0) h ?_
  rcases (r.client.send request j).1 with ⟨left, e | reply⟩
  · exact callsAt_pure _ _
  · dsimp only
    rw [r.watched_handlers]
    refine CallsAt.bind (n := 0) (m := 0) ?_ (callsAt_pure _ _)
    exact (reply.handleStatus_tells (r.handlers ++ r.client.statusHandlers) left).callsAt
      (fun _ _ hpolicy => hpolicy.countP_eq) _

theorem Terminal.finish_callsAt (t : Terminal α) (got : Except ClientError Reply) (j : Journal σ) :
    CallsAt j (t.finish got) (t.finish got) 0 := by
  cases t with
  | body target => exact callsAt_pure _ j
  | bytes => exact callsAt_pure _ j
  | text => exact callsAt_pure _ j
  | entity target => exact callsAt_pure _ j
  | bodilessEntity =>
      -- Only here is a record written, and a record is no event.
      unfold finish
      cases got with
      | error e => exact callsAt_pure _ j
      | ok reply =>
          dsimp only
          cases reply.readBytes.1 with
          | error e => exact callsAt_pure _ j
          | ok whole =>
              exact (tells_log_bind (tells_pure (P := fun _ told => told = []) rfl)).callsAt_zero
                (fun _ _ h => h) j

namespace Client

variable {c : Client σ} {d : Draft} {j : Journal σ}

theorem Delivers.fetch_callsAt (h : c.Delivers d j) (handlers : List (StatusHandler σ))
    (t : Terminal α) :
    CallsAt j ((c.watched handlers.length).fetch d (watchHandlers 0 handlers) t)
      (c.fetch d handlers t) 1 := by
  obtain ⟨request, rest, built, hbuild, hsend⟩ := h.callsAt handlers.length
  rw [ApiClient.fetch_eq, ApiClient.fetch_eq]
  refine CallsAt.bind (n := 0) (m := 1) (c.prepare_callsAt handlers.length d j) ?_
  rw [hbuild, Terminal.run_eq_finish, Terminal.run_eq_finish]
  refine CallsAt.bind (m := 0) ?_ (t.finish_callsAt _ _)
  exact Retrieval.reply_callsAt (r := { client := c, request := .ok request, handlers }) rfl hsend

theorem Delivers.exchange_callsAt (h : c.Delivers d j) (calls : Nat)
    (handler : RequestParts → Reply → Call σ (Reply × Except Failure α)) :
    CallsAt j ((c.watched calls).exchange (watchExchange handler) d) (c.exchange handler d) 1 := by
  obtain ⟨request, rest, built, hbuild, hsend⟩ := h.callsAt calls
  unfold Client.exchange
  refine CallsAt.bind (n := 0) (m := 1) (c.prepare_callsAt calls d j) ?_
  rw [hbuild]
  refine CallsAt.bind (m := 0) hsend ?_
  rcases (c.send request built).1 with ⟨left, e | reply⟩
  · exact callsAt_pure _ _
  · refine CallsAt.bind (n := 0) (m := 0) ?_ (callsAt_pure _ _)
    refine (watchExchange_tells handler left reply.rewind.2).callsAt ?_ _
    rintro _ _ ⟨rfl, -⟩
    rfl

end Client

end ApiClient
