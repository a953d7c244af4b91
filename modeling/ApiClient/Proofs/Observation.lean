import ApiClient.Client.Retrieve

/-!
# ApiClient.Proofs.Observation

Watching the hooks of a call.

A hook is any function on the world, so a run does not show which hooks were applied, in which order
and to what. Here every hook of a client is given a twin that does the same and notes what it was
given and what it gave back. `Call.Tells watched plain P` says both halves at once: the watched
computation has the result, the world and the records of the plain one, and the events that it noted
satisfy `P`. The first half is why a fact about the watched run is a fact about the plain run.

A hook is named by its place in the list that the client holds, not by what the run says about
itself.
-/

namespace ApiClient

variable {σ α β : Type}

/-! ### Events -/

/-- What a hook was given, and what it gave back. -/
inductive Event where
  /-- An initializer changed a request. -/
  | initialized (index : Nat) (before after : RequestParts)
  /-- An interceptor got a request. -/
  | entered (index : Nat) (request : Request)
  /-- An interceptor passed a request on. -/
  | passedOn (index : Nat) (request : Request)
  /-- An interceptor saw what came back. -/
  | cameBack (index : Nat) (back : RequestParts × Outcome)
  /-- An interceptor gave something back. -/
  | gaveBack (index : Nat) (back : RequestParts × Outcome)
  /-- The transport got a request. -/
  | called (request : Request)
  /-- The transport answered, and left this of the request. -/
  | answered (left : Request) (answer : Except TransportError Response)
  /-- The client was asked whether it buffers a response. -/
  | policyAsked (url : Uri) (method : Method) (buffers : Bool)
  /-- A status handler was asked whether it is for a status. -/
  | statusAsked (index : Nat) (status : Status) (accepts : Bool)
  /-- A status handler handled a reply. -/
  | statusHandled (index : Nat) (parts : RequestParts) (before after : Reply)
    (result : Except Failure Unit)
  /-- The handler of an exchange got a reply. -/
  | exchanged (parts : RequestParts) (reply : Reply)

/-- A world under observation. -/
structure Observed (σ : Type) where
  /-- The world. -/
  world : σ
  /-- What the hooks noted, in order. -/
  events : List Event := []

/-- The state of a call when `events` were noted. -/
def Journal.observe (j : Journal σ) (events : List Event) : Journal (Observed σ) :=
  { world := { world := j.world, events }, records := j.records }

namespace Call

/-- Runs a computation in a world under observation. It notes nothing. -/
def watch (m : Call σ α) : Call (Observed σ) α := fun j =>
  let (a, left) := m { world := j.world.world, records := j.records }
  (a, left.observe j.world.events)

/-- Notes an event. -/
def note (event : Event) : Call (Observed σ) Unit :=
  modify fun j => { j with world := { j.world with events := j.world.events ++ [event] } }

/-! ### What a watched computation tells -/

/-- The watched computation does what the plain one does, and notes events of which `P` holds. -/
def Tells (watched : Call (Observed σ) α) (plain : Call σ α) (P : α → List Event → Prop) : Prop :=
  ∀ (j : Journal σ) (events : List Event), ∃ told,
    watched (j.observe events) = ((plain j).1, (plain j).2.observe (events ++ told))
      ∧ P (plain j).1 told

theorem Tells.mono {watched : Call (Observed σ) α} {plain : Call σ α} {P Q : α → List Event → Prop}
    (h : Tells watched plain P) (hPQ : ∀ a told, P a told → Q a told) :
    Tells watched plain Q := by
  intro j events
  obtain ⟨told, hrun, hP⟩ := h j events
  exact ⟨told, hrun, hPQ _ _ hP⟩

theorem tells_pure {P : α → List Event → Prop} {a : α} (h : P a []) :
    Tells (σ := σ) (pure a) (pure a) P := by
  intro j events
  exact ⟨[], by rw [List.append_nil]; rfl, h⟩

/-- What is told one after the other is told in this order. -/
theorem Tells.bind {watched : Call (Observed σ) α} {plain : Call σ α} {P : α → List Event → Prop}
    {watchedNext : α → Call (Observed σ) β} {next : α → Call σ β} {Q : α → β → List Event → Prop}
    (h : Tells watched plain P) (hnext : ∀ a, Tells (watchedNext a) (next a) (Q a)) :
    Tells (watched >>= watchedNext) (plain >>= next) fun b told =>
      ∃ a before after, told = before ++ after ∧ P a before ∧ Q a b after := by
  intro j events
  obtain ⟨before, hrun, hP⟩ := h j events
  obtain ⟨after, hrunNext, hQ⟩ := hnext (plain j).1 (plain j).2 (events ++ before)
  refine ⟨before ++ after, ?_, _, before, after, rfl, hP, hQ⟩
  rw [← List.append_assoc]
  exact (congrArg (fun r => watchedNext r.1 r.2) hrun).trans hrunNext

/-- Noting an event puts it before whatever is told behind it. -/
theorem Tells.note {watched : Call (Observed σ) α} {plain : Call σ α} {P : α → List Event → Prop}
    (event : Event) (h : Tells watched plain P) :
    Tells (do Call.note event; watched) plain fun a told => ∃ rest, told = event :: rest
      ∧ P a rest := by
  intro j events
  obtain ⟨rest, hrun, hP⟩ := h j (events ++ [event])
  refine ⟨event :: rest, ?_, rest, rfl, hP⟩
  rw [List.append_assoc] at hrun
  exact hrun

/-- A watched hook tells what is told behind it. -/
theorem tells_watch_bind {plain : Call σ α} {watchedNext : α → Call (Observed σ) β}
    {next : α → Call σ β} {P : β → List Event → Prop}
    (hnext : ∀ a, Tells (watchedNext a) (next a) P) :
    Tells (do let a ← watch plain; watchedNext a) (plain >>= next) P := fun j events =>
  hnext (plain j).1 (plain j).2 events

/-- A hook that notes one event about its result tells this event. -/
theorem tells_watch_note (plain : Call σ α) (event : α → Event) :
    Tells (do let a ← watch plain; note (event a); return a) plain fun a told => told = [event a] :=
  fun _ _ => ⟨_, rfl, rfl⟩

/-- Records are the same under observation. -/
theorem tells_log_bind {level : LogLevel} {text : String} {watched : Call (Observed σ) α}
    {plain : Call σ α} {P : α → List Event → Prop} (h : Tells watched plain P) :
    Tells (do log level text; watched) (do log level text; plain) P := fun j events =>
  h { j with records := j.records ++ [⟨level, text⟩] } events

end Call

/-! ### Hooks under observation -/

open Call (watch note)

/-- An initializer that notes what it does. -/
def watchInitializer (hook : RequestParts → Call σ RequestParts) (index : Nat)
    (parts : RequestParts) : Call (Observed σ) RequestParts := do
  let after ← watch (hook parts)
  note (.initialized index parts after)
  return after

/-- A decision of an interceptor, with what the interceptor does afterwards under observation. -/
def Interception.watched (index : Nat) :
    Interception σ → Call (Observed σ) (Interception (Observed σ))
  | .answer parts outcome => do
    note (.gaveBack index (parts, outcome))
    return .answer parts outcome
  | .forward parts body resume => do
    note (.passedOn index ⟨parts, .ofBytes body⟩)
    return .forward parts body fun parts outcome => do
      note (.cameBack index (parts, outcome))
      let back ← watch (resume parts outcome)
      note (.gaveBack index back)
      return back

/-- An interceptor that notes what it gets, passes on, sees and gives back. -/
def Interceptor.watched (hook : Interceptor σ) (index : Nat) : Interceptor (Observed σ) where
  intercept position parts body := do
    note (.entered index ⟨parts, .ofBytes body⟩)
    let decision ← watch (hook.intercept position parts body)
    decision.watched index

/-- A transport that notes what it gets and answers. -/
def Transport.watched (t : Transport σ) : Transport (Observed σ) where
  name := t.name
  call request := do
    note (.called request)
    let back ← watch (t.call request)
    note (.answered back.1 back.2)
    return back

/-- A buffering policy that notes what it is asked. -/
def watchPolicy (policy : Uri → Method → Call σ Bool) (url : Uri) (method : Method) :
    Call (Observed σ) Bool := do
  let buffers ← watch (policy url method)
  note (.policyAsked url method buffers)
  return buffers

/-- A status handler that notes what it is asked and what it does. -/
def StatusHandler.watched (handler : StatusHandler σ) (index : Nat) :
    StatusHandler (Observed σ) where
  accepts status := do
    let accepts ← watch (handler.accepts status)
    note (.statusAsked index status accepts)
    return accepts
  act parts reply := do
    let back ← watch (handler.act parts reply)
    note (.statusHandled index parts reply back.1 back.2)
    return back

/-- A handler of exchanges that notes what it gets. -/
def watchExchange (handler : RequestParts → Reply → Call σ (Reply × Except Failure α))
    (parts : RequestParts) (reply : Reply) : Call (Observed σ) (Reply × Except Failure α) := do
  note (.exchanged parts reply)
  watch (handler parts reply)

/-- Status handlers under observation, numbered from `start` on. -/
def watchHandlers (start : Nat) (handlers : List (StatusHandler σ)) :
    List (StatusHandler (Observed σ)) :=
  (handlers.zipIdx start).map fun h => h.1.watched h.2

/-- A client under observation. Its status handlers are numbered behind those of the call, of which
there are `calls`. -/
def Client.watched (c : Client σ) (calls : Nat) : Client (Observed σ) where
  transport := c.transport.watched
  baseUrl := c.baseUrl
  appendedUserAgent := c.appendedUserAgent
  defaultHeaders := c.defaultHeaders
  defaultCookies := c.defaultCookies
  defaultRequests := c.defaultRequests
  initializers := c.initializers.zipIdx.map fun h => watchInitializer h.1 h.2
  interceptors := c.interceptors.zipIdx.map fun h => h.1.watched h.2
  buffering := c.buffering.map watchPolicy
  statusHandlers := watchHandlers calls c.statusHandlers
  codecs := c.codecs

/-- A retrieval under observation. -/
def Retrieval.watched (r : Retrieval σ) : Retrieval (Observed σ) where
  client := r.client.watched r.handlers.length
  request := r.request
  handlers := watchHandlers 0 r.handlers

@[simp] theorem watchHandlers_cons (start : Nat) (handler : StatusHandler σ)
    (rest : List (StatusHandler σ)) :
    watchHandlers start (handler :: rest) =
      handler.watched start :: watchHandlers (start + 1) rest := rfl

/-- The handlers of a call and those behind them are numbered as one list. -/
theorem watchHandlers_append (start : Nat) (first rest : List (StatusHandler σ)) :
    watchHandlers start first ++ watchHandlers (start + first.length) rest =
      watchHandlers start (first ++ rest) := by
  rw [watchHandlers, watchHandlers, watchHandlers, List.zipIdx_append, List.map_append]

end ApiClient
