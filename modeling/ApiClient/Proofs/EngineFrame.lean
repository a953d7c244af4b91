import ApiClient.Client.Execute
import ApiClient.Engine.Plain.Exchange
import ApiClient.Engine.Pooled
import ApiClient.Engine.Transfer
import ApiClient.Proofs.TransportCalls

/-!
# ApiClient.Proofs.EngineFrame

What a call leaves of a request.

The settings of a request are in one place at a time: with the response if there is one, and else
where they were. Nothing else of the request but its body is touched (`Request.Conserved`). An
engine works on the request in steps, some of which take a part of it out and some of which fail. A
step before the one that makes the response keeps all of the request but its body, whether it fails
or not, and an error of it names the address (`EngineStep.Keeps`). That is shown of each step of
each engine, and from it, over the binds, of the whole call (`EngineStep.Conserves`).

A client takes the parts from its caller for the request that it gives to the transport, and puts
back what is left of them, whatever the result is (`Client.callTransport_ends`). So its caller finds
what the transport left, and never the parts that stood in for it.
-/

namespace ApiClient

variable {σ α β : Type}

/-! ### Results of calls -/

/-- From whichever state it starts, the computation ends with a result of the given kind. -/
def Call.Ends (m : Call σ α) (P : α → Prop) : Prop := ∀ j, P (m j).1

namespace Call.Ends

theorem pure {P : α → Prop} {a : α} (h : P a) : Ends (Pure.pure a : Call σ α) P := fun _ => h

/-- If the last step always ends well, it does not matter what the steps in front of it did. -/
theorem bind {P : β → Prop} (m : Call σ α) {next : α → Call σ β} (h : ∀ a, (next a).Ends P) :
    (m >>= next).Ends P :=
  fun j => h (m j).1 (m j).2

end Call.Ends

/-! ### Requests behind a call -/

/-- What a call leaves of a request, and how it ends: the settings are with the response if there is
one, and otherwise the request keeps them and the error names its address. -/
inductive Request.Conserved (r : Request) : Request × Except TransportError Response → Prop where
  /-- There is a response. -/
  | answered (body : RequestBody) (response : Response)
      (hmoved : response.extensions = r.parts.extensions) :
      Conserved r (⟨{ r.parts with extensions := {} }, body⟩, .ok response)
  /-- There is none. -/
  | failed (body : RequestBody) (e : TransportError) (hlocated : e.uri = some r.parts.url) :
      Conserved r (⟨r.parts, body⟩, .error e)

/-- Besides its settings and its body, a request is the same behind a call. -/
theorem Request.Conserved.parts_eq {r left : Request} {result : Except TransportError Response}
    (h : r.Conserved (left, result)) :
    left.parts = { r.parts with extensions := left.parts.extensions } := by
  cases h <;> rfl

/-- Which body the request had is left out of account. -/
theorem Request.Conserved.of_parts {r left : Request}
    {back : Request × Except TransportError Response} (h : left.Conserved back)
    (hparts : left.parts = r.parts) : r.Conserved back := by
  obtain ⟨parts, body⟩ := r
  obtain rfl : left.parts = parts := hparts
  cases h with
  | answered body response hmoved => exact .answered body response hmoved
  | failed body e hlocated => exact .failed body e hlocated

/-! ### Steps -/

/-- If there is an error, it names the address of the request. -/
def Located (p : RequestParts) (result : Except TransportError α) : Prop :=
  ∀ e, result = .error e → e.uri = some p.url

namespace Located

variable {p : RequestParts}

theorem ok (a : α) : Located p (.ok a) := nofun

theorem error {e : TransportError} (h : e.uri = some p.url) :
    Located p (.error e : Except TransportError α) := by
  rintro _ ⟨⟩
  exact h

theorem bind {x : Except TransportError α} {f : α → Except TransportError β} (hx : Located p x)
    (hf : ∀ a, Located p (f a)) : Located p (x >>= f) := by
  cases x with
  | error e => exact .error (hx e rfl)
  | ok a => exact hf a

/-- If each step of a loop names the address, the loop does. -/
theorem foldlM {f : β → α → Except TransportError β} (hf : ∀ b a, Located p (f b a)) (b : β)
    (l : List α) : Located p (l.foldlM f b) := by
  induction l generalizing b with
  | nil => exact .ok b
  | cons a rest ih =>
      rw [List.foldlM_cons]
      exact (hf b a).bind ih

end Located

namespace EngineStep

/-- The step touches nothing of the request but its body, and an error of it names the address. -/
def Keeps (m : EngineStep σ α) : Prop :=
  ∀ r, (m.runOn r).Ends fun back => back.1.parts = r.parts ∧ Located r.parts back.2

/-- The step ends a call as it should end. -/
def Conserves (m : EngineStep σ Response) : Prop := ∀ r, (m.runOn r).Ends r.Conserved

/-! #### What the single steps do -/

theorem keeps_pure (a : α) : Keeps (pure a : EngineStep σ α) := fun _ _ => ⟨rfl, .ok a⟩

theorem keeps_get : Keeps (get : EngineStep σ Request) := fun r _ => ⟨rfl, .ok r⟩

theorem keeps_call (m : Call σ α) : Keeps (liftM m : EngineStep σ α) := fun _ _ => ⟨rfl, .ok _⟩

theorem keeps_query {f : Request → Except TransportError α} (h : ∀ r, Located r.parts (f r)) :
    Keeps (query f : EngineStep σ α) := fun r _ => ⟨rfl, h r⟩

theorem keeps_takeBody : Keeps (takeBody : EngineStep σ RequestBody) :=
  fun r _ => ⟨rfl, .ok r.body⟩

theorem keeps_onBody (m : StateT RequestBody (Call σ) α) : Keeps (onBody m) :=
  fun _ _ => ⟨rfl, .ok _⟩

/-- The step that makes the response moves the settings, and it cannot fail. -/
theorem conserves_respond (a : EngineAnswer) : Conserves (respond a : EngineStep σ Response) :=
  fun r _ => .answered r.body (a.toResponse r.parts.extensions) rfl

/-! #### What steps in a row do -/

theorem Keeps.bind {m : EngineStep σ α} {next : α → EngineStep σ β} (hm : m.Keeps)
    (hnext : ∀ a, (next a).Keeps) : Keeps (m >>= next) := by
  intro r j
  have hkept := hm r j
  rw [runOn_bind]
  revert hkept
  rcases m.runOn r j with ⟨⟨left, e | a⟩, reached⟩
  · rintro ⟨hparts, hlocated⟩
    exact ⟨hparts, .error (hlocated e rfl)⟩
  · rintro ⟨hparts, -⟩
    have hrest := hnext a left reached
    rwa [show left.parts = r.parts from hparts] at hrest

/-- A call ends as it should if its last step does and those before it keep the request. -/
theorem Keeps.bind_conserves {m : EngineStep σ α} {next : α → EngineStep σ Response} (hm : m.Keeps)
    (hnext : ∀ a, (next a).Conserves) : Conserves (m >>= next) := by
  intro r j
  have hkept := hm r j
  rw [runOn_bind]
  revert hkept
  rcases m.runOn r j with ⟨⟨left, e | a⟩, reached⟩
  · rintro ⟨hparts, hlocated⟩
    exact (Request.Conserved.failed left.body e (hparts ▸ hlocated e rfl)).of_parts hparts
  · rintro ⟨hparts, -⟩
    exact (hnext a left reached).of_parts hparts

/-- A step that fails ends a call as it should. -/
theorem conserves_fail {error : RequestParts → TransportError}
    (h : ∀ p, (error p).uri = some p.url) : Conserves (fail error : EngineStep σ Response) :=
  fun r _ => .failed r.body (error r.parts) (h r.parts)

end EngineStep

/-! ### The plain agent -/

namespace Plain

variable (p : RequestParts)

theorem located_setValue (lines : List (String × String)) (line : HeaderName × HeaderValue) :
    Located p (setValue p lines line) := by
  unfold setValue
  split
  · exact .ok _
  · exact .error rfl

theorem located_userAgent [Build] : Located p (userAgent p) := by
  unfold userAgent
  dsimp only
  split
  · exact .ok _
  · exact .error rfl

theorem located_withAgent [Build] (lines : List (String × String)) :
    Located p (withAgent p lines) := by
  unfold withAgent
  split
  · exact .ok _
  · exact (located_userAgent p).bind fun value => located_setValue p lines _

theorem located_headerLines [Build] (size : Option Nat) : Located p (headerLines p size) :=
  .bind (.foldlM (located_setValue p) _ _) fun lines =>
    (located_withAgent p lines).bind fun _ => .ok _

theorem located_outbound [Build] (r : Request) : Located r.parts (outbound r) :=
  (located_headerLines r.parts r.body.size?).bind fun _ => .ok _

theorem located_addValue (name : HeaderName) (headers : HeaderMap) (text : String) :
    Located p (addValue p name headers text) := by
  unfold addValue
  split
  · exact .ok _
  · exact .error rfl

theorem located_addName (fields : List (String × Option String)) (headers : HeaderMap)
    (field : String × Option String) : Located p (addName p fields headers field) := by
  unfold addName
  split
  · exact .foldlM (located_addValue p _) _ _
  · exact .error rfl

theorem located_toAnswer (reported : Reported) : Located p (reported.toAnswer p) := by
  unfold Reported.toAnswer
  split
  · split
    · exact .bind (.foldlM (located_addName p _) _ _) fun headers => .ok _
    · exact .error rfl
  · exact .error rfl

end Plain

namespace PlainAgent

theorem respond_conserves (reported : Plain.Reported) :
    (respond reported : EngineStep σ Response).Conserves :=
  (EngineStep.keeps_query fun r => Plain.located_toAnswer r.parts reported).bind_conserves
    EngineStep.conserves_respond

theorem answer_conserves (a : PlainAgent σ) (out : Plain.Outbound) : (a.answer out).Conserves := by
  refine (EngineStep.keeps_onBody (a.run out)).bind_conserves fun result => ?_
  cases result with
  | ok reported => exact respond_conserves reported
  | error fault => exact EngineStep.conserves_fail fun _ => rfl

theorem call_conserves [Build] (a : PlainAgent σ) (r : Request) : (a.call r).Ends r.Conserved :=
  (EngineStep.keeps_query Plain.located_outbound).bind_conserves a.answer_conserves r

end PlainAgent

/-! ### The pooled client -/

namespace Pooled

variable (p : RequestParts)

theorem located_urlOf : Located p (urlOf p) := by
  unfold urlOf
  cases Url.parse p.url.text with
  | ok url => exact .ok url
  | error e => exact .error rfl

theorem located_headersOf [Build] : Located p (headersOf p) := by
  unfold headersOf
  split
  · exact .ok _
  · split
    · exact .ok _
    · exact .error rfl

end Pooled

namespace PooledClient

theorem outbound_keeps [Build] : (outbound : EngineStep σ Pooled.Outbound).Keeps :=
  EngineStep.keeps_get.bind fun _ =>
    (EngineStep.keeps_query fun r => Pooled.located_urlOf r.parts).bind fun _ =>
      (EngineStep.keeps_query fun r => Pooled.located_headersOf r.parts).bind fun _ =>
        EngineStep.keeps_takeBody.bind fun _ => EngineStep.keeps_pure _

theorem answer_conserves (c : PooledClient σ) (out : Pooled.Outbound) :
    (c.answer out).Conserves := by
  refine (EngineStep.keeps_call (c.send out)).bind_conserves fun result => ?_
  cases result with
  | ok answer => exact EngineStep.conserves_respond answer
  | error fault => exact EngineStep.conserves_fail fun _ => rfl

theorem call_conserves [Build] (c : PooledClient σ) (r : Request) :
    (c.call r).Ends r.Conserved :=
  outbound_keeps.bind_conserves c.answer_conserves r

end PooledClient

/-! ### The transfer client -/

theorem Transfer.located_headersOf [Build] (p : RequestParts) : Located p (headersOf p) := by
  unfold headersOf
  split
  · exact .ok _
  · split
    · exact .ok _
    · exact .error rfl

namespace TransferClient

theorem outbound_keeps [Build] (c : TransferClient σ) : c.outbound.Keeps :=
  EngineStep.keeps_get.bind fun _ =>
    (EngineStep.keeps_query fun r => Transfer.located_headersOf r.parts).bind fun _ =>
      EngineStep.keeps_takeBody.bind fun _ => EngineStep.keeps_pure _

theorem located_accepted (c : TransferClient σ) (p : RequestParts) (out : Transfer.Outbound) :
    Located p (c.accepted p out) := by
  unfold accepted
  split
  · exact .error rfl
  · exact .ok out

/-- A request that is not accepted has lost its body by then, and nothing else. -/
theorem answer_conserves (c : TransferClient σ) (out : Transfer.Outbound) :
    (c.answer out).Conserves := by
  refine (EngineStep.keeps_query fun r => c.located_accepted r.parts out).bind_conserves
    fun out => ?_
  refine (EngineStep.keeps_call (c.send out)).bind_conserves fun result => ?_
  cases result with
  | ok answer => exact EngineStep.conserves_respond answer
  | error fault => exact EngineStep.conserves_fail fun _ => rfl

theorem call_conserves [Build] (c : TransferClient σ) (r : Request) :
    (c.call r).Ends r.Conserved :=
  c.outbound_keeps.bind_conserves c.answer_conserves r

end TransferClient

/-! ### All engines -/

/-- An engine. -/
inductive Engine (σ : Type) where
  /-- A plain agent. -/
  | plain (agent : PlainAgent σ)
  /-- A pooled client. -/
  | pooled (client : PooledClient σ)
  /-- A transfer client. -/
  | transfer (client : TransferClient σ)

namespace Engine

/-- The engine as a transport. -/
def transport [Build] : Engine σ → Transport σ
  | plain agent => agent.transport
  | pooled client => client.transport
  | transfer client => client.transport

theorem call_conserves [Build] (e : Engine σ) (r : Request) :
    (e.transport.call r).Ends r.Conserved := by
  cases e with
  | plain agent => exact agent.call_conserves r
  | pooled client => exact client.call_conserves r
  | transfer client => exact client.call_conserves r

end Engine

/-! ### The way back to the caller -/

/-- What a caller finds of a request behind the call of a transport that conserves it. A response
that fails while it is buffered has left the request already. -/
inductive Request.Returned (r : Request) : RequestParts × Outcome → Prop where
  /-- There is a response. -/
  | answered (response : Response) (hmoved : response.extensions = r.parts.extensions) :
      Returned r ({ r.parts with extensions := {} }, .ok response)
  /-- The transport failed. -/
  | failed (e : TransportError) (hlocated : e.uri = some r.parts.url) :
      Returned r (r.parts, .error (.ofTransport e))
  /-- The response failed. -/
  | lost (e : IoError) : Returned r ({ r.parts with extensions := {} }, .error (.ofIo e))

namespace Client

/-- A buffered response has the settings of the one from the transport. -/
theorem bufferResponse_ends (c : Client σ) (parts : RequestParts) (response : Response) :
    (c.bufferResponse parts response).Ends fun outcome =>
      (∃ body, outcome = .ok { response with body }) ∨ ∃ e, outcome = .error (.ofIo e) := by
  refine .bind _ fun accepted => ?_
  split
  · rcases response.body.buffer with ⟨_ | _, body⟩
    · exact .pure (.inr ⟨_, rfl⟩)
    · exact .pure (.inl ⟨body, rfl⟩)
  · exact .pure (.inl ⟨response.body, rfl⟩)

/-- The caller gets back what the transport left, and an error of the transport as it was. -/
theorem callTransport_ends (c : Client σ) (parts : RequestParts) (body : RequestBody)
    (j : Journal σ) :
    ∃ outcome, (c.callTransport parts body j).1 =
        ((c.transport.call ⟨parts, body⟩ (Call.log .debug (lineText parts) j).2).1.1.parts, outcome)
      ∧ match (c.transport.call ⟨parts, body⟩ (Call.log .debug (lineText parts) j).2).1.2 with
        | .error e => outcome = .error (.ofTransport e)
        | .ok response =>
          (∃ body, outcome = .ok { response with body }) ∨ ∃ e, outcome = .error (.ofIo e) := by
  rw [callTransport_eq_call, Call.bind_apply, Call.bind_apply]
  rcases c.transport.call ⟨parts, body⟩ (Call.log .debug (lineText parts) j).2
    with ⟨⟨left, e | response⟩, answered⟩
  · exact ⟨_, rfl, rfl⟩
  · exact ⟨_, rfl, c.bufferResponse_ends left.parts response _⟩

theorem callTransport_returns {c : Client σ} {r : Request}
    (h : (c.transport.call r).Ends r.Conserved) :
    (c.callTransport r.parts r.body).Ends r.Returned := by
  intro j
  obtain ⟨outcome, hends, houtcome⟩ := c.callTransport_ends r.parts r.body j
  -- The transport runs behind the log line, so its frame is asked for at that journal.
  have hcall := h (Call.log .debug (lineText r.parts) j).2
  rw [hends]
  revert houtcome hcall
  rcases (c.transport.call ⟨r.parts, r.body⟩ (Call.log .debug (lineText r.parts) j).2).1
    with ⟨left, e | response⟩
  · rintro rfl (_ | ⟨_, _, hlocated⟩)
    exact .failed e hlocated
  · rintro (⟨body, rfl⟩ | ⟨e, rfl⟩) (⟨_, _, hmoved⟩ | _)
    · exact .answered _ hmoved
    · exact .lost e

end Client

/-- Every call of an engine conserves its request, however it ends. What is left of the request, and
nothing else, is what a client over the engine gives back to its caller, with the response or the
error of the engine, or with the error of a response that could not be buffered. -/
theorem engines_conserve_requests [Build] (e : Engine σ) (c : Client σ) (r : Request)
    (j : Journal σ) :
    (∃ left result, (e.transport.call r j).1 = (left, result)
      ∧ left.parts = { r.parts with extensions := left.parts.extensions }
      ∧ match result with
        | .ok response => left.parts.extensions = {} ∧ response.extensions = r.parts.extensions
        | .error failure =>
          left.parts.extensions = r.parts.extensions ∧ failure.uri = some r.parts.url)
      ∧ ({ c with transport := e.transport }.callTransport r.parts r.body j).1.1 =
        (e.transport.call r (Call.log .debug (Client.lineText r.parts) j).2).1.1.parts
      ∧ r.Returned ({ c with transport := e.transport }.callTransport r.parts r.body j).1 := by
  refine ⟨?_, ?_, Client.callTransport_returns (e.call_conserves r) j⟩
  · have hcall := e.call_conserves r j
    revert hcall
    rcases (e.transport.call r j).1 with ⟨left, failure | response⟩ <;> intro hcall
    · refine ⟨left, _, rfl, hcall.parts_eq, ?_⟩
      obtain _ | ⟨_, _, hlocated⟩ := hcall
      exact ⟨rfl, hlocated⟩
    · refine ⟨left, _, rfl, hcall.parts_eq, ?_⟩
      obtain ⟨_, _, hmoved⟩ | _ := hcall
      exact ⟨rfl, hmoved⟩
  · obtain ⟨outcome, hends, -⟩ :=
      Client.callTransport_ends { c with transport := e.transport } r.parts r.body j
    rw [hends]

end ApiClient
