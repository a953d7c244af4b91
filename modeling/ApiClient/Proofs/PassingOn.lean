import ApiClient.Proofs.HeaderComposition
import ApiClient.Proofs.TransportCalls

/-!
# ApiClient.Proofs.PassingOn

A chain of interceptors that pass every request on.

Without interceptors the transport gets the body of a request as it is. With interceptors the body
is read into memory in front of the first of them, so the transport gets the same bytes in another
form, with a size that was counted and not declared. This makes no difference to a transport that
goes by the content of a body (`Transport.GoesByContent`).

A body in memory that was read in part would make one: bytes in memory are handed on from the start,
and a transport reads them from where they stand. The body of a built request was not read
(`RequestBody.toBytes_of_build`).
-/

namespace ApiClient

variable {σ : Type}

open Call

/-! ### Going by the content -/

/-- What the transport answers, what it leaves of a request and what it does to the world depends on
the parts of the request and on the bytes that its body delivers up to the end. -/
def Transport.GoesByContent (t : Transport σ) : Prop :=
  ∀ (parts : RequestParts) {content : Bytes} {a b : RequestBody},
    a.readAll.1 = .ok content → b.readAll.1 = .ok content → ∀ j,
      (t.call ⟨parts, a⟩ j).1.1.parts = (t.call ⟨parts, b⟩ j).1.1.parts
        ∧ (t.call ⟨parts, a⟩ j).1.2 = (t.call ⟨parts, b⟩ j).1.2
        ∧ (t.call ⟨parts, a⟩ j).2 = (t.call ⟨parts, b⟩ j).2

/-- Nothing of the body but its content shows in a call of such a transport. -/
theorem Client.callTransport_eq_of_content {c : Client σ} (h : c.transport.GoesByContent)
    (parts : RequestParts) {content : Bytes} {a b : RequestBody} (ha : a.readAll.1 = .ok content)
    (hb : b.readAll.1 = .ok content) : c.callTransport parts a = c.callTransport parts b := by
  funext j
  have hcall := h parts ha hb (log .debug (lineText parts) j).2
  rw [callTransport_eq_call, callTransport_eq_call, bind_apply, bind_apply, bind_apply, bind_apply]
  revert hcall
  rcases c.transport.call ⟨parts, a⟩ (log .debug (lineText parts) j).2
    with ⟨⟨⟨left, rest⟩, answer⟩, after⟩
  rcases c.transport.call ⟨parts, b⟩ (log .debug (lineText parts) j).2
    with ⟨⟨⟨left', rest'⟩, answer'⟩, after'⟩
  -- The two calls may differ in what is left of the body, which the client drops.
  rintro ⟨rfl, rfl, rfl⟩
  cases answer with
  | error e => rfl
  | ok response => rfl

/-! ### Bodies that were not read -/

namespace RequestBody

@[simp] theorem readAll_ofBytes (bytes : Bytes) : (ofBytes bytes).readAll.1 = .ok bytes := rfl

theorem toBytes_ofBytes (bytes : Bytes) : (ofBytes bytes).toBytes = (ofBytes bytes).readAll.1 := rfl

/-- What a stream holds in memory is what it delivers. -/
theorem toBytes_stream (source : Stream) (size : Option Nat) :
    (stream source size).toBytes = (stream source size).readAll.1 := by
  simp only [toBytes, readAll, drain, Stream.readAll]
  rcases source.drain with ⟨delivered, _ | e, left⟩
  · rfl
  · rfl

/-- Reading the body of a built request into memory gives what reading it to the end gives. -/
theorem toBytes_of_build {c : Client σ} {d : Draft} {parts : RequestParts} {body : RequestBody}
    (h : (c.build d).1 = .ok (parts, body)) : body.toBytes = body.readAll.1 := by
  obtain ⟨headers, -, hencode⟩ := Client.build_ok h
  have hwritten := (Client.encodeBody_ok hencode).2
  cases hbody : d.body with
  | empty =>
      rw [hbody] at hwritten
      obtain ⟨-, rfl⟩ := hwritten
      exact toBytes_ofBytes []
  | value value =>
      rw [hbody] at hwritten
      obtain ⟨_, encoded, _, -, -, -, -, rfl⟩ := hwritten
      exact toBytes_ofBytes encoded.bytes
  | bytes data =>
      rw [hbody] at hwritten
      obtain ⟨-, rfl⟩ := hwritten
      exact toBytes_ofBytes data
  | stream source size =>
      rw [hbody] at hwritten
      obtain ⟨-, rfl⟩ := hwritten
      exact toBytes_stream source size
  | multipart form =>
      rw [hbody] at hwritten
      obtain ⟨_, -, -, rfl⟩ := hwritten
      exact toBytes_stream form.toStream form.size?

end RequestBody

/-! ### What the transport gets -/

/-- What the transport was given: the parts of the request, and what reading its body to the end
gives. -/
def Event.handed? : Event → Option (RequestParts × ReadResult Bytes)
  | .called request => some (request.parts, request.body.readAll.1)
  | _ => none

/-- What was given to the transport, call by call. -/
def handedOver (told : List Event) : List (RequestParts × ReadResult Bytes) :=
  told.filterMap Event.handed?

theorem handedOver_append (a b : List Event) : handedOver (a ++ b) = handedOver a ++ handedOver b :=
  List.filterMap_append

theorem handedOver_initializations (index : Nat) (before : RequestParts)
    (states : List RequestParts) :
    handedOver (initializations index before states) = [] := by
  induction states generalizing index before with
  | nil => rfl
  | cons after rest ih => exact ih (index + 1) after

theorem Delivery.handedOver_events (d : Delivery) :
    handedOver d.events = [(d.request.parts, d.request.body.readAll.1)] := by
  obtain ⟨request, left, answer, _ | buffers⟩ := d
  · rfl
  · rfl

namespace Client

/-- The client with `k` interceptors that pass every request on. -/
def relayed (c : Client σ) (k : Nat) : Client σ :=
  { c with interceptors := List.replicate k .passOn }

/-- What the transport gets when the request is sent from state `j`. -/
def handsOver (c : Client σ) (parts : RequestParts) (body : RequestBody) (j : Journal σ) :
    List (RequestParts × ReadResult Bytes) :=
  handedOver ((c.watched 0).execute parts body (j.observe [])).2.world.events

theorem callTransport_hands (c : Client σ) (calls : Nat) (request : Request) :
    Tells ((c.watched calls).callTransport request.parts request.body)
      (c.callTransport request.parts request.body)
      fun _ told => handedOver told = [(request.parts, request.body.readAll.1)] := by
  refine (callTransport_tells c calls request.parts request.body).mono ?_
  rintro _ _ ⟨d, hd, -, -, rfl⟩
  rw [d.handedOver_events, hd]

/-! ### Interceptors that pass on -/

/-- An interceptor that passes on gives back what comes from behind it. -/
theorem runChain_cons_passOn (c : Client σ) (passed : Nat) (rest : List (Interceptor σ))
    (parts : RequestParts) (body : Bytes) :
    c.runChain passed (.passOn :: rest) parts body = c.runChain (passed + 1) rest parts body := rfl

/-- Interceptors that pass on leave nothing but the transport. -/
theorem runChain_replicate_passOn (c : Client σ) (n passed : Nat) (parts : RequestParts)
    (body : Bytes) :
    c.runChain passed (List.replicate n .passOn) parts body =
      c.callTransport parts (.ofBytes body) := by
  induction n generalizing passed with
  | zero => rfl
  | succ n ih => rw [List.replicate_succ, runChain_cons_passOn, ih]

/-- Under observation an interceptor that passes on notes what passes by, and nothing else. -/
theorem runChain_watched_cons_passOn (c : Client σ) (calls passed : Nat)
    (rest : List (Interceptor (Observed σ))) (parts : RequestParts) (body : Bytes) :
    (c.watched calls).runChain passed (Interceptor.passOn.watched passed :: rest) parts body = (do
      note (.entered passed ⟨parts, .ofBytes body⟩)
      note (.passedOn passed ⟨parts, .ofBytes body⟩)
      let back ← (c.watched calls).runChain (passed + 1) rest parts body
      note (.cameBack passed back)
      note (.gaveBack passed back)
      return back) := by
  rw [runChain_watched_cons]
  rfl

/-- Behind interceptors that pass on the transport gets what the first of them got. -/
theorem runChain_replicate_passOn_hands (c : Client σ) (calls n passed : Nat) (parts : RequestParts)
    (body : Bytes) :
    Tells
      ((c.watched calls).runChain passed (watchHooks passed (List.replicate n .passOn)) parts body)
      (c.runChain passed (List.replicate n .passOn) parts body)
      fun _ told => handedOver told = [(parts, .ok body)] := by
  induction n generalizing passed with
  | zero => exact c.callTransport_hands calls ⟨parts, .ofBytes body⟩
  | succ n ih =>
      rw [List.replicate_succ, watchHooks, List.zipIdx_cons, List.map_cons,
        runChain_watched_cons_passOn, runChain_cons_passOn,
        ← bind_pure (c.runChain (passed + 1) (List.replicate n .passOn) parts body)]
      refine (Tells.note _ (Tells.note _ (Tells.bind (ih (passed + 1)) fun back =>
        Tells.note _ (Tells.note _ (tells_pure (P := fun _ told => told = []) rfl))))).mono ?_
      rintro _ _ ⟨_, rfl, _, rfl, _, before, _, rfl, hbefore, _, rfl, _, rfl, rfl⟩
      show handedOver (before ++ [_, _]) = _
      rw [handedOver_append, hbefore]
      rfl

/-! ### Sending a request -/

/-- A request is handed over as it is given to the interceptors, behind the initializers. -/
theorem handsOver_eq {c : Client σ} {body handed : RequestBody} {content : ReadResult Bytes}
    (hhanded : c.handedBody body = .ok handed)
    (hchain : ∀ ready, Tells
      ((c.watched 0).handOn 0 (c.watched 0).interceptors ⟨ready, handed⟩)
      (c.handOn 0 c.interceptors ⟨ready, handed⟩)
      fun _ told => handedOver told = [(ready, content)])
    (parts : RequestParts) (j : Journal σ) :
    c.handsOver parts body j = [((applyInitializers c.initializers parts j).1, content)] := by
  obtain ⟨_, hrun, states, -, -, rfl⟩ := applyInitializers_tells c.initializers 0 parts j []
  have hinit : applyInitializers (c.watched 0).initializers parts (j.observe []) =
      ((applyInitializers c.initializers parts j).1,
        (applyInitializers c.initializers parts j).2.observe
          ([] ++ initializations 0 parts states)) := hrun
  obtain ⟨after, hsend, hafter⟩ := hchain (applyInitializers c.initializers parts j).1
    (applyInitializers c.initializers parts j).2 ([] ++ initializations 0 parts states)
  -- What the initializers note is no call, so what is handed over is what the chain hands over.
  have hevents : ((c.watched 0).execute parts body (j.observe [])).2.world.events =
      initializations 0 parts states ++ after := by
    rw [execute_eq_handOn ((c.handedBody_watched 0 body).trans hhanded), bind_apply, hinit, hsend]
    rfl
  rw [handsOver, hevents, handedOver_append, handedOver_initializations, hafter]
  rfl

/-- A client without interceptors hands a request over as it is. -/
theorem handsOver_of_plain {c : Client σ} (hplain : c.interceptors = []) (parts : RequestParts)
    (body : RequestBody) (j : Journal σ) :
    c.handsOver parts body j =
      [((applyInitializers c.initializers parts j).1, body.readAll.1)] := by
  have hhanded : c.handedBody body = .ok body := by
    rw [handedBody, hplain]
    rfl
  have hwatched : (c.watched 0).interceptors = [] := by
    rw [watched, hplain]
    rfl
  refine handsOver_eq hhanded (fun ready => ?_) parts j
  rw [hplain, hwatched]
  exact c.callTransport_hands 0 ⟨ready, body⟩

/-- Interceptors that pass on hand a request over with its body in memory. -/
theorem handsOver_relayed (c : Client σ) {k : Nat} (hk : 1 ≤ k) (parts : RequestParts)
    {body : RequestBody} {content : Bytes} (hbytes : body.toBytes = .ok content) (j : Journal σ) :
    (c.relayed k).handsOver parts body j =
      [((applyInitializers c.initializers parts j).1, .ok content)] := by
  obtain ⟨n, rfl⟩ := Nat.exists_eq_add_of_le' hk
  have hhanded : (c.relayed (n + 1)).handedBody body = .ok (.ofBytes content) := by
    rw [handedBody, hbytes]
    rfl
  exact handsOver_eq hhanded (fun ready =>
    (c.relayed (n + 1)).runChain_replicate_passOn_hands 0 (n + 1) 0 ready content) parts j

theorem execute_of_plain {c : Client σ} (hplain : c.interceptors = []) (parts : RequestParts)
    (body : RequestBody) :
    c.execute parts body = (do
      let ready ← applyInitializers c.initializers parts
      c.callTransport ready body) := by
  rw [execute, hplain]
  rfl

theorem execute_relayed (c : Client σ) {k : Nat} (hk : 1 ≤ k) (parts : RequestParts)
    {body : RequestBody} {content : Bytes} (hbytes : body.toBytes = .ok content) :
    (c.relayed k).execute parts body = (do
      let ready ← applyInitializers c.initializers parts
      c.callTransport ready (.ofBytes content)) := by
  obtain ⟨n, rfl⟩ := Nat.exists_eq_add_of_le' hk
  rw [execute, hbytes]
  exact congrArg (applyInitializers c.initializers parts >>= ·)
    (funext fun ready => (c.relayed (n + 1)).runChain_replicate_passOn (n + 1) 0 ready content)

/-- **Interceptors that pass on change nothing.** Let a request be built whose body is read without
error, whatever size it declares and however it comes in pieces, and let the transport go by the
content of bodies. Then with any number of interceptors that pass it on, the request has the same
result, the same effects on the world and the same records as without them. Either way the transport
is called once, with the parts that the initializers leave and the content of the body. -/
theorem passing_on_changes_nothing {c : Client σ} (hplain : c.interceptors = [])
    (htransport : c.transport.GoesByContent) {k : Nat} (hk : 1 ≤ k) {d : Draft}
    {parts : RequestParts} {body : RequestBody} (hbuild : (c.build d).1 = .ok (parts, body))
    {content : Bytes} (hbody : body.readAll.1 = .ok content) (j : Journal σ) :
    (c.relayed k).execute parts body j = c.execute parts body j
      ∧ c.handsOver parts body j = [((applyInitializers c.initializers parts j).1, .ok content)]
      ∧ (c.relayed k).handsOver parts body j =
        [((applyInitializers c.initializers parts j).1, .ok content)] := by
  have hbytes : body.toBytes = .ok content := (RequestBody.toBytes_of_build hbuild).trans hbody
  refine ⟨?_, ?_, c.handsOver_relayed hk parts hbytes j⟩
  · rw [c.execute_relayed hk parts hbytes, execute_of_plain hplain, bind_apply, bind_apply,
      callTransport_eq_of_content htransport _ (RequestBody.readAll_ofBytes content) hbody]
  · rw [handsOver_of_plain hplain, hbody]

/-- A client over a transport that answers with the content of the request's body. -/
def echoing : Client Unit where
  transport := {
    name := "echo"
    call := fun request => match request.body.readAll.1 with
      | .ok content => pure (request, .ok { body := .ofBytes content })
      | .error _ => pure (request, .ok {}) }
  codecs := []

theorem echoing_goesByContent : echoing.transport.GoesByContent := by
  intro parts content a b ha hb j
  simp only [echoing, ha, hb]
  exact ⟨rfl, rfl, rfl⟩

end Client

/-- A draft with a body that comes in pieces of two bytes and declares the greatest size of 64
bits. -/
def Draft.oversized : Draft where
  method := .post
  uri := .template "http://h" .none
  body :=
    .stream [{ rest := Bytes.ofText "tiny", pace := fun _ => some 1 }] (some 0xffffffffffffffff)

/-- Three interceptors that pass the oversized body on change nothing. -/
theorem oversized_passed_on :
    ∃ parts body, (Client.echoing.build .oversized).1 = .ok (parts, body)
      ∧ (Client.echoing.relayed 3).execute parts body { world := () } =
        Client.echoing.execute parts body { world := () }
      ∧ (Client.echoing.relayed 3).handsOver parts body { world := () } =
        [(parts, .ok (Bytes.ofText "tiny"))] := by
  have hok : (Client.echoing.build .oversized).1.isOk = true := by decide +kernel
  cases hbuild : (Client.echoing.build .oversized).1 with
  | error e =>
      rw [hbuild] at hok
      cases hok
  | ok request =>
      obtain ⟨parts, body⟩ := request
      obtain ⟨headers, -, hencode⟩ := Client.build_ok hbuild
      obtain ⟨-, hstream⟩ := (Client.encodeBody_ok hencode).2
      have hbody : body.readAll.1 = .ok (Bytes.ofText "tiny") := by
        rw [hstream]
        rfl
      obtain ⟨hsame, -, hgiven⟩ := Client.passing_on_changes_nothing (c := .echoing) rfl
        Client.echoing_goesByContent (k := 3) (by decide) hbuild hbody { world := () }
      exact ⟨parts, body, rfl, hsame, hgiven⟩

end ApiClient
