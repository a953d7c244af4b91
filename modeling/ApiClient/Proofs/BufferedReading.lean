import ApiClient.Proofs.TransportCalls
import Mathlib.Data.List.Forall2

/-!
# ApiClient.Proofs.BufferedReading

Why it does not matter who read how much of a buffered response.

Interceptors and status handlers share one body with the caller, and each of them may read in it and
go back. Two clients are the same but for such reads (`Client.SameButReads`) if their hooks decide
the same and leave the world the same, and what comes out of them is one response of whose body
different amounts were read (`Response.Alike`). Everyone who wants the whole body goes back to its
start first, and there the two responses are one (`Reply.Alike.rewind_eq`).

The relation starts at the transport, which both clients call with the same request, and is carried
outward by one interceptor after the other. A client that does not buffer, or whose transport fails,
has no body to go back in: so that the response is buffered is a hypothesis (`Client.Delivers`). On
the way outward an interceptor may put something else in the place of the response, such as an
error. What may come by beside the response is a parameter of the relation, and the hooks treat it
alike.
-/

namespace ApiClient

variable {σ α β γ δ ε : Type}

open Call

/-! ### Reading in a body in memory -/

/-- One use of a body. -/
inductive BodyUse where
  /-- A read into a buffer of `n` bytes. -/
  | read (n : Nat)
  /-- A read to the end. -/
  | readAll
  /-- Going back to the start. -/
  | rewind

/-- What a use leaves of a body. -/
def BodyUse.apply : BodyUse → ResponseBody → ResponseBody
  | read n, b => (b.read n).2
  | readAll, b => b.readAll.2
  | rewind, b => b.rewind.2

namespace ResponseBody

/-- What uses leave of a body. -/
def after (b : ResponseBody) (uses : List BodyUse) : ResponseBody :=
  uses.foldl (fun b use => use.apply b) b

/-- The body was buffered, and it is in memory. -/
def IsRepeatable (b : ResponseBody) : Prop := b.isBuffered = true ∧ b.data?.isSome = true

/-- A use of bytes in memory moves the position and nothing else. -/
theorem apply_bytes (use : BodyUse) (data : Bytes) (position : Nat) (buffered : Bool) :
    ∃ p, use.apply ⟨.bytes data position, buffered⟩ = ⟨.bytes data p, buffered⟩ := by
  cases use <;> exact ⟨_, rfl⟩

theorem after_bytes (uses : List BodyUse) (data : Bytes) (position : Nat) (buffered : Bool) :
    ∃ p, after ⟨.bytes data position, buffered⟩ uses = ⟨.bytes data p, buffered⟩ := by
  induction uses generalizing position with
  | nil => exact ⟨position, rfl⟩
  | cons use rest ih =>
      obtain ⟨p, hp⟩ := apply_bytes use data position buffered
      obtain ⟨q, hq⟩ := ih p
      refine ⟨q, ?_⟩
      rw [after, List.foldl_cons, hp]
      exact hq

/-- However it was used, a body in memory is the same again at its start. -/
theorem rewind_after {b : ResponseBody} (h : b.IsRepeatable) (uses : List BodyUse) :
    (b.after uses).rewind.2 = b.rewind.2 ∧ (b.after uses).isBuffered = true := by
  obtain ⟨content, buffered⟩ := b
  obtain ⟨hbuffered, hdata⟩ := h
  cases content with
  | stream source => cases hdata
  | bytes data position =>
      obtain ⟨p, hp⟩ := after_bytes uses data position buffered
      rw [hp]
      exact ⟨rfl, hbuffered⟩

theorem IsRepeatable.rewind {b : ResponseBody} (h : b.IsRepeatable) : b.rewind.2.IsRepeatable := by
  obtain ⟨content, buffered⟩ := b
  cases content with
  | stream source => cases h.2
  | bytes data position => exact ⟨h.1, rfl⟩

/-- Buffering that succeeds makes a body that can be read again. -/
theorem isRepeatable_buffer {b : ResponseBody} (h : b.buffer.1 = .ok ()) :
    b.buffer.2.IsRepeatable := by
  obtain ⟨content, buffered⟩ := b
  cases content with
  | bytes data position => exact ⟨rfl, rfl⟩
  | stream source =>
      unfold buffer at h ⊢
      dsimp only at h ⊢
      rcases hread : source.readAll with ⟨_ | bytes, left⟩
      · rw [hread] at h
        cases h
      · exact ⟨rfl, rfl⟩

end ResponseBody

/-! ### Responses that differ in how much was read -/

/-- Results that are one of the others, the same in both runs, or values that are related. -/
inductive SameOr (others : Except ε α → Prop) (R : α → α → Prop) :
    Except ε α → Except ε α → Prop where
  /-- Both are this one of the others. -/
  | same (x : Except ε α) (h : others x) : SameOr others R x x
  /-- Both are values. -/
  | related {a b : α} (h : R a b) : SameOr others R (.ok a) (.ok b)

/-- The response behind uses of its body. -/
def Response.used (r : Response) (uses : List BodyUse) : Response :=
  { r with body := r.body.after uses }

/-- The responses are one whose body can be read again, behind uses of it. -/
def Response.Alike (r₁ r₂ : Response) : Prop :=
  ∃ (r : Response) (uses₁ uses₂ : List BodyUse), r.body.IsRepeatable
    ∧ r₁ = r.used uses₁ ∧ r₂ = r.used uses₂

theorem Response.alike_self {r : Response} (h : r.body.IsRepeatable) : r.Alike r :=
  ⟨r, [], [], h, rfl, rfl⟩

/-- Responses stay alike whatever is read next in either of them. -/
theorem Response.Alike.used {r₁ r₂ : Response} (h : r₁.Alike r₂) (uses₁ uses₂ : List BodyUse) :
    (r₁.used uses₁).Alike (r₂.used uses₂) := by
  obtain ⟨r, before₁, before₂, hbody, rfl, rfl⟩ := h
  refine ⟨r, before₁ ++ uses₁, before₂ ++ uses₂, hbody, ?_, ?_⟩
  · simp only [Response.used, ResponseBody.after, List.foldl_append]
  · simp only [Response.used, ResponseBody.after, List.foldl_append]

/-- The replies have the same codecs, and responses that are alike. -/
def Reply.Alike (r₁ r₂ : Reply) : Prop := r₁.codecs = r₂.codecs ∧ r₁.response.Alike r₂.response

namespace Reply

variable {r₁ r₂ : Reply}

theorem rewind_snd_of_isBuffered {r : Reply} (h : r.response.body.isBuffered = true) :
    r.rewind.2 = r.withBody r.response.body.rewind.2 := by
  unfold rewind
  rw [if_pos (show r.isBuffered = true from h)]

/-- At the start of the body alike replies are one. -/
theorem Alike.rewind_eq (h : r₁.Alike r₂) :
    r₁.rewind.2 = r₂.rewind.2 ∧ r₁.rewind.2.response.body.IsRepeatable := by
  obtain ⟨response₁, codecs⟩ := r₁
  obtain ⟨response₂, _⟩ := r₂
  obtain ⟨rfl, r, uses₁, uses₂, hbody, rfl, rfl⟩ := h
  have hrewind : ∀ uses,
      (Reply.mk (r.used uses) codecs).rewind.2 = ⟨{ r with body := r.body.rewind.2 }, codecs⟩ := by
    intro uses
    obtain ⟨hstart, hbuffered⟩ := ResponseBody.rewind_after hbody uses
    rw [rewind_snd_of_isBuffered hbuffered, ← hstart]
    rfl
  rw [hrewind, hrewind]
  exact ⟨rfl, hbody.rewind⟩

/-- Reading changes the body alone, so alike replies have the same status. -/
theorem Alike.status_eq (h : r₁.Alike r₂) : r₁.response.status = r₂.response.status := by
  obtain ⟨-, r, _, _, -, h₁, h₂⟩ := h
  rw [h₁, h₂]
  rfl

theorem Alike.headers_eq (h : r₁.Alike r₂) : r₁.response.headers = r₂.response.headers := by
  obtain ⟨-, r, _, _, -, h₁, h₂⟩ := h
  rw [h₁, h₂]
  rfl

theorem Alike.readBytes_eq (h : r₁.Alike r₂) : r₁.readBytes = r₂.readBytes := by
  rw [readBytes, readBytes, h.rewind_eq.1]

theorem Alike.readText_eq (h : r₁.Alike r₂) : r₁.readText = r₂.readText := by
  rw [readText, readText, h.rewind_eq.1]

theorem Alike.decode_eq (h : r₁.Alike r₂) (target : Expectation) :
    r₁.decode target = r₂.decode target := by
  rw [decode, decode, h.readBytes_eq]

/-- Without a handler, alike replies fail with the same error, or stay alike. -/
theorem Alike.checkStatus (h : r₁.Alike r₂) :
    SameOr (fun _ => True) Reply.Alike (r₁.checkStatus.2.map fun _ => r₁.checkStatus.1)
      (r₂.checkStatus.2.map fun _ => r₂.checkStatus.1) := by
  unfold Reply.checkStatus
  rw [h.status_eq]
  split
  · exact .related h
  · have herror : r₁.statusError = r₂.statusError := by
      rw [statusError, statusError, h.readBytes_eq]
    rw [herror]
    exact .same _ trivial

end Reply

/-! ### Runs that agree -/

namespace Call

/-- From this state on the computations have related results, and leave the same state. -/
def AgreeAt (j : Journal σ) (m₁ : Call σ α) (m₂ : Call σ β) (R : α → β → Prop) : Prop :=
  R (m₁ j).1 (m₂ j).1 ∧ (m₁ j).2 = (m₂ j).2

/-- The computations have related results from every state on, and leave the same state. -/
def Agree (m₁ : Call σ α) (m₂ : Call σ β) (R : α → β → Prop) : Prop := ∀ j, AgreeAt j m₁ m₂ R

variable {j : Journal σ} {m₁ : Call σ α} {m₂ : Call σ β} {R : α → β → Prop}

theorem agree_pure {a : α} {b : β} (h : R a b) : Agree (σ := σ) (pure a) (pure b) R :=
  fun _ => ⟨h, rfl⟩

theorem agree_eq (m : Call σ α) : Agree m m Eq := fun _ => ⟨rfl, rfl⟩

/-- Computations that agree go on from related results and the same state. -/
theorem AgreeAt.bind {next₁ : α → Call σ γ} {next₂ : β → Call σ δ} {S : γ → δ → Prop}
    (h : AgreeAt j m₁ m₂ R) (hnext : ∀ a b, R a b → AgreeAt (m₁ j).2 (next₁ a) (next₂ b) S) :
    AgreeAt j (m₁ >>= next₁) (m₂ >>= next₂) S := by
  have hgo := hnext _ _ h.1
  refine ⟨?_, ?_⟩
  · show S (next₁ (m₁ j).1 (m₁ j).2).1 (next₂ (m₂ j).1 (m₂ j).2).1
    rw [← h.2]
    exact hgo.1
  · show (next₁ (m₁ j).1 (m₁ j).2).2 = (next₂ (m₂ j).1 (m₂ j).2).2
    rw [← h.2]
    exact hgo.2

theorem Agree.bind {next₁ : α → Call σ γ} {next₂ : β → Call σ δ} {S : γ → δ → Prop}
    (h : Agree m₁ m₂ R) (hnext : ∀ a b, R a b → Agree (next₁ a) (next₂ b) S) :
    Agree (m₁ >>= next₁) (m₂ >>= next₂) S := fun j =>
  (h j).bind fun a b hab => hnext a b hab _

theorem AgreeAt.eq {m₁ m₂ : Call σ α} (h : AgreeAt j m₁ m₂ Eq) : m₁ j = m₂ j := Prod.ext h.1 h.2

end Call

/-! ### Hooks that differ in how much they read -/

section Hooks

variable (others : Outcome → Prop)

/-- What came back in two runs: the same of the request, and outcomes that are alike. An outcome
that has nothing to do with the buffered response, such as an error, is one of `others`. -/
def BackAlike (back₁ back₂ : RequestParts × Outcome) : Prop :=
  back₁.1 = back₂.1 ∧ SameOr others Response.Alike back₁.2 back₂.2

/-- The decisions are the same, and what is done afterwards differs in how much it reads. -/
inductive Interception.SameButReads : Interception σ → Interception σ → Prop where
  /-- Both end the call in the same way. -/
  | answer (parts : RequestParts) (outcome : Outcome) :
      SameButReads (.answer parts outcome) (.answer parts outcome)
  /-- Both pass the same request on. Of outcomes that are alike they make outcomes that are
  alike. -/
  | forward (parts : RequestParts) (body : Bytes)
      {resume₁ resume₂ : RequestParts → Outcome → Call σ (RequestParts × Outcome)}
      (hresume : ∀ left outcome₁ outcome₂, SameOr others Response.Alike outcome₁ outcome₂ →
        Agree (resume₁ left outcome₁) (resume₂ left outcome₂) (BackAlike others)) :
      SameButReads (.forward parts body resume₁) (.forward parts body resume₂)

/-- The interceptors differ in how much they read of a buffered response. -/
def Interceptor.SameButReads (hook₁ hook₂ : Interceptor σ) : Prop :=
  ∀ position parts body, Agree (hook₁.intercept position parts body)
    (hook₂.intercept position parts body) (Interception.SameButReads others)

/-- The status handlers differ in how much they read of a buffered reply. -/
structure StatusHandler.SameButReads (handler₁ handler₂ : StatusHandler σ) : Prop where
  /-- They are for the same statuses. -/
  accepts_eq : handler₁.accepts = handler₂.accepts
  /-- They have the same result. -/
  act_agree : ∀ parts (reply : Reply), reply.response.body.IsRepeatable →
    Agree (handler₁.act parts reply) (handler₂.act parts reply) fun back₁ back₂ =>
      back₁.1.Alike back₂.1 ∧ back₁.2 = back₂.2
  /-- They do the same with any other reply. -/
  act_same : ∀ parts (reply : Reply), others (.ok reply.response) →
    handler₁.act parts reply.rewind.2 = handler₂.act parts reply.rewind.2

/-- The clients differ in how much their interceptors and their status handlers read. -/
structure Client.SameButReads (c₁ c₂ : Client σ) : Prop where
  /-- The interceptors differ in how much they read. -/
  interceptors : List.Forall₂ (Interceptor.SameButReads others) c₁.interceptors c₂.interceptors
  /-- The status handlers differ in how much they read. -/
  statusHandlers :
    List.Forall₂ (StatusHandler.SameButReads others) c₁.statusHandlers c₂.statusHandlers
  /-- Everything else is the same. -/
  others_eq : c₂ = { c₁ with interceptors := c₂.interceptors, statusHandlers := c₂.statusHandlers }

end Hooks

variable {others : Outcome → Prop}

/-- Where one of the interceptors passes a request on, the other one does too. -/
theorem Interceptor.SameButReads.forward {hook₁ hook₂ : Interceptor σ}
    (h : SameButReads others hook₁ hook₂) {position : ChainPosition} {parts onward : RequestParts}
    {body carried : Bytes} {j decided : Journal σ}
    {resume₁ : RequestParts → Outcome → Call σ (RequestParts × Outcome)}
    (hforward : hook₁.intercept position parts body j =
      (.forward onward carried resume₁, decided)) :
    ∃ resume₂, hook₂.intercept position parts body j = (.forward onward carried resume₂, decided)
      ∧ ∀ left outcome₁ outcome₂, SameOr others Response.Alike outcome₁ outcome₂ →
        Agree (resume₁ left outcome₁) (resume₂ left outcome₂) (BackAlike others) := by
  obtain ⟨hdecision, hstate⟩ := h position parts body j
  rw [hforward] at hdecision hstate
  rcases hdecided : hook₂.intercept position parts body j with ⟨decision, left⟩
  rw [hdecided] at hdecision hstate
  obtain rfl : decided = left := hstate
  cases hdecision with
  | forward _ _ hresume => exact ⟨_, rfl, hresume⟩

/-- The interceptor that reads what comes back from another one, as `schedule` says. -/
def Interceptor.thenReads (hook : Interceptor σ)
    (schedule : RequestParts → Response → List BodyUse) : Interceptor σ where
  intercept position parts body := do
    match ← hook.intercept position parts body with
    | .answer parts outcome => return .answer parts outcome
    | .forward parts body resume =>
      return .forward parts body fun left outcome => do
        let (left, outcome) ← resume left outcome
        return (left, outcome.map fun response => response.used (schedule left response))

/-- Whatever more they read, interceptors differ in how much they read, if no response comes by that
was not buffered. -/
theorem Interceptor.SameButReads.thenReads {hook₁ hook₂ : Interceptor σ}
    (h : SameButReads others hook₁ hook₂) (hothers : ∀ response, ¬ others (.ok response))
    (schedule₁ schedule₂ : RequestParts → Response → List BodyUse) :
    SameButReads others (hook₁.thenReads schedule₁) (hook₂.thenReads schedule₂) := by
  intro position parts body
  refine (h position parts body).bind ?_
  rintro _ _ (⟨parts, outcome⟩ | ⟨parts, body, hresume⟩)
  · exact agree_pure (.answer parts outcome)
  · refine agree_pure (.forward parts body fun left outcome₁ outcome₂ halike => ?_)
    refine (hresume left outcome₁ outcome₂ halike).bind ?_
    rintro ⟨left₁, back₁⟩ ⟨left₂, back₂⟩ ⟨hleft, hback⟩
    refine agree_pure ⟨hleft, ?_⟩
    cases hback with
    | related hresponse => exact .related (hresponse.used _ _)
    | same _ hother =>
        cases back₁ with
        | error e => exact .same _ hother
        | ok response => exact absurd hother (hothers response)

/-- An interceptor that changes nothing reads nothing. -/
theorem Interceptor.passOn_sameButReads : SameButReads others (passOn : Interceptor σ) passOn := by
  intro position parts body
  exact agree_pure
    (.forward parts body fun left outcome₁ outcome₂ halike => agree_pure ⟨rfl, halike⟩)

/-! ### The way to the transport -/

namespace Client

variable {c c₁ c₂ : Client σ} {j : Journal σ}

/-- A buffered response comes back from the transport as one that can be read again. -/
theorem Buffers.callTransport_ok {request : Request} (h : c.Buffers request j) :
    ∃ response, (c.callTransport request.parts request.body j).1.2 = .ok response
      ∧ response.body.IsRepeatable := by
  obtain ⟨left, response, answered, hcall, haccepts, hbody⟩ := h
  have hmoved := ResponseBody.isRepeatable_buffer hbody
  refine ⟨{ response with body := response.body.buffer.2 }, ?_, hmoved⟩
  simp only [callTransport_eq_call, bufferResponse, bind_apply]
  rw [show (⟨request.parts, request.body⟩ : Request) = request from rfl, hcall]
  simp only [bind_apply]
  rw [haccepts]
  rcases hbuffer : response.body.buffer with ⟨_ | _, body⟩
  · rw [hbuffer] at hbody
    cases hbody
  · rfl

theorem SameButReads.callTransport_eq (h : c₁.SameButReads others c₂) :
    c₂.callTransport = c₁.callTransport := by
  rw [h.others_eq]
  rfl

theorem SameButReads.prepare_eq (h : c₁.SameButReads others c₂) : c₂.prepare = c₁.prepare := by
  rw [h.others_eq]
  rfl

theorem SameButReads.handedBody_eq (h : c₁.SameButReads others c₂) (body : RequestBody) :
    c₂.handedBody body = c₁.handedBody body := by
  have hempty : c₂.interceptors.isEmpty = c₁.interceptors.isEmpty := by
    rw [Bool.eq_iff_iff, List.isEmpty_iff_length_eq_zero, List.isEmpty_iff_length_eq_zero,
      h.interceptors.length_eq]
  rw [handedBody, handedBody, hempty]

/-- The request reaches the transport through the interceptors of either client. -/
theorem SameButReads.reaches (h : c₁.SameButReads others c₂) {hooks₁ hooks₂ : List (Interceptor σ)}
    (hhooks : List.Forall₂ (Interceptor.SameButReads others) hooks₁ hooks₂) {passed : Nat}
    {first request : Request} {sent : Journal σ}
    (hreaches : c₁.Reaches passed hooks₁ first j request sent) :
    c₂.Reaches passed hooks₂ first j request sent := by
  induction hreaches generalizing hooks₂ with
  | transport passed request j =>
      cases hhooks
      exact .transport passed request j
  | passage hforward _ ih =>
      cases hhooks with
      | cons hhook hrest =>
          obtain ⟨_, hforward₂, -⟩ := hhook.forward hforward
          rw [h.interceptors.length_eq] at hforward₂
          exact .passage hforward₂ (ih hrest)

/-- What one client delivers the other one delivers too. -/
theorem SameButReads.delivers (h : c₁.SameButReads others c₂) {d : Draft}
    (hdelivers : c₁.Delivers d j) : c₂.Delivers d j := by
  obtain ⟨parts, ready, body, handed, rest, request, built, prepared, sent, hbuild, hinit, hhanded,
    hreaches, left, response, answered, hcall, haccepts, hbody⟩ := hdelivers
  have hinitializers : c₂.initializers = c₁.initializers := by rw [h.others_eq]
  have htransport : c₂.transport = c₁.transport := by rw [h.others_eq]
  have hpolicy : c₂.buffers = c₁.buffers := by rw [h.others_eq]; rfl
  refine .intro parts ready body handed rest request built prepared sent
    (by rw [h.prepare_eq, hbuild])
    (by rw [hinitializers, hinit]) ((h.handedBody_eq body).trans hhanded)
    (h.reaches h.interceptors hreaches) ?_
  exact .intro left response answered (by rw [htransport, hcall]) (by rw [hpolicy, haccepts]) hbody

/-- Outcomes that are alike at the transport are alike at every interceptor on the way back. -/
theorem SameButReads.handOn_agree (h : c₁.SameButReads others c₂)
    {hooks₁ hooks₂ : List (Interceptor σ)}
    (hhooks : List.Forall₂ (Interceptor.SameButReads others) hooks₁ hooks₂) {passed : Nat}
    {first request : Request} {sent : Journal σ}
    (hreaches : c₁.Reaches passed hooks₁ first j request sent)
    (hbuffers : c₁.Buffers request sent) :
    AgreeAt j (c₁.handOn passed hooks₁ first) (c₂.handOn passed hooks₂ first)
      (BackAlike others) := by
  -- On the way inward both runs are in one state. What is carried outward is that the outcomes are
  -- alike: the buffered response is alike to itself, and every interceptor keeps them so.
  induction hreaches generalizing hooks₂ with
  | transport passed request j =>
      cases hhooks
      obtain ⟨response, hresponse, hbody⟩ := hbuffers.callTransport_ok
      rw [handOn, handOn, h.callTransport_eq]
      refine ⟨⟨rfl, ?_⟩, rfl⟩
      rw [hresponse]
      exact .related (Response.alike_self hbody)
  | passage hforward _ ih =>
      cases hhooks with
      | cons hhook hrest =>
          obtain ⟨resume₂, hforward₂, hresume⟩ := hhook.forward hforward
          rw [h.interceptors.length_eq] at hforward₂
          rw [AgreeAt, handOn_forward hforward, handOn_forward hforward₂]
          refine (ih hrest hbuffers).bind ?_
          rintro ⟨left, outcome₁⟩ ⟨_, outcome₂⟩ ⟨rfl, houtcome⟩
          exact hresume left outcome₁ outcome₂ houtcome _

/-- What came back from sending in two runs: the same of the request, and replies that are alike. -/
def SentAlike (others : Outcome → Prop)
    (back₁ back₂ : RequestParts × Except ClientError Reply) : Prop :=
  back₁.1 = back₂.1 ∧
    SameOr (fun got => others (got.map Reply.response)) Reply.Alike back₁.2 back₂.2

/-- The same of the request and alike replies come back from sending. -/
theorem SameButReads.send_agree (h : c₁.SameButReads others c₂) {parts ready : RequestParts}
    {body handed : RequestBody} {prepared sent : Journal σ} {request : Request}
    (hinit : applyInitializers c₁.initializers parts j = (ready, prepared))
    (hhanded : c₁.handedBody body = .ok handed)
    (hreaches : c₁.Reaches 0 c₁.interceptors ⟨ready, handed⟩ prepared request sent)
    (hbuffers : c₁.Buffers request sent) :
    AgreeAt j (c₁.send (parts, body)) (c₂.send (parts, body)) (SentAlike others) := by
  have hinitializers : c₂.initializers = c₁.initializers := by rw [h.others_eq]
  have hcodecs : c₂.codecs = c₁.codecs := by rw [h.others_eq]
  have hexecute : AgreeAt j (c₁.execute parts body) (c₂.execute parts body) (BackAlike others) := by
    rw [execute_eq_handOn hhanded, execute_eq_handOn ((h.handedBody_eq body).trans hhanded),
      hinitializers, AgreeAt, bind_apply, bind_apply, hinit]
    exact h.handOn_agree h.interceptors hreaches hbuffers
  refine hexecute.bind ?_
  rintro ⟨left₁, outcome₁⟩ ⟨left₂, outcome₂⟩ ⟨hleft, houtcome⟩
  rw [hcodecs]
  refine agree_pure ⟨hleft, ?_⟩ _
  cases houtcome with
  | related hresponse => exact .related ⟨rfl, hresponse⟩
  | same _ hother => cases outcome₁ <;> exact .same _ hother

end Client

/-! ### Handling the status -/

/-- Both searches find nothing, or handlers that differ in how much they read. -/
theorem StatusHandler.find_agree {handlers₁ handlers₂ : List (StatusHandler σ)}
    (h : List.Forall₂ (StatusHandler.SameButReads others) handlers₁ handlers₂) (status : Status) :
    Agree (find status handlers₁) (find status handlers₂) (Option.Rel (SameButReads others)) := by
  induction h with
  | nil => exact agree_pure .none
  | cons hhandler _ ih =>
      rw [find, find, ← hhandler.accepts_eq]
      refine (agree_eq _).bind ?_
      rintro accepts _ rfl
      cases accepts with
      | true => exact agree_pure (.some hhandler)
      | false => exact ih

section HandleStatus

variable {handlers₁ handlers₂ : List (StatusHandler σ)}
  (hhandlers : List.Forall₂ (StatusHandler.SameButReads others) handlers₁ handlers₂)

include hhandlers

/-- Handlers that differ in how much they read decide the same about alike replies. -/
theorem Reply.Alike.handleStatus_agree {r₁ r₂ : Reply} (h : r₁.Alike r₂) (parts : RequestParts) :
    Agree (r₁.handleStatus handlers₁ parts) (r₂.handleStatus handlers₂ parts) fun back₁ back₂ =>
      SameOr (fun _ => True) Reply.Alike (back₁.2.map fun _ => back₁.1)
        (back₂.2.map fun _ => back₂.1) := by
  unfold Reply.handleStatus
  rw [h.status_eq]
  refine (StatusHandler.find_agree hhandlers r₂.response.status).bind ?_
  rintro _ _ (hhandler | _)
  · obtain ⟨hrewind, hbody⟩ := h.rewind_eq
    refine (agree_eq _).bind fun _ _ _ => ?_
    rw [← hrewind]
    refine (hhandler.act_agree parts r₁.rewind.2 hbody).bind ?_
    rintro ⟨after₁, result⟩ ⟨after₂, _⟩ ⟨hafter, rfl⟩
    refine agree_pure ?_
    cases result with
    | error e => exact .same _ trivial
    | ok _ => exact .related hafter
  · exact agree_pure h.checkStatus

/-- They do the same with any other reply. -/
theorem Reply.handleStatus_eq {r : Reply} (h : others (.ok r.response)) (parts : RequestParts) :
    Agree (r.handleStatus handlers₁ parts) (r.handleStatus handlers₂ parts) Eq := by
  unfold Reply.handleStatus
  refine (StatusHandler.find_agree hhandlers r.response.status).bind ?_
  rintro _ _ (hhandler | _)
  · dsimp only
    rw [hhandler.act_same parts r h]
    exact agree_eq _
  · exact agree_eq _

end HandleStatus

/-! ### Taking what came back -/

namespace Terminal

/-- Every terminal does the same with alike replies. -/
theorem finish_eq {got₁ got₂ : Except ClientError Reply}
    (h : SameOr (fun _ => True) Reply.Alike got₁ got₂) (t : Terminal α) :
    t.finish (σ := σ) got₁ = t.finish got₂ := by
  cases h with
  | same => rfl
  | related h =>
      cases t with
      | body target => simp only [finish, Except.bind, h.decode_eq target]
      | bytes => simp only [finish, Except.bind, h.readBytes_eq]
      | text => simp only [finish, Except.bind, h.readText_eq]
      | entity target =>
          simp only [finish, Except.bind, h.decode_eq target, h.status_eq, h.headers_eq]
      | bodilessEntity => simp only [finish, h.readBytes_eq, h.status_eq, h.headers_eq]

end Terminal

namespace Client

variable {c₁ c₂ : Client σ} {d : Draft} {j : Journal σ}

/-- Either client builds the same request, and sending it gives alike replies. -/
theorem SameButReads.sends_alike (h : c₁.SameButReads others c₂) (hdelivers : c₁.Delivers d j) :
    ∃ prepared rest built, c₁.prepare d j = ((.ok prepared, rest), built)
      ∧ c₂.prepare d j = ((.ok prepared, rest), built)
      ∧ AgreeAt built (c₁.send prepared) (c₂.send prepared) (SentAlike others) := by
  obtain ⟨parts, ready, body, handed, rest, request, built, prepared, sent, hbuild, hinit, hhanded,
    hreaches, hbuffers⟩ := hdelivers
  exact ⟨(parts, body), rest, built, hbuild, by rw [h.prepare_eq, hbuild],
    h.send_agree hinit hhanded hreaches hbuffers⟩

theorem SameButReads.fetch_eq (h : c₁.SameButReads others c₂) (hdelivers : c₁.Delivers d j)
    {handlers₁ handlers₂ : List (StatusHandler σ)}
    (hhandlers : List.Forall₂ (StatusHandler.SameButReads others) handlers₁ handlers₂)
    (t : Terminal α) :
    c₁.fetch d handlers₁ t j = c₂.fetch d handlers₂ t j := by
  obtain ⟨request, rest, built, hbuild₁, hbuild₂, hsend⟩ := h.sends_alike hdelivers
  rw [ApiClient.fetch_eq, ApiClient.fetch_eq, bind_apply, bind_apply, hbuild₁, hbuild₂,
    Terminal.run_eq_finish, Terminal.run_eq_finish]
  have hall := List.rel_append hhandlers h.statusHandlers
  refine AgreeAt.eq
    (AgreeAt.bind (R := SameOr (fun _ => True) Reply.Alike) ?_ fun got₁ got₂ hgot => ?_)
  · refine hsend.bind ?_
    rintro ⟨left, got₁⟩ ⟨_, got₂⟩ ⟨rfl, hgot⟩
    cases hgot with
    | related hreply =>
        exact (hreply.handleStatus_agree hall left).bind
          (fun back₁ back₂ hback => agree_pure hback) _
    | same _ hother =>
        cases got₁ with
        | error e => exact agree_pure (.same _ trivial) _
        | ok reply =>
            -- The reply may be one that cannot be read again, but both clients have the same one.
            refine (reply.handleStatus_eq hall hother left).bind ?_ _
            rintro back _ rfl
            exact agree_pure (.same _ trivial)
  · rw [t.finish_eq hgot]
    exact agree_eq _ _

theorem SameButReads.exchange_eq (h : c₁.SameButReads others c₂) (hdelivers : c₁.Delivers d j)
    (handler : RequestParts → Reply → Call σ (Reply × Except Failure α)) :
    c₁.exchange handler d j = c₂.exchange handler d j := by
  obtain ⟨request, rest, built, hbuild₁, hbuild₂, hsend⟩ := h.sends_alike hdelivers
  unfold Client.exchange
  rw [bind_apply, bind_apply, hbuild₁, hbuild₂]
  refine AgreeAt.eq (hsend.bind ?_)
  rintro ⟨left, got₁⟩ ⟨_, got₂⟩ ⟨rfl, hgot⟩
  cases hgot with
  | same => exact agree_eq _ _
  | related hreply =>
      -- The handler of an exchange gets the reply at the start of its body.
      dsimp only
      rw [hreply.rewind_eq.1]
      exact agree_eq _ _

end Client

/-- **Reading a buffered response is transparent.** Let two clients differ in how much their
interceptors and status handlers read, and let the request of a draft reach the transport, whose
response is buffered. Then every way to end a retrieval, and every exchange, has the same result and
leaves the same state with either client, and the transport is called once. -/
theorem buffered_reading_is_transparent {c₁ c₂ : Client σ} (h : c₁.SameButReads others c₂)
    {d : Draft} {j : Journal σ} (hdelivers : c₁.Delivers d j) :
    (∀ {α : Type} (t : Terminal α) {handlers₁ handlers₂ : List (StatusHandler σ)},
      List.Forall₂ (StatusHandler.SameButReads others) handlers₁ handlers₂ →
        c₁.fetch d handlers₁ t j = c₂.fetch d handlers₂ t j
          ∧ CallsAt j ((c₁.watched handlers₁.length).fetch d (watchHandlers 0 handlers₁) t)
            (c₁.fetch d handlers₁ t) 1
          ∧ CallsAt j ((c₂.watched handlers₂.length).fetch d (watchHandlers 0 handlers₂) t)
            (c₂.fetch d handlers₂ t) 1)
      ∧ ∀ {α : Type} (calls : Nat)
        (handler : RequestParts → Reply → Call σ (Reply × Except Failure α)),
        c₁.exchange handler d j = c₂.exchange handler d j
          ∧ CallsAt j ((c₁.watched calls).exchange (watchExchange handler) d)
            (c₁.exchange handler d) 1
          ∧ CallsAt j ((c₂.watched calls).exchange (watchExchange handler) d)
            (c₂.exchange handler d) 1 := by
  have hdelivers₂ := h.delivers hdelivers
  refine ⟨fun t handlers₁ handlers₂ hhandlers => ⟨h.fetch_eq hdelivers hhandlers t,
    hdelivers.fetch_callsAt handlers₁ t, hdelivers₂.fetch_callsAt handlers₂ t⟩, fun calls handler =>
    ⟨h.exchange_eq hdelivers handler, hdelivers.exchange_callsAt calls handler,
      hdelivers₂.exchange_callsAt calls handler⟩⟩

/-- A greeting that comes from a stream. -/
def Response.greeting : Response := { body := .ofStream (.ofBytes (.ofText "hello")) }

/-- A client that buffers every response, over a transport that greets, with an interceptor that
reads as `schedule` says. -/
def Client.greeted (schedule : List BodyUse) : Client Unit where
  transport := { name := "greeter", call := fun request => pure (request, .ok .greeting) }
  interceptors := [Interceptor.passOn.thenReads fun _ _ => schedule]
  buffering := some fun _ _ => pure true
  codecs := []

/-- Whatever the interceptors read, only the buffered response comes by. -/
theorem Client.greeted_sameButReads (schedule₁ schedule₂ : List BodyUse) :
    (greeted schedule₁).SameButReads (fun _ => False) (greeted schedule₂) where
  interceptors := .cons (Interceptor.passOn_sameButReads.thenReads (fun _ => id) _ _) .nil
  statusHandlers := .nil
  others_eq := rfl

theorem Client.greeted_delivers (schedule : List BodyUse) :
    (greeted schedule).Delivers .root { world := () } := by
  have hdata : ((greeted []).build .root).1.map (fun prepared => prepared.2.data?) =
      .ok (some []) := by
    decide +kernel
  -- Building does not look at interceptors, so the request is the same whatever they read.
  have hsame : (greeted schedule).build .root = (greeted []).build .root := rfl
  rcases hbuild : (greeted []).build .root with ⟨_ | ⟨parts, body⟩, rest⟩
  · rw [hbuild] at hdata
    cases hdata
  · rw [hbuild] at hdata
    cases body with
    | stream source size => cases hdata
    | bytes data position =>
        let built : Journal Unit :=
          (log .debug s!"Built request {lineText parts}" { world := () }).2
        have hprepare : (greeted schedule).prepare .root { world := () } =
            ((.ok (parts, .bytes data position), rest), built) := by
          unfold prepare
          rw [hsame, hbuild]
          rfl
        exact .intro parts parts (.bytes data position) (.ofBytes data) rest ⟨parts, .ofBytes data⟩
          built built built hprepare rfl rfl (.passage rfl (.transport _ _ _))
          (.intro _ .greeting _ rfl rfl rfl)

/-- The body is the same whether an interceptor reads three bytes of it or reads it to the end and
then reads once more from the start. -/
theorem greeted_reading_is_transparent :
    ((Client.greeted [.read 3]).fetch .root [] .text { world := () }).1.toOption = some "hello"
      ∧ (Client.greeted [.read 3]).fetch .root [] .text { world := () } =
        (Client.greeted [.readAll, .rewind, .read 1]).fetch .root [] .text { world := () } :=
  ⟨by decide +kernel, ((buffered_reading_is_transparent (Client.greeted_sameButReads _ _)
    (Client.greeted_delivers _)).1 .text .nil).1⟩

end ApiClient
