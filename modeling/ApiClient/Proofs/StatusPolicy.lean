import ApiClient.Proofs.Chain

/-!
# ApiClient.Proofs.StatusPolicy

What the status of a reply decides.

The handlers of a call and those of the client are one list, asked in order until one accepts. The
search and what is done with its result are proved about together (`find_bind_tells`): the search
under observation finds the twin of a handler and not the handler itself, so the results of the two
searches cannot be compared, but what comes of them can.

Whether a handler accepts may depend on the world, so "the first handler that accepts" means the
first that does so when it is asked.
-/

namespace ApiClient

variable {σ β : Type}

open Call

/-! ### Kinds of errors that name a status -/

@[simp] theorem ClientErrorStatus.status_ofStatus (s : Status) :
    (ClientErrorStatus.ofStatus s).status = s := by
  obtain ⟨code, hcode⟩ := s
  unfold ClientErrorStatus.ofStatus
  split <;> simp_all [ClientErrorStatus.status]

@[simp] theorem ServerErrorStatus.status_ofStatus (s : Status) :
    (ServerErrorStatus.ofStatus s).status = s := by
  obtain ⟨code, hcode⟩ := s
  unfold ServerErrorStatus.ofStatus
  split <;> simp_all [ServerErrorStatus.status]

/-- The kind names this status: with its class if it is a registered error, else as unknown. -/
structure ClientErrorKind.Names (kind : ClientErrorKind) (s : Status) : Prop where
  /-- The status is the one that the kind names. -/
  status : kind.status? = some s
  /-- Registered statuses from 400 to 499 blame the request. -/
  client : (∃ t, kind = .clientStatus t) ↔ s.reason?.isSome ∧ 400 ≤ s.code ∧ s.code ≤ 499
  /-- Registered statuses from 500 to 599 blame the server. -/
  server : (∃ t, kind = .serverStatus t) ↔ s.reason?.isSome ∧ 500 ≤ s.code ∧ s.code ≤ 599
  /-- All others are unknown. -/
  unknown : kind = .unknownStatus s ↔ ¬ (s.reason?.isSome ∧ 400 ≤ s.code ∧ s.code ≤ 599)

theorem ClientErrorKind.names_ofStatus (s : Status) : (ClientErrorKind.ofStatus s).Names s := by
  unfold ClientErrorKind.ofStatus Status.isClientError Status.isServerError
  cases hreason : s.reason? with
  | none => constructor <;> simp [status?, hreason]
  | some reason =>
      by_cases hclient : 400 ≤ s.code ∧ s.code < 500
      · constructor <;> simp [status?, hreason, hclient] <;> omega
      · by_cases hserver : 500 ≤ s.code ∧ s.code < 600
        · constructor <;> simp [status?, hreason, hclient, hserver] <;> omega
        · constructor <;> simp [status?, hreason, hclient, hserver] <;> omega

/-! ### The whole body of a reply -/

/-- What a body has for one who wants all of it: everything if it was buffered, else what was not
read yet. A stream that fails has nothing. -/
def ResponseBody.remaining (b : ResponseBody) : ReadResult Bytes :=
  match b.content with
  | .bytes data position => .ok (if b.isBuffered then data else data.drop position)
  | .stream source =>
    match source.drain with
    | (_, some e, _) => .error e
    | (delivered, none, _) => .ok delivered

theorem Reply.readBytes_fst (r : Reply) :
    r.readBytes.1 = r.response.body.remaining.mapError ClientError.ofIo := by
  obtain ⟨⟨status, version, headers, extensions, ⟨content, buffered⟩⟩, codecs⟩ := r
  cases content with
  | bytes data position => cases buffered <;> rfl
  | stream source =>
      -- A stream cannot go back, whether it is marked or not.
      have hrewind : (Reply.mk ⟨status, version, headers, extensions, ⟨.stream source, buffered⟩⟩
          codecs).rewind.2 = ⟨⟨status, version, headers, extensions, ⟨.stream source, buffered⟩⟩,
            codecs⟩ := by cases buffered <;> rfl
      unfold Reply.readBytes
      rw [hrewind]
      simp only [ResponseBody.readAll, BodyContent.readAll, ResponseBody.remaining, Stream.readAll]
      rcases source.drain with ⟨delivered, _ | e, left⟩ <;> rfl

/-- A reply whose status is no success fails with its status and its whole body, or because the body
cannot be read. -/
theorem Reply.statusError_fst (r : Reply) :
    r.statusError.1 = match r.response.body.remaining with
      | .ok body => .ofStatus r.response.status r.response.headers body
      | .error e => .ofIo e := by
  have hread := r.readBytes_fst
  -- Reading changes the body alone.
  have hframe : r.readBytes.2.response.status = r.response.status
      ∧ r.readBytes.2.response.headers = r.response.headers := by
    unfold Reply.readBytes Reply.rewind
    split <;> exact ⟨rfl, rfl⟩
  unfold Reply.statusError
  rcases hresult : r.readBytes with ⟨_ | body, left⟩
  · rw [hresult] at hread
    cases hbody : r.response.body.remaining with
    | error e => rw [hbody] at hread; exact Except.error.inj hread
    | ok body => rw [hbody] at hread; cases hread
  · rw [hresult] at hread hframe
    cases hbody : r.response.body.remaining with
    | error e => rw [hbody] at hread; cases hread
    | ok whole =>
        rw [hbody] at hread
        obtain rfl : body = whole := Except.ok.inj hread
        dsimp only
        rw [hframe.1, hframe.2]

/-! ### The search for a handler -/

/-- What handlers note that are asked in order, from `start` on, and do not accept. -/
def refusals (status : Status) (start count : Nat) : List Event :=
  (List.range' start count).map fun index => .statusAsked index status false

/-- The search asks the handlers in order and stops at the first that accepts. -/
theorem find_bind_tells (status : Status)
    {watchedNext : Option (StatusHandler (Observed σ)) → Call (Observed σ) β}
    {next : Option (StatusHandler σ) → Call σ β} {P : β → List Event → Prop}
    {Q : Nat → β → List Event → Prop} (hnone : Tells (watchedNext none) (next none) P)
    (hsome : ∀ (handler : StatusHandler σ) (index : Nat),
      Tells (watchedNext (some (handler.watched index))) (next (some handler)) (Q index))
    (handlers : List (StatusHandler σ)) :
    ∀ start : Nat, Tells
      (do watchedNext (← StatusHandler.find status (watchHandlers start handlers)))
      (do next (← StatusHandler.find status handlers)) fun b told =>
        (∃ rest, told = refusals status start handlers.length ++ rest ∧ P b rest)
          ∨ ∃ count rest, count < handlers.length
            ∧ told = refusals status start count ++ .statusAsked (start + count) status true :: rest
            ∧ Q (start + count) b rest := by
  induction handlers with
  | nil =>
      intro start
      exact hnone.mono fun b told h => Or.inl ⟨told, rfl, h⟩
  | cons handler rest ih =>
      intro start
      rw [watchHandlers_cons, StatusHandler.find, StatusHandler.find, bind_assoc, bind_assoc]
      refine (Tells.bind (tells_watch_note (handler.accepts status)
        (.statusAsked start status)) (Q := fun accepts b told => if accepts then Q start b told else
          (∃ more, told = refusals status (start + 1) rest.length ++ more ∧ P b more)
          ∨ ∃ count more, count < rest.length
            ∧ told = refusals status (start + 1) count
              ++ .statusAsked (start + 1 + count) status true :: more
            ∧ Q (start + 1 + count) b more) ?_).mono ?_
      · intro accepts
        cases accepts with
        | true => exact hsome handler start
        | false => exact ih (start + 1)
      · rintro b _ ⟨accepts, _, after, rfl, rfl, hafter⟩
        -- A refusal in front moves the accepting handler of the rest one place back.
        cases accepts with
        | true => exact Or.inr ⟨0, after, Nat.zero_lt_succ _, rfl, hafter⟩
        | false =>
            rcases hafter with ⟨more, rfl, hP⟩ | ⟨count, more, hcount, rfl, hQ⟩
            · exact Or.inl ⟨more, rfl, hP⟩
            · rw [Nat.add_assoc, Nat.add_comm 1 count] at hQ ⊢
              exact Or.inr ⟨count + 1, more, Nat.succ_lt_succ hcount, rfl, hQ⟩

/-! ### The policy -/

/-- What becomes of a reply whose handler left `after` of it. -/
def Reply.verdict (after : Reply) : Except Failure Unit → Except ClientError Reply
  | .ok () => .ok after
  | .error (.client e) => .error e
  | .error (.other cause) => .error ⟨.statusHandling, cause, none⟩

/-- What becomes of a reply under `count` handlers, and what the handlers note. -/
inductive StatusPolicy (count : Nat) (parts : RequestParts) (reply : Reply) :
    Except ClientError Reply → List Event → Prop where
  /-- The first handler that accepts handles the reply, and none behind it is asked. -/
  | handled (index : Nat) (after : Reply) (result : Except Failure Unit) (hindex : index < count) :
      StatusPolicy count parts reply (after.verdict result)
        (refusals reply.response.status 0 index ++ [.statusAsked index reply.response.status true,
          .statusHandled index parts reply.rewind.2 after result])
  /-- No handler accepts, and the status is a success. -/
  | success (hsuccess : 200 ≤ reply.response.status.code ∧ reply.response.status.code ≤ 299) :
      StatusPolicy count parts reply (.ok reply) (refusals reply.response.status 0 count)
  /-- No handler accepts, the status is no success, and the body can be read. -/
  | failure (e : ClientError) (body : Bytes)
      (hfailure : ¬ (200 ≤ reply.response.status.code ∧ reply.response.status.code ≤ 299))
      (hbody : reply.response.body.remaining = .ok body)
      (hkind : e.kind.Names reply.response.status)
      (hreport : e.report = some ⟨reply.response.status, reply.response.headers, body⟩) :
      StatusPolicy count parts reply (.error e) (refusals reply.response.status 0 count)
  /-- No handler accepts, the status is no success, and the body cannot be read. -/
  | unreadable (e : IoError)
      (hfailure : ¬ (200 ≤ reply.response.status.code ∧ reply.response.status.code ≤ 299))
      (hbody : reply.response.body.remaining = .error e) :
      StatusPolicy count parts reply (.error ⟨.localIo, .io e, none⟩)
        (refusals reply.response.status 0 count)

theorem Status.isSuccess_iff (s : Status) : s.isSuccess = true ↔ 200 ≤ s.code ∧ s.code ≤ 299 := by
  simp only [isSuccess, Bool.and_eq_true, decide_eq_true_eq]
  omega

/-- Without a handler the status alone decides. -/
theorem Reply.checkStatus_policy (r : Reply) (count : Nat) (parts : RequestParts) :
    StatusPolicy count parts r (r.checkStatus.2.map fun _ => r.checkStatus.1)
      (refusals r.response.status 0 count) := by
  unfold Reply.checkStatus
  by_cases h : r.response.status.isSuccess = true
  · rw [if_pos h]
    exact .success (r.response.status.isSuccess_iff.1 h)
  · -- Only here is the body read, so only here can reading fail.
    rw [if_neg h]
    have hfailure := mt r.response.status.isSuccess_iff.2 h
    show StatusPolicy count parts r (.error r.statusError.1) _
    rw [r.statusError_fst]
    cases hbody : r.response.body.remaining with
    | ok body => exact .failure _ body hfailure hbody (ClientErrorKind.names_ofStatus _) rfl
    | error e => exact .unreadable e hfailure hbody

theorem Reply.handleStatus_tells (handlers : List (StatusHandler σ)) (parts : RequestParts)
    (r : Reply) :
    Tells (r.handleStatus (watchHandlers 0 handlers) parts) (r.handleStatus handlers parts)
      fun back told =>
        StatusPolicy handlers.length parts r (back.2.map fun _ => back.1) told := by
  unfold Reply.handleStatus
  refine (find_bind_tells r.response.status
    (tells_pure (P := fun back told => back = r.checkStatus ∧ told = []) ⟨rfl, rfl⟩)
    (Q := fun index back told => ∃ after result,
      back = (after, result.mapError (Failure.toError .statusHandling))
        ∧ told = [.statusHandled index parts r.rewind.2 after result])
    ?_ handlers 0).mono ?_
  · intro handler index
    refine tells_log_bind ((Tells.bind (tells_watch_note (handler.act parts r.rewind.2) fun back =>
      .statusHandled index parts r.rewind.2 back.1 back.2) fun back => tells_pure
        (P := fun given told => given = (back.1, back.2.mapError (Failure.toError .statusHandling))
          ∧ told = []) ⟨rfl, rfl⟩).mono ?_)
    rintro _ _ ⟨⟨after, result⟩, _, _, rfl, rfl, rfl, rfl⟩
    exact ⟨after, result, rfl, rfl⟩
  · rintro _ _ (⟨_, rfl, rfl, rfl⟩ | ⟨index, _, hindex, rfl, after, result, rfl, rfl⟩)
    -- Either every handler refused, or the one at `index` accepted and acted.
    · rw [List.append_nil]
      exact r.checkStatus_policy handlers.length parts
    · rw [Nat.zero_add]
      have hverdict : (result.mapError (Failure.toError .statusHandling)).map (fun _ => after)
          = after.verdict result := by rcases result with (_ | _) | _ <;> rfl
      rw [hverdict]
      exact .handled index after result hindex

/-! ### Retrieving a reply -/

/-- Behind the sending, retrieving is handling the status. -/
theorem Retrieval.reply_of_send (r : Retrieval σ) {request : Prepared} {j left : Journal σ}
    {parts : RequestParts} {reply : Reply} (hrequest : r.request = .ok request)
    (hsend : r.client.send request j = ((parts, .ok reply), left)) :
    r.reply j = (fun back => (back.1.2.map fun _ => back.1.1, back.2))
      (reply.handleStatus (r.handlers ++ r.client.statusHandlers) parts left) := by
  unfold Retrieval.reply
  rw [hrequest]
  simp only [bind, StateT.bind, hsend]
  rfl

/-- The handlers of a watched retrieval are those of the call and of the client, numbered as one
list. -/
theorem Retrieval.watched_handlers (r : Retrieval σ) :
    r.watched.handlers ++ r.watched.client.statusHandlers =
      watchHandlers 0 (r.handlers ++ r.client.statusHandlers) := by
  rw [← watchHandlers_append, Nat.zero_add]
  rfl

/-- **The status policy.** Whatever reply comes back from the sending, retrieving it does with it
what the policy says under the handlers of the call and those of the client behind them. -/
theorem retrieving_follows_status_policy (r : Retrieval σ) {request : Prepared}
    {j left : Journal σ} {parts : RequestParts} {reply : Reply} (events : List Event)
    (hrequest : r.request = .ok request)
    (hsend : r.client.send request j = ((parts, .ok reply), left)) :
    ∃ sent told,
      r.watched.client.send request (j.observe events) =
          ((parts, .ok reply), left.observe (events ++ sent))
        ∧ r.watched.reply (j.observe events) =
          ((r.reply j).1, (r.reply j).2.observe (events ++ sent ++ told))
        ∧ StatusPolicy (r.handlers ++ r.client.statusHandlers).length parts reply (r.reply j).1
          told := by
  obtain ⟨sent, hwatched, -⟩ := send_tells r.client r.handlers.length request j events
  rw [hsend] at hwatched
  -- The handlers run where the sending stopped, with all that was noted until then.
  obtain ⟨told, hrun, hpolicy⟩ := reply.handleStatus_tells (r.handlers ++ r.client.statusHandlers)
    parts left (events ++ sent)
  refine ⟨sent, told, hwatched, ?_, ?_⟩
  · rw [r.watched.reply_of_send hrequest hwatched, r.reply_of_send hrequest hsend,
      r.watched_handlers, hrun]
  · rw [r.reply_of_send hrequest hsend]
    exact hpolicy

theorem Status.valid_missing : 100 ≤ 404 ∧ 404 < 1000 := by decide

/-- The response of a server that has no such page. -/
def Response.missing : Response where
  status := ⟨404, Status.valid_missing⟩
  body := .ofBytes (.ofText "no page")

/-- A client over a transport that finds no page, with a handler that takes every status. -/
def Client.lost : Client Unit where
  transport := { name := "lost", call := fun request => pure (request, .ok .missing) }
  statusHandlers := [{ accepts := fun _ => pure true, act := fun _ reply => pure (reply, .ok ()) }]
  codecs := []

/-- A retrieval of a page that is not there, with a handler that takes no status. -/
def Retrieval.lost : Retrieval Unit where
  client := .lost
  request := .ok ({}, .empty)
  handlers := [{ accepts := fun _ => pure false, act := fun _ reply => pure (reply, .ok ()) }]

/-- The reply for a page that is not there. -/
def Reply.missing : Reply := { response := .missing, codecs := [] }

/-- Retrieving a missing page follows the policy of both handlers, those of the call first. -/
theorem retrieving_lost_follows_status_policy :
    Retrieval.lost.request = .ok ({}, .empty)
      ∧ (Retrieval.lost.client.send ({}, .empty) { world := () }).1 = ({}, .ok .missing)
      ∧ ∃ told, StatusPolicy 2 {} .missing (Retrieval.lost.reply { world := () }).1 told := by
  have hsend : Retrieval.lost.client.send ({}, .empty) { world := () } =
      (({}, .ok .missing), (Retrieval.lost.client.send ({}, .empty) { world := () }).2) := rfl
  obtain ⟨_, told, _, _, hpolicy⟩ := retrieving_follows_status_policy Retrieval.lost [] rfl hsend
  exact ⟨rfl, rfl, told, hpolicy⟩

end ApiClient
