import ApiClient.Client.Retrieve
import ApiClient.Proofs.Results
import ApiClient.Proofs.TransportCalls
import ApiClient.Url.Parser

/-!
# ApiClient.Proofs.DraftResidue

What the terminal calls leave of a draft.

Every terminal call builds the request first, and nothing behind the build touches the draft. A
build takes one setting of the draft after the other, and where it fails the settings that are still
to be taken stay behind. `Client.BuildEnds` lists the five ends of a build, with what each leaves.

The address is taken before the headers, the cookies and the body. So a draft whose address cannot
be made is the one of which the next call sends a part: without the address, and with everything
else.
-/

namespace ApiClient

variable {σ α β : Type}

namespace Draft

/-- Nothing is said about the address, the headers, the cookies and the body. -/
structure IsClear (d : Draft) : Prop where
  /-- The address. -/
  uri : d.uri = .unset
  /-- The headers. -/
  headers : d.headers = ∅
  /-- The cookies. -/
  cookies : d.cookies = ∅
  /-- The body. -/
  body : d.body = .empty

/-- The draft without what it says about the address, the headers, the cookies and the body. -/
def bare (d : Draft) : Draft := { d with uri := .unset, headers := ∅, cookies := ∅, body := .empty }

theorem isClear_bare (d : Draft) : d.bare.IsClear := ⟨rfl, rfl, rfl, rfl⟩

end Draft

namespace Client

/-- The headers of a draft's request in front of its body. -/
def headersOf (c : Client σ) (d : Draft) : Except ClientError HeaderMap :=
  withCookies (c.defaultHeaders.override d.headers) (c.defaultCookies.merge d.cookies)

/-- How a build of the draft ends, and what it leaves of the draft. -/
inductive BuildEnds (c : Client σ) (d : Draft) : Except ClientError Prepared → Draft → Prop where
  /-- The draft has a mark. The mark is all that is taken. -/
  | marked (hmark : d.hasInvalidHeader = true) :
      BuildEnds c d (.error .invalidHeader) { d with hasInvalidHeader := false }
  /-- The address cannot be made. Nothing else is taken. -/
  | address {e : AddressError} (hmark : d.hasInvalidHeader = false)
      (haddress : c.addressOf d.uri = .error e) :
      BuildEnds c d (.error (.ofAddress e)) { d with uri := .unset }
  /-- The cookies make no header. The body is not taken. -/
  | cookies {url : Uri} {e : ClientError} (hmark : d.hasInvalidHeader = false)
      (haddress : c.addressOf d.uri = .ok url) (hheaders : c.headersOf d = .error e) :
      BuildEnds c d (.error e) { d.bare with body := d.body }
  /-- The body cannot be encoded. -/
  | body {url : Uri} {headers : HeaderMap} {e : ClientError} (hmark : d.hasInvalidHeader = false)
      (haddress : c.addressOf d.uri = .ok url) (hheaders : c.headersOf d = .ok headers)
      (hbody : encodeBody c.codecs d.hints headers d.body = .error e) :
      BuildEnds c d (.error e) d.bare
  /-- The request is built. Its settings are taken too. -/
  | built {url : Uri} {headers typed : HeaderMap} {body : RequestBody}
      (hmark : d.hasInvalidHeader = false) (haddress : c.addressOf d.uri = .ok url)
      (hheaders : c.headersOf d = .ok headers)
      (hbody : encodeBody c.codecs d.hints headers d.body = .ok (typed, body)) :
      BuildEnds c d (.ok (partsOf d url typed, body)) { d.bare with extensions := {} }

variable {c : Client σ} {d : Draft}

/-- Every build ends in one of the five ways. -/
theorem build_ends (c : Client σ) (d : Draft) : c.BuildEnds d (c.build d).1 (c.build d).2 := by
  unfold build
  cases hmark : d.hasInvalidHeader with
  | true => exact .marked hmark
  | false =>
      rw [if_neg Bool.false_ne_true]
      dsimp only
      cases haddress : c.addressOf d.uri with
      | error e => exact hmark ▸ .address hmark haddress
      | ok url =>
          dsimp only
          cases hheaders : c.headersOf d with
          | error e =>
              rw [show withCookies .. = _ from hheaders]
              exact hmark ▸ .cookies hmark haddress hheaders
          | ok headers =>
              rw [show withCookies .. = _ from hheaders]
              dsimp only
              cases hbody : encodeBody c.codecs d.hints headers d.body with
              | error e => exact hmark ▸ .body hmark haddress hheaders hbody
              | ok encoded => exact hmark ▸ .built hmark haddress hheaders hbody

/-- The build of the draft gets as far as the body. -/
structure GetsToBody (c : Client σ) (d : Draft) : Prop where
  /-- The draft has no mark. -/
  unmarked : d.hasInvalidHeader = false
  /-- The address can be made. -/
  address : ∃ url, c.addressOf d.uri = .ok url
  /-- The cookies can be put into a header. -/
  headers : ∃ headers, c.headersOf d = .ok headers

theorem BuildEnds.isClear {result : Except ClientError Prepared} {left : Draft}
    (h : c.BuildEnds d result left) (hbody : c.GetsToBody d) : left.IsClear := by
  obtain ⟨hunmarked, ⟨url, haddress⟩, headers, hheaders⟩ := hbody
  cases h with
  | marked hmark => exact absurd (hmark.symm.trans hunmarked) (by decide)
  | address _ hfailed => cases haddress.symm.trans hfailed
  | cookies _ _ hfailed => cases hheaders.symm.trans hfailed
  | body => exact d.isClear_bare
  | built => exact ⟨rfl, rfl, rfl, rfl⟩

/-- A build that does not get to the body does not take it. -/
theorem BuildEnds.body_eq {result : Except ClientError Prepared} {left : Draft}
    (h : c.BuildEnds d result left) (hbody : ¬ c.GetsToBody d) : left.body = d.body := by
  cases h with
  | marked | address | cookies => rfl
  | body hmark haddress hheaders => exact absurd ⟨hmark, ⟨_, haddress⟩, _, hheaders⟩ hbody
  | built hmark haddress hheaders => exact absurd ⟨hmark, ⟨_, haddress⟩, _, hheaders⟩ hbody

/-- The request of a clear draft has the address, the headers and the cookies of the client
alone. -/
theorem build_of_isClear (hclear : d.IsClear) {parts : RequestParts} {body : RequestBody}
    (hbuild : (c.build d).1 = .ok (parts, body)) :
    c.addressOf .unset = .ok parts.url
      ∧ withCookies c.defaultHeaders c.defaultCookies = .ok parts.headers ∧ body = .empty := by
  have hends := c.build_ends d
  rw [hbuild] at hends
  generalize (c.build d).2 = left at hends
  cases hends with
  | built _ haddress hheaders hbody =>
      rw [headersOf, hclear.headers, hclear.cookies] at hheaders
      rw [hclear.body] at hbody
      obtain ⟨rfl, rfl⟩ := Prod.mk.inj (Except.ok.inj hbody)
      exact ⟨hclear.uri ▸ haddress, hheaders, rfl⟩

/-! ### Terminal calls -/

theorem prepare_apply (c : Client σ) (d : Draft) (j : Journal σ) :
    (c.prepare d j).1 = c.build d := by
  unfold prepare
  rcases c.build d with ⟨_ | _, _⟩ <;> rfl

theorem retrieve_left (c : Client σ) (d : Draft) (j : Journal σ) :
    (c.retrieve d j).1.2 = (c.build d).2 := by
  rw [retrieve, Call.bind_apply, ← c.prepare_apply d j]
  rfl

theorem exchange_left (c : Client σ) (d : Draft)
    (handler : RequestParts → Reply → Call σ (Reply × Except Failure α)) (j : Journal σ) :
    (c.exchange handler d j).1.2 = (c.build d).2 := by
  rw [exchange, Call.bind_apply, ← c.prepare_apply d j]
  rcases c.prepare d j with ⟨⟨e | request, left⟩, k⟩
  · rfl
  · dsimp only
    rw [Call.bind_apply]
    rcases c.send request k with ⟨⟨parts, _ | reply⟩, k⟩ <;> rfl

theorem exchangeRequired_left (c : Client σ) (d : Draft)
    (handler : RequestParts → Reply → Call σ (Reply × Except Failure (Option α))) (j : Journal σ) :
    (c.exchangeRequired handler d j).1.2 = (c.build d).2 := by
  rw [← c.exchange_left d handler j]
  rfl

end Client

/-- A terminal call leaves of a draft what the build of the request left. That is nothing of the
address, the headers, the cookies and the body if the build gets to the body, and then the next call
sends what the client says by itself; otherwise it is at least the body. -/
theorem terminal_calls_leave_by_stage (c : Client σ) (d : Draft)
    (handler : RequestParts → Reply → Call σ (Reply × Except Failure α))
    (requiring : RequestParts → Reply → Call σ (Reply × Except Failure (Option β)))
    (j : Journal σ) :
    ∃ left, (c.retrieve d j).1.2 = left
      ∧ (c.exchange handler d j).1.2 = left
      ∧ (c.exchangeRequired requiring d j).1.2 = left
      ∧ c.BuildEnds d (c.build d).1 left
      ∧ (c.GetsToBody d → left.IsClear ∧ ∀ parts body, (c.build left).1 = .ok (parts, body) →
          c.addressOf .unset = .ok parts.url
            ∧ Client.withCookies c.defaultHeaders c.defaultCookies = .ok parts.headers
            ∧ body = .empty)
      ∧ (¬ c.GetsToBody d → left.body = d.body) := by
  have hends := c.build_ends d
  refine ⟨_, c.retrieve_left d j, c.exchange_left d handler j,
    c.exchangeRequired_left d requiring j, hends, fun hbody => ?_, hends.body_eq⟩
  have hclear := hends.isClear hbody
  exact ⟨hclear, fun _ _ hbuild => Client.build_of_isClear hclear hbuild⟩

/-- A client with a base for addresses. -/
def Client.based : Client Unit where
  transport := { name := "based", call := fun request => pure (request, .ok {}) }
  baseUrl := (Url.parse "http://[::1]").toOption
  codecs := []

/-- A draft without an address. -/
def Draft.remnant : Draft where
  method := .post
  headers := .ofLines [(.accept, ⟨Bytes.ofText "text/css", by decide⟩)]
  cookies := .ofList [("k", "v")]
  body := .bytes (Bytes.ofText "abc")

/-- The draft with a template that has a brace which is not closed. -/
def Draft.unbalanced : Draft := Draft.remnant.setTemplate "/x\x7b" .none

/-- Not every call clears the draft: of one whose template is ill-formed the next call sends the
headers, the cookies and the body to the base address. -/
theorem unbalanced_draft_sent_in_part :
    ¬ (∀ (c : Client Unit) (d : Draft) (j : Journal Unit), (c.retrieve d j).1.2.IsClear)
      ∧ ∃ left parts body, (Client.based.retrieve .unbalanced { world := () }).1.2 = left
        ∧ (Client.based.build left).1 = .ok (parts, body)
        ∧ parts.url.text = "http://[::1]/" ∧ parts.headers.contains .accept = true
        ∧ parts.headers.contains .cookie = true ∧ body.toBytes = .ok (Bytes.ofText "abc") := by
  have hleft : (Client.based.retrieve .unbalanced { world := () }).1.2 = .remnant := by
    rw [Client.retrieve_left]
    rfl
  refine ⟨fun h => ?_, .remnant, ?_⟩
  · have hbody := (h .based .unbalanced { world := () }).body
    rw [hleft] at hbody
    cases hbody
  · have hsent : (Client.based.build .remnant).1.toOption.map
        (fun r => (r.1.url.text, r.1.headers.contains .accept, r.1.headers.contains .cookie,
          r.2.toBytes.toOption)) =
            some ("http://[::1]/", true, true, some (Bytes.ofText "abc")) := by
      decide +kernel
    obtain ⟨request, hbuild, hrequest⟩ := Option.map_eq_some_iff.1 hsent
    simp only [Prod.mk.injEq] at hrequest
    obtain ⟨hurl, haccept, hcookie, hbody⟩ := hrequest
    exact ⟨request.1, request.2, hleft, eq_ok_of_toOption_eq_some hbuild, hurl, haccept, hcookie,
      eq_ok_of_toOption_eq_some hbody⟩

end ApiClient
