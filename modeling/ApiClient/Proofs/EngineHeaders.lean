import ApiClient.Engine.Plain.Exchange
import ApiClient.Engine.Pooled
import ApiClient.Engine.Transfer
import ApiClient.Proofs.AsciiText
import Mathlib.Data.List.Induction

/-!
# ApiClient.Proofs.EngineHeaders

What becomes of header lines between a client and the engines.

The pooled client and the transfer client take and give maps of headers, and so nothing is lost. The
plain agent keeps lines of text. It sets them one by one, where a line replaces those of its name
unless lines of the name add up, and of a name that is reported `k` times it takes all values `k`
times.

So requests that repeat a name and answers that repeat a name are where the engines differ, and both
main results say exactly for which names they do not.
-/

namespace ApiClient

variable {σ α β ε : Type}

/-- A loop whose steps all succeed does what the plain loop does. -/
theorem foldlM_eq_ok {f : β → α → Except ε β} {g : β → α → β} {l : List α}
    (h : ∀ a ∈ l, ∀ b, f b a = .ok (g b a)) (b : β) : l.foldlM f b = .ok (l.foldl g b) := by
  induction l generalizing b with
  | nil => rfl
  | cons a rest ih =>
      rw [List.foldlM_cons, h a List.mem_cons_self b, List.foldl_cons]
      exact ih (fun a hmem => h a (List.mem_cons_of_mem _ hmem)) (g b a)

/-! ### Names and values as text -/

theorem Ascii.lt_of_isVisible {bytes : Bytes} (h : bytes.all isVisible = true) :
    ∀ b ∈ bytes, b < 0x80 := by
  have hclass : ∀ k : Fin 256, isVisible (UInt8.ofNat k) = true →
      decide (UInt8.ofNat k < 0x80) = true := by decide +kernel
  have hall : bytes.all (· < 0x80) = true := all_mono hclass h
  exact fun b hmem => of_decide_eq_true (List.all_eq_true.1 hall b hmem)

namespace HeaderValue

/-- The text of a value is made of the bytes of the value. -/
theorem ofText_of_text? {v : HeaderValue} {t : String} (h : v.text? = some t) :
    Bytes.ofText t = v.bytes := by
  unfold text? at h
  split at h
  · next hvisible =>
      have hascii := Ascii.lt_of_isVisible hvisible
      have hchars : ∀ c ∈ v.bytes.map Percent.asciiChar, c.toNat < 0x80 := by
        intro c hmem
        obtain ⟨b, hb, rfl⟩ := List.mem_map.1 hmem
        rw [Percent.toNat_asciiChar (hascii b hb)]
        exact hascii b hb
      obtain rfl := Option.some.inj h
      refine (Bytes.ofText_ofList_of_ascii hchars).trans ?_
      rw [List.map_map]
      refine (List.map_congr_left fun b hb => ?_).trans (List.map_id _)
      exact Percent.byte_asciiChar (hascii b hb)
  · cases h

/-- A text whose bytes are those of a value is the text of the value. -/
theorem ofText?_eq {v : HeaderValue} {t : String} (h : Bytes.ofText t = v.bytes) :
    ofText? t = some v := by
  obtain ⟨bytes, hvalid⟩ := v
  obtain rfl : Bytes.ofText t = bytes := h
  rw [ofText?, ofBytes?, dif_pos hvalid]

/-- Visible ASCII makes a header value, and one that has a text. -/
theorem ofText?_of_visible {s : String} (h : (Bytes.ofText s).all Ascii.isVisible = true) :
    ∃ v, ofText? s = some v ∧ v.bytes = Bytes.ofText s ∧ v.isVisible = true := by
  have hclass : ∀ k : Fin 256, Ascii.isVisible (UInt8.ofNat k) = true →
      isByte (UInt8.ofNat k) = true := by decide +kernel
  exact ⟨⟨Bytes.ofText s, all_mono hclass h⟩, ofText?_eq rfl, rfl, h⟩

end HeaderValue

/-- A character that is no upper-case letter stays what it is in lower case. -/
theorem toLower_eq_self {c : Char} (hascii : c.toNat < 0x80)
    (h : Ascii.isUpper (Ascii.byte c) = false) : c.toLower = c := by
  have hbyte := Ascii.toNat_byte hascii
  have hrange : 65 ≤ c.toNat → 90 < c.toNat := by
    simpa [Ascii.isUpper, UInt8.le_iff_toNat_le, hbyte] using h
  refine dif_neg ?_
  rintro ⟨hlow, hhigh⟩
  have hlow : 65 ≤ c.toNat := UInt32.le_iff_toNat_le.1 hlow
  have hhigh : c.toNat ≤ 90 := UInt32.le_iff_toNat_le.1 hhigh
  omega

theorem HeaderName.text_inj {n m : HeaderName} : n.text = m.text ↔ n = m := by
  rw [HeaderName.mk.injEq]

/-- A name is what its text stands for: it has no letters in upper case. -/
theorem HeaderName.ofText?_text (n : HeaderName) : ofText? n.text = some n := by
  have hclass : ∀ k : Fin 256, isByte (UInt8.ofNat k) = true →
      (UInt8.ofNat k < 0x80 && !Ascii.isUpper (UInt8.ofNat k)) = true := by decide +kernel
  have hbytes : ∀ b ∈ Bytes.ofText n.text, b < 0x80 ∧ Ascii.isUpper b = false := by
    have hall : (Bytes.ofText n.text).all (fun b => b < 0x80 && !Ascii.isUpper b) = true :=
      all_mono hclass n.valid.2
    simpa using hall
  have hchars := Bytes.ascii_of_ofText fun b hmem => (hbytes b hmem).1
  have hsame : n.text.toList.map Char.toLower = n.text.toList := by
    have hofText := Bytes.ofText_ofList_of_ascii hchars
    rw [String.ofList_toList] at hofText
    refine (List.map_congr_left fun c hmem => ?_).trans (List.map_id _)
    exact toLower_eq_self (hchars c hmem) (hbytes _ (hofText ▸ List.mem_map_of_mem hmem)).2
  rw [ofText?]
  simp only [hsame, String.ofList_toList]
  exact dif_pos n.valid

/-! ### Lines of the plain agent -/

namespace Plain

/-- The values on the lines with a name. -/
def linesOf (lines : List (String × String)) (name : String) : List String :=
  (lines.filter (·.1 = name)).map (·.2)

/-- Whether lines of the name add up. -/
def addsUp (name : String) : Bool := name.startsWith "x-" || name.startsWith "X-"

/-- What is kept of the values of a name: all of them if its lines add up, else the last one. -/
def kept (name : String) (values : List α) : List α :=
  if addsUp name then values else values.getLast?.toList

@[simp] theorem kept_nil (name : String) : kept name ([] : List α) = [] := by
  unfold kept
  split <;> rfl

@[simp] theorem kept_singleton (name : String) (v : α) : kept name [v] = [v] := by
  unfold kept
  split <;> rfl

theorem kept_append_singleton (name : String) (values : List α) (v : α) :
    kept name (values ++ [v]) = (if addsUp name then kept name values else []) ++ [v] := by
  unfold kept
  split <;> simp

theorem kept_map (name : String) (f : α → β) (values : List α) :
    kept name (values.map f) = (kept name values).map f := by
  unfold kept
  split <;> cases h : values.getLast? <;> simp [h]

/-- Nothing is lost exactly if the lines add up or there is no second one. -/
theorem kept_eq_self_iff (name : String) (values : List α) :
    kept name values = values ↔ addsUp name = true ∨ values.length ≤ 1 := by
  unfold kept
  split
  · next h => simp [h]
  · next h =>
      rcases List.eq_nil_or_concat values with rfl | ⟨init, last, rfl⟩
      · simp
      · simp [h]

theorem linesOf_setLine_self (lines : List (String × String)) (name value : String) :
    linesOf (setLine lines name value) name =
      (if addsUp name then linesOf lines name else []) ++ [value] := by
  unfold setLine linesOf
  rw [List.filter_append, List.map_append]
  cases h : addsUp name <;> unfold addsUp at h <;> simp [h, List.filter_filter]

theorem linesOf_setLine_of_ne {name other : String} (h : other ≠ name)
    (lines : List (String × String)) (value : String) :
    linesOf (setLine lines name value) other = linesOf lines other := by
  have hkept : (lines.filter (·.1 != name)).filter (·.1 = other) = lines.filter (·.1 = other) := by
    rw [List.filter_filter]
    refine List.filter_congr fun l _ => ?_
    by_cases hl : l.1 = other <;> simp [hl, h]
  unfold setLine linesOf
  rw [List.filter_append, List.map_append]
  split <;> simp [hkept, Ne.symm h]

/-- Of lines that are set one by one, those of a name are kept as the agent keeps them. -/
theorem linesOf_foldl_setLine (lines : List (String × String)) (name : String) :
    linesOf (lines.foldl (fun set l => setLine set l.1 l.2) []) name =
      kept name (linesOf lines name) := by
  -- From the end, since the line that is set last decides which of the others stay.
  induction lines using List.reverseRecOn with
  | nil => simp [linesOf, kept]
  | append_singleton lines l ih =>
      rw [List.foldl_append, List.foldl_cons, List.foldl_nil]
      by_cases h : l.1 = name
      · subst h
        have hlines : linesOf (lines ++ [l]) l.1 = linesOf lines l.1 ++ [l.2] := by simp [linesOf]
        rw [linesOf_setLine_self, ih, hlines, kept_append_singleton]
      · have hlines : linesOf (lines ++ [l]) name = linesOf lines name := by simp [linesOf, h]
        rw [linesOf_setLine_of_ne (Ne.symm h), ih, hlines]

/-! ### Requests -/

/-- The text of a value, if it has one. -/
def textOf (v : HeaderValue) : String := v.text?.getD ""

theorem ofText_textOf {v : HeaderValue} (h : v.isVisible = true) :
    Bytes.ofText (textOf v) = v.bytes := by
  have htext : v.text? = some (textOf v) := by simp [textOf, HeaderValue.text?, h]
  exact HeaderValue.ofText_of_text? htext

theorem setValue_of_visible (p : RequestParts) {l : HeaderName × HeaderValue}
    (h : l.2.isVisible = true) (lines : List (String × String)) :
    setValue p lines l = .ok (setLine lines l.1.text (textOf l.2)) := by
  unfold setValue textOf HeaderValue.text?
  rw [if_pos h]
  rfl

/-- The lines that the agent keeps of a map whose values are all visible. -/
theorem setValues_of_visible (p : RequestParts) {m : HeaderMap}
    (h : ∀ l ∈ m.lines, l.2.isVisible = true) : ∃ lines, m.lines.foldlM (setValue p) [] = .ok lines
      ∧ ∀ n : HeaderName,
        (linesOf lines n.text).map Bytes.ofText = kept n.text ((m.values n).map (·.bytes)) := by
  refine ⟨_, foldlM_eq_ok (fun l hmem lines => setValue_of_visible p (h l hmem) lines) [],
    fun n => ?_⟩
  have hlines : m.lines.foldl (fun lines l => setLine lines l.1.text (textOf l.2)) [] =
      (m.lines.map fun l => (l.1.text, textOf l.2)).foldl (fun set l => setLine set l.1 l.2)
        [] := by
    rw [List.foldl_map]
  rw [hlines, linesOf_foldl_setLine, ← kept_map, ← m.values_lines, linesOf, List.filter_map]
  simp only [List.map_map, Function.comp_def, HeaderName.text_inj]
  congr 1
  exact List.map_congr_left fun l hmem => ofText_textOf (h l (List.mem_filter.1 hmem).1)

theorem linesOf_withLength {p : RequestParts} {n : HeaderName}
    (h : n ≠ .contentLength ∨ p.headers.contains .contentLength = true) (size : Option Nat)
    (lines : List (String × String)) :
    linesOf (withLength p size lines) n.text = linesOf lines n.text := by
  unfold withLength
  cases size with
  | none => rfl
  | some length =>
      dsimp only
      split
      · rfl
      · next hcontains =>
          have hne : n ≠ .contentLength := h.resolve_right hcontains
          exact linesOf_setLine_of_ne (fun heq => hne (HeaderName.text_inj.1 heq)) ..

end Plain

section Carried

variable [Build]

/-- The values that an engine has to carry of a header, as bytes: those of the request, or the name
of the sending software with the engine behind it if the request does not say what the software
is. -/
def RequestParts.carried (p : RequestParts) (engine : String) (n : HeaderName) : List Bytes :=
  if n = .userAgent ∧ p.headers.contains .userAgent = false then
    [Bytes.ofText (p.engineUserAgent engine)]
  else (p.headers.values n).map (·.bytes)

theorem RequestParts.carried_of_given {p : RequestParts} {n : HeaderName}
    (h : n ≠ .userAgent ∨ p.headers.contains .userAgent = true) (engine : String) :
    p.carried engine n = (p.headers.values n).map (·.bytes) := by
  rw [carried, if_neg]
  rintro ⟨hn, hcontains⟩
  rcases h with h | h
  · exact h hn
  · exact Bool.false_ne_true (hcontains.symm.trans h)

theorem RequestParts.carried_of_missing {p : RequestParts}
    (h : p.headers.contains .userAgent = false) (engine : String) :
    p.carried engine .userAgent = [Bytes.ofText (p.engineUserAgent engine)] := by
  rw [carried, if_pos ⟨rfl, h⟩]

/-- The name of the software is visible with any engine if what was put behind it is. -/
theorem RequestParts.visible_engineUserAgent {p : RequestParts}
    (h : (Bytes.ofText p.appendedUserAgent).all Ascii.isVisible = true) (engine : String)
    (hengine : (Bytes.ofText engine).all Ascii.isVisible = true) :
    (Bytes.ofText (p.engineUserAgent engine)).all Ascii.isVisible = true := by
  have hname : (Bytes.ofText softwareName).all Ascii.isVisible = true := by decide +kernel
  have hslash : (Bytes.ofText "/").all Ascii.isVisible = true := by decide +kernel
  rw [engineUserAgent, userAgent, baseUserAgent, Bytes.ofText_append, Bytes.ofText_append,
    Bytes.ofText_append, Bytes.ofText_append]
  simp only [List.all_append, hname, Build.compiler_visible, h, hslash, hengine, Bool.and_self]

/-- The map of a request with the name of the software added carries what it has to. -/
theorem RequestParts.carried_eq {p : RequestParts} {engine : String} {m : HeaderMap}
    {v : HeaderValue} (hvalue : v.bytes = Bytes.ofText (p.engineUserAgent engine))
    (hcontains : p.headers.contains .userAgent = false) (hagent : m.values .userAgent = [v])
    (hothers : ∀ n, n ≠ .userAgent → m.values n = p.headers.values n) (n : HeaderName) :
    (m.values n).map (·.bytes) = p.carried engine n := by
  by_cases h : n = .userAgent
  · rw [h, carried_of_missing hcontains, hagent, List.map_singleton, hvalue]
  · rw [carried_of_given (.inl h), hothers n h]

namespace Pooled

theorem headersOf_carries {p : RequestParts}
    (h : (Bytes.ofText p.appendedUserAgent).all Ascii.isVisible = true) :
    ∃ headers, headersOf p = .ok headers
      ∧ ∀ n, (headers.values n).map (·.bytes) = p.carried "resty-reqwest" n := by
  unfold headersOf
  cases hcontains : p.headers.contains .userAgent with
  | true => exact ⟨p.headers, rfl, fun n => (RequestParts.carried_of_given (.inr hcontains) _).symm⟩
  | false =>
      obtain ⟨v, hvalue, hbytes, -⟩ := HeaderValue.ofText?_of_visible
        (RequestParts.visible_engineUserAgent h "resty-reqwest" (by decide +kernel))
      rw [hvalue]
      exact ⟨_, rfl, RequestParts.carried_eq hbytes hcontains (HeaderMap.values_insert_self ..)
        fun n hn => HeaderMap.values_insert_of_ne hn ..⟩

end Pooled

namespace Transfer

theorem headersOf_carries {p : RequestParts}
    (h : (Bytes.ofText p.appendedUserAgent).all Ascii.isVisible = true) :
    ∃ headers, headersOf p = .ok headers
      ∧ ∀ n, (headers.values n).map (·.bytes) = p.carried "resty-isahc" n := by
  unfold headersOf
  cases hcontains : p.headers.contains .userAgent with
  | true => exact ⟨p.headers, rfl, fun n => (RequestParts.carried_of_given (.inr hcontains) _).symm⟩
  | false =>
      obtain ⟨v, hvalue, hbytes, -⟩ := HeaderValue.ofText?_of_visible
        (RequestParts.visible_engineUserAgent h "resty-isahc" (by decide +kernel))
      have hnone : p.headers.values .userAgent = [] :=
        (HeaderMap.contains_eq_false_iff ..).1 hcontains
      rw [hvalue]
      refine ⟨_, rfl, RequestParts.carried_eq hbytes hcontains ?_
        fun n hn => HeaderMap.values_append_of_ne hn ..⟩
      rw [HeaderMap.values_append_self, hnone, List.nil_append]

end Transfer

namespace Plain

theorem userAgent_of_visible {p : RequestParts}
    (h : (Bytes.ofText p.appendedUserAgent).all Ascii.isVisible = true) :
    ∃ v, userAgent p = .ok v ∧ v.bytes = Bytes.ofText (p.engineUserAgent "resty-ureq")
      ∧ v.isVisible = true := by
  obtain ⟨v, hvalue, hbytes, hvisible⟩ := HeaderValue.ofText?_of_visible
    (RequestParts.visible_engineUserAgent h "resty-ureq" (by decide +kernel))
  exact ⟨v, by simp only [userAgent, hvalue], hbytes, hvisible⟩

/-- Behind the lines of the map, the name of the software is carried if the map does not have it. -/
theorem withAgent_carry {p : RequestParts} {lines : List (String × String)}
    (hagent : (Bytes.ofText p.appendedUserAgent).all Ascii.isVisible = true)
    (hlines : ∀ n : HeaderName,
      (linesOf lines n.text).map Bytes.ofText = kept n.text ((p.headers.values n).map (·.bytes))) :
    ∃ named, withAgent p lines = .ok named
      ∧ ∀ n : HeaderName,
        (linesOf named n.text).map Bytes.ofText = kept n.text (p.carried "resty-ureq" n) := by
  unfold withAgent
  cases hcontains : p.headers.contains .userAgent with
  | true =>
      refine ⟨lines, rfl, fun n => ?_⟩
      rw [hlines, RequestParts.carried_of_given (.inr hcontains)]
  | false =>
      obtain ⟨v, hv, hbytes, hvisible⟩ := userAgent_of_visible hagent
      refine ⟨setLine lines HeaderName.userAgent.text (textOf v), ?_, fun n => ?_⟩
      · rw [hv]
        exact setValue_of_visible p (l := (.userAgent, v)) hvisible lines
      · by_cases h : n = .userAgent
        · have hempty : linesOf lines HeaderName.userAgent.text = [] := by
            have hnone := hlines .userAgent
            rw [(HeaderMap.contains_eq_false_iff ..).1 hcontains, List.map_nil, kept_nil] at hnone
            exact List.map_eq_nil_iff.1 hnone
          rw [h, linesOf_setLine_self, hempty, RequestParts.carried_of_missing hcontains, ← hbytes,
            kept_singleton, ← ofText_textOf hvisible, ite_self, List.nil_append, List.map_singleton]
        · rw [linesOf_setLine_of_ne (fun heq => h (HeaderName.text_inj.1 heq)), hlines n,
            RequestParts.carried_of_given (.inl h)]

/-- The lines of a request carry what they have to, but for values that the agent does not keep. -/
theorem headerLines_carry {p : RequestParts} (size : Option Nat)
    (hvalues : ∀ l ∈ p.headers.lines, l.2.isVisible = true)
    (hagent : (Bytes.ofText p.appendedUserAgent).all Ascii.isVisible = true) :
    ∃ lines, headerLines p size = .ok lines
      ∧ ∀ n, n ≠ .contentLength ∨ p.headers.contains .contentLength = true →
        (linesOf lines n.text).map Bytes.ofText = kept n.text (p.carried "resty-ureq" n) := by
  obtain ⟨set, hset, hlines⟩ := setValues_of_visible p hvalues
  -- The lines of the map come first, then the name of the software, then the length.
  obtain ⟨named, hnamed, hcarry⟩ := withAgent_carry hagent hlines
  refine ⟨withLength p size named, ?_, fun n hn => ?_⟩
  · rw [headerLines, hset]
    exact congrArg (Except.map (withLength p size)) hnamed
  · rw [linesOf_withLength hn, hcarry]

end Plain

end Carried

/-! ### Calls behind what they make of a request -/

section Calls

variable [Build] {r : Request}

theorem PlainAgent.call_eq {a : PlainAgent σ} {out : Plain.Outbound}
    (hout : Plain.outbound r = .ok out) : a.call r = (a.answer out).runOn r := by
  funext j
  exact EngineStep.runOn_bind_of_ok (by rw [EngineStep.runOn_query, hout])

theorem PooledClient.call_eq {c : PooledClient σ} {url : Url} {headers : HeaderMap}
    (hurl : Url.parse r.parts.url.text = .ok url)
    (hheaders : Pooled.headersOf r.parts = .ok headers) :
    c.call r =
      (c.answer ⟨r.parts.method, url, headers, r.body⟩).runOn { r with body := .empty } := by
  have hparsed : Pooled.urlOf r.parts = .ok url := by
    rw [Pooled.urlOf, hurl]
    rfl
  funext j
  refine EngineStep.runOn_bind_of_ok ?_
  rw [outbound, EngineStep.runOn_bind_of_ok (a := r) rfl,
    EngineStep.runOn_bind_of_ok (by rw [EngineStep.runOn_query, hparsed]),
    EngineStep.runOn_bind_of_ok (by rw [EngineStep.runOn_query, hheaders]),
    EngineStep.runOn_bind_of_ok (EngineStep.runOn_takeBody r j)]
  rfl

theorem TransferClient.call_eq {c : TransferClient σ} {headers : HeaderMap}
    (hheaders : Transfer.headersOf r.parts = .ok headers) :
    c.call r = (c.answer ⟨r.parts.method, r.parts.url, headers,
      Transfer.settings c r.parts.extensions, r.body⟩).runOn { r with body := .empty } := by
  funext j
  refine EngineStep.runOn_bind_of_ok ?_
  rw [outbound, EngineStep.runOn_bind_of_ok (a := r) rfl,
    EngineStep.runOn_bind_of_ok (by rw [EngineStep.runOn_query, hheaders]),
    EngineStep.runOn_bind_of_ok (EngineStep.runOn_takeBody r j)]
  rfl

end Calls

theorem PlainAgent.runOn_answer_of_ok {a : PlainAgent σ} {out : Plain.Outbound} {r : Request}
    {reported : Plain.Reported} {unread : RequestBody} {j left : Journal σ}
    (h : a.run out r.body j = ((.ok reported, unread), left)) :
    (a.answer out).runOn r j = (respond reported).runOn { r with body := unread } left :=
  EngineStep.runOn_bind_of_ok (EngineStep.runOn_onBody h)

theorem PooledClient.runOn_answer_of_ok {c : PooledClient σ} {out : Pooled.Outbound} {r : Request}
    {answer : EngineAnswer} {j left : Journal σ} (h : c.send out j = (.ok answer, left)) :
    (c.answer out).runOn r j = (EngineStep.respond answer).runOn r left :=
  EngineStep.runOn_bind_of_ok (EngineStep.runOn_liftM h r)

theorem TransferClient.runOn_answer_of_ok {c : TransferClient σ} {out accepted : Transfer.Outbound}
    {r : Request} {answer : EngineAnswer} {j left : Journal σ}
    (haccepted : c.accepted r.parts out = .ok accepted)
    (h : c.send accepted j = (.ok answer, left)) :
    (c.answer out).runOn r j = (EngineStep.respond answer).runOn r left := by
  refine (EngineStep.runOn_bind_of_ok (by rw [EngineStep.runOn_query, haccepted])).trans ?_
  exact EngineStep.runOn_bind_of_ok (EngineStep.runOn_liftM h r)

/-- **Requests carry their headers.** With visible values, every engine is given all values of every
name in order, and the name of the software where the request does not say it. Only of the lines of
the plain agent some are missing: all but the last of a name whose lines do not add up. -/
theorem requests_carry_headers [Build] (r : Request)
    (hvalues : ∀ l ∈ r.parts.headers.lines, l.2.isVisible = true)
    (hagent : (Bytes.ofText r.parts.appendedUserAgent).all Ascii.isVisible = true) :
    (∀ a : PlainAgent σ, ∃ out, Plain.outbound r = .ok out
      ∧ a.call r = (a.answer out).runOn r
      ∧ ∀ n, n ≠ .contentLength ∨ r.parts.headers.contains .contentLength = true →
        (Plain.linesOf out.headers n.text).map Bytes.ofText =
            Plain.kept n.text (r.parts.carried "resty-ureq" n)
          ∧ ((Plain.linesOf out.headers n.text).map Bytes.ofText = r.parts.carried "resty-ureq" n
            ↔ Plain.addsUp n.text = true ∨ (r.parts.carried "resty-ureq" n).length ≤ 1))
    ∧ (∀ (c : PooledClient σ) (url : Url), Url.parse r.parts.url.text = .ok url →
      ∃ out, c.call r = (c.answer out).runOn { r with body := .empty }
        ∧ out.method = r.parts.method ∧ out.url = url ∧ out.body = r.body
        ∧ ∀ n, (out.headers.values n).map (·.bytes) = r.parts.carried "resty-reqwest" n)
    ∧ ∀ c : TransferClient σ,
      ∃ out, c.call r = (c.answer out).runOn { r with body := .empty }
        ∧ out.method = r.parts.method ∧ out.url = r.parts.url ∧ out.body = r.body
        ∧ ∀ n, (out.headers.values n).map (·.bytes) = r.parts.carried "resty-isahc" n := by
  refine ⟨fun a => ?_, fun c url hurl => ?_, fun c => ?_⟩
  · obtain ⟨lines, hlines, hcarry⟩ := Plain.headerLines_carry r.body.size? hvalues hagent
    have hout : Plain.outbound r = .ok ⟨r.parts.method, r.parts.url.text, lines⟩ := by
      rw [Plain.outbound, hlines]
      rfl
    refine ⟨_, hout, a.call_eq hout, fun n hn => ⟨hcarry n hn, ?_⟩⟩
    rw [hcarry n hn]
    exact Plain.kept_eq_self_iff ..
  · obtain ⟨headers, hheaders, hcarry⟩ := Pooled.headersOf_carries hagent
    exact ⟨_, c.call_eq hurl hheaders, rfl, rfl, rfl, hcarry⟩
  · obtain ⟨headers, hheaders, hcarry⟩ := Transfer.headersOf_carries hagent
    exact ⟨_, c.call_eq hheaders, rfl, rfl, rfl, hcarry⟩

/-- A request that accepts two media types, on a line each. -/
def Request.accepting : Request where
  parts := { headers := .ofLines [(.accept, ⟨Bytes.ofText "text/csv", by decide⟩),
    (.accept, ⟨Bytes.ofText "image/gif", by decide⟩)] }

/-- The plain agent that reaches no server. -/
def PlainAgent.offline : PlainAgent Unit where
  network := ⟨fun _ _ => pure .refused⟩

/-- A build with a stable compiler. -/
@[reducible] def Build.stable : Build where
  compiler := "1.75.0"
  compiler_visible := by decide

/-- The lines of the plain agent carry all values that an accepting request has of `accept` only if
the lines of the name add up, and so they do not. -/
theorem accepting_request_carries_headers :
    (∀ l ∈ Request.accepting.parts.headers.lines, l.2.isVisible = true)
    ∧ (Bytes.ofText Request.accepting.parts.appendedUserAgent).all Ascii.isVisible = true
    ∧ ∃ (_ : Build) (out : Plain.Outbound), Plain.outbound .accepting = .ok out
      ∧ (Plain.linesOf out.headers HeaderName.accept.text).map Bytes.ofText =
        Plain.kept HeaderName.accept.text
          (Request.accepting.parts.carried "resty-ureq" .accept) := by
  have hvalues : ∀ l ∈ Request.accepting.parts.headers.lines, l.2.isVisible = true := by decide
  have hagent :
      (Bytes.ofText Request.accepting.parts.appendedUserAgent).all Ascii.isVisible = true :=
    rfl
  obtain ⟨hplain, -, -⟩ := @requests_carry_headers Unit .stable .accepting hvalues hagent
  obtain ⟨out, hout, -, hcarry⟩ := hplain .offline
  exact ⟨hvalues, hagent, .stable, out, hout, (hcarry .accept (.inl (by decide))).1⟩

/-- The plain agent does not carry all values of all names: of the two media types that an accepting
request names, only the second one is on its lines. -/
theorem repeated_request_header_lost :
    ¬ ∀ [Build] (r : Request), (∀ l ∈ r.parts.headers.lines, l.2.isVisible = true) →
      (Bytes.ofText r.parts.appendedUserAgent).all Ascii.isVisible = true →
      ∃ out, Plain.outbound r = .ok out ∧ ∀ n, r.parts.headers.contains n = true →
        (Plain.linesOf out.headers n.text).map Bytes.ofText = r.parts.carried "resty-ureq" n := by
  intro h
  obtain ⟨out, hout, hcarry⟩ := @h .stable .accepting (by decide) rfl
  have hlines : (@Plain.outbound .stable .accepting).toOption.map
      (fun out => Plain.linesOf out.headers "accept") = some ["image/gif"] := by decide +kernel
  rw [hout] at hlines
  have hkept : Plain.linesOf out.headers HeaderName.accept.text = ["image/gif"] :=
    Option.some.inj hlines
  have hboth := hcarry .accept (by decide)
  rw [hkept] at hboth
  exact absurd hboth (by decide +kernel)

/-! ### Answers -/

namespace Plain

/-- How the plain agent shows header values as texts. A value without a text is not shown, and a
text is made of the bytes of its value. -/
structure TextView where
  /-- The text of a value, if it has one. -/
  text? : HeaderValue → Option String
  /-- A text is made of the bytes of its value. -/
  faithful : ∀ v t, text? v = some t → Bytes.ofText t = v.bytes

/-- The view in which the texts are those of visible ASCII. -/
def TextView.visible : TextView where
  text? := HeaderValue.text?
  faithful _ _ h := HeaderValue.ofText_of_text? h

variable (p : RequestParts) (view : TextView) (lines : List (HeaderName × HeaderValue))

/-- What the agent reports of header lines. -/
def TextView.fields : List (String × Option String) := lines.map fun l => (l.1.text, view.text? l.2)

/-- The values of a name that the agent shows. -/
def TextView.values (n : HeaderName) : List HeaderValue :=
  ((lines.filter (·.1 = n)).map (·.2)).filter fun v => (view.text? v).isSome

/-- The texts of a name are those of its values. -/
theorem valuesOf_fields (n : HeaderName) :
    valuesOf (view.fields lines) n.text = (view.values lines n).filterMap view.text? := by
  unfold valuesOf TextView.fields TextView.values
  induction lines with
  | nil => rfl
  | cons l rest ih =>
      rw [List.map_cons, List.filterMap_cons, ih]
      by_cases h : l.1 = n
      · cases htext : view.text? l.2 <;> simp [h, htext]
      · simp [h, HeaderName.text_inj]

/-- Adding the texts of values adds the values that have one. -/
theorem foldlM_addValue (n : HeaderName) (vs : List HeaderValue) (m : HeaderMap) :
    (vs.filterMap view.text?).foldlM (addValue p n) m =
      .ok ((vs.filter fun v => (view.text? v).isSome).foldl (·.append n ·) m) := by
  induction vs generalizing m with
  | nil => rfl
  | cons v rest ih =>
      cases htext : view.text? v with
      | none => simpa [htext] using ih m
      | some t =>
          have hvalue : HeaderValue.ofText? t = some v :=
            HeaderValue.ofText?_eq (view.faithful v t htext)
          rw [List.filterMap_cons_some htext, List.foldlM_cons, addValue, hvalue,
            List.filter_cons_of_pos (by simp [htext]), List.foldl_cons]
          exact ih (m.append n v)

/-- Each reported line adds all values of its name. -/
theorem addName_fields (m : HeaderMap) (l : HeaderName × HeaderValue) :
    addName p (view.fields lines) m (l.1.text, view.text? l.2) =
      .ok ((view.values lines l.1).foldl (·.append l.1 ·) m) := by
  have hkept : (view.values lines l.1).filter (fun v => (view.text? v).isSome) =
      view.values lines l.1 := by
    simp [TextView.values, List.filter_filter]
  rw [addName, HeaderName.ofText?_text]
  dsimp only
  rw [valuesOf_fields, foldlM_addValue, hkept]

/-- Lines that each add all values of their name add them once for each line of the name. -/
theorem values_foldl_addAll (part : List (HeaderName × HeaderValue)) (n : HeaderName) :
    ∀ m : HeaderMap,
      (part.foldl (fun m l => (view.values lines l.1).foldl (·.append l.1 ·) m) m).values n =
        m.values n ++ (List.replicate (part.countP (·.1 = n)) (view.values lines n)).flatten := by
  -- Only the lines that are left get fewer. Each of them looks its name up in all `lines`.
  induction part with
  | nil => simp
  | cons l rest ih =>
      intro m
      have hstep : ((view.values lines l.1).foldl (·.append l.1 ·) m).values n =
          m.values n ++ if l.1 = n then view.values lines n else [] := by
        have hpairs : (view.values lines l.1).foldl (·.append l.1 ·) m =
            ((view.values lines l.1).map fun v => (l.1, v)).foldl
              (fun m l => m.append l.1 l.2) m := by
          rw [List.foldl_map]
        rw [hpairs, HeaderMap.values_foldl_append]
        by_cases h : l.1 = n
        · simp [h, List.filter_map, Function.comp_def]
        · simp [h, List.filter_map, Function.comp_def]
      rw [List.foldl_cons, ih, hstep, List.countP_cons, List.append_assoc]
      by_cases h : l.1 = n
      · simp [h, List.replicate_succ]
      · simp [h]

/-- The headers of a response have the values of a name once for each line of the name. -/
theorem responseHeaders_fields : ∃ headers, responseHeaders p (view.fields lines) = .ok headers
    ∧ ∀ n, headers.values n =
      (List.replicate (lines.countP (·.1 = n)) (view.values lines n)).flatten := by
  refine ⟨_, ?_, fun n => values_foldl_addAll view lines lines n ∅⟩
  rw [responseHeaders, show view.fields lines = lines.map _ from rfl, List.foldlM_map]
  exact foldlM_eq_ok (fun l _ m => addName_fields p view lines m l) ∅

/-- Repeating a list changes it, unless it is repeated once or empty. -/
theorem flatten_replicate_eq_self_iff (k : Nat) (vs : List α) :
    (List.replicate k vs).flatten = vs ↔ k = 1 ∨ vs = [] := by
  constructor
  · intro h
    have hlen : k * vs.length = vs.length := by
      simpa [List.length_flatten, List.map_replicate, List.sum_replicate_nat]
        using congrArg List.length h
    rcases Nat.eq_zero_or_pos vs.length with hzero | hpos
    · exact Or.inr (List.length_eq_zero_iff.1 hzero)
    · exact Or.inl (Nat.eq_of_mul_eq_mul_right hpos (hlen.trans (Nat.one_mul _).symm))
  · rintro (rfl | rfl)
    · simp
    · simp

/-- What the agent reports of an answer with the given lines. -/
def TextView.report (status : Status) (version : Version) (body : Stream) : Reported :=
  ⟨version.text, status.code, view.fields lines, body⟩

/-- The answer that is made of a report has the status, the version and the body of the report, and
of each name all values once for each line of the name. -/
theorem toAnswer_report (status : Status) (version : Version) (body : Stream) :
    ∃ headers,
      (view.report lines status version body).toAnswer p = .ok { status, version, headers, body }
      ∧ ∀ n, headers.values n =
        (List.replicate (lines.countP (·.1 = n)) (view.values lines n)).flatten := by
  obtain ⟨headers, hheaders, hvalues⟩ := responseHeaders_fields p view lines
  have hstatus : Status.ofNat? status.code = some status := dif_pos status.valid
  have hversion : Version.ofText? version.text = some version := by cases version <;> decide
  refine ⟨headers, ?_, hvalues⟩
  unfold TextView.report Reported.toAnswer
  simp only [hstatus, hversion, hheaders]
  rfl

end Plain

/-- **Answers keep their headers.** The responses of the pooled client and of the transfer client
have the headers that were reported. The response of the plain agent has the values of a name once
for each line of the name, and so it has them as they were reported exactly if there is one line, or
no value. -/
theorem answers_keep_headers [Build] (r : Request) (j left : Journal σ) :
    (∀ (a : PlainAgent σ) (view : Plain.TextView) (lines : List (HeaderName × HeaderValue))
        (status : Status) (version : Version) (body : Stream) (out : Plain.Outbound)
        (unread : RequestBody),
      Plain.outbound r = .ok out →
      a.run out r.body j = ((.ok (view.report lines status version body), unread), left) →
      ∃ response, (a.call r j).1.2 = .ok response ∧ ∀ n,
        response.headers.values n =
            (List.replicate (lines.countP (·.1 = n)) (view.values lines n)).flatten
          ∧ (response.headers.values n = view.values lines n
            ↔ lines.countP (·.1 = n) = 1 ∨ view.values lines n = []))
    ∧ (∀ (c : PooledClient σ) (url : Url) (headers : HeaderMap) (answer : EngineAnswer),
      Url.parse r.parts.url.text = .ok url → Pooled.headersOf r.parts = .ok headers →
      c.send ⟨r.parts.method, url, headers, r.body⟩ j = (.ok answer, left) →
      ∃ response, (c.call r j).1.2 = .ok response ∧ response.headers = answer.headers
        ∧ ∀ lines, answer.headers = .ofLines lines →
          ∀ n, response.headers.values n = (lines.filter (·.1 = n)).map (·.2))
    ∧ ∀ (c : TransferClient σ) (headers : HeaderMap) (out : Transfer.Outbound)
        (answer : EngineAnswer),
      Transfer.headersOf r.parts = .ok headers →
      c.accepted r.parts ⟨r.parts.method, r.parts.url, headers,
        Transfer.settings c r.parts.extensions, r.body⟩ = .ok out →
      c.send out j = (.ok answer, left) →
      ∃ response, (c.call r j).1.2 = .ok response ∧ response.headers = answer.headers
        ∧ ∀ lines, answer.headers = .ofLines lines →
          ∀ n, response.headers.values n = (lines.filter (·.1 = n)).map (·.2) := by
  refine ⟨fun a view lines status version body out unread hout hrun => ?_,
    fun c url headers answer hurl hheaders hsend => ?_,
    fun c headers out answer hheaders haccepted hsend => ?_⟩
  · obtain ⟨kept, hanswer, hvalues⟩ := Plain.toAnswer_report r.parts view lines status version body
    refine ⟨EngineAnswer.toResponse { status, version, headers := kept, body }
      r.parts.extensions, ?_, fun n => ⟨hvalues n, ?_⟩⟩
    · rw [a.call_eq hout, a.runOn_answer_of_ok hrun, PlainAgent.respond,
        EngineStep.runOn_bind_of_ok (by rw [EngineStep.runOn_query, hanswer])]
      rfl
    · rw [← Plain.flatten_replicate_eq_self_iff, ← hvalues n]
      rfl
  · refine ⟨answer.toResponse r.parts.extensions, ?_, rfl, fun lines hlines n => ?_⟩
    · rw [c.call_eq hurl hheaders, c.runOn_answer_of_ok hsend]
      rfl
    · exact (congrArg (·.values n) hlines).trans (HeaderMap.values_ofLines lines n)
  · refine ⟨answer.toResponse r.parts.extensions, ?_, rfl, fun lines hlines n => ?_⟩
    · rw [c.call_eq hheaders,
        TransferClient.runOn_answer_of_ok (r := { r with body := .empty }) haccepted hsend]
      rfl
    · exact (congrArg (·.values n) hlines).trans (HeaderMap.values_ofLines lines n)

/-- The header that sets a cookie. -/
def HeaderName.setCookie : HeaderName := ⟨"set-cookie", by decide⟩

/-- Two lines that set a cookie each. -/
def Plain.cookieLines : List (HeaderName × HeaderValue) :=
  [(.setCookie, ⟨Bytes.ofText "a=1", by decide⟩), (.setCookie, ⟨Bytes.ofText "b=2", by decide⟩)]

/-- The plain agent whose hook reports two cookies for every request. -/
def PlainAgent.baking : PlainAgent Unit where
  network := ⟨fun _ _ => pure .refused⟩
  hook := some fun _ => pure (some (.ok
    (Plain.TextView.visible.report Plain.cookieLines .success .http11 [])))

/-- The hook answers the request without content. -/
theorem PlainAgent.run_baking [Build] {out : Plain.Outbound}
    (hvalid : Plain.invalidLine? out.headers = none) (body : RequestBody) :
    PlainAgent.baking.run out body { world := () } =
      ((.ok (Plain.TextView.visible.report Plain.cookieLines .success .http11 []), body),
        { world := () }) := by
  rw [run, hvalid]
  rfl

/-- The lines of the request without content are ones on the wire. -/
theorem Plain.exists_outbound_stable : ∃ out, @Plain.outbound .stable {} = .ok out
    ∧ Plain.invalidLine? out.headers = none := by
  have hvalid : (@Plain.outbound .stable {}).toOption.map
      (fun out => Plain.invalidLine? out.headers) = some none := by decide +kernel
  cases hout : @Plain.outbound .stable {} with
  | error e => rw [hout] at hvalid; cases hvalid
  | ok out =>
      rw [hout] at hvalid
      exact ⟨out, rfl, Option.some.inj hvalid⟩

/-- Of two cookies that are reported the response has both twice. -/
theorem baked_answer_keeps_headers :
    ∃ (_ : Build) (response : Response),
      (PlainAgent.baking.call {} { world := () }).1.2 = .ok response
      ∧ response.headers.values .setCookie =
        (List.replicate 2 (Plain.cookieLines.map (·.2))).flatten := by
  obtain ⟨out, hout, hvalid⟩ := Plain.exists_outbound_stable
  have hrun := @PlainAgent.run_baking .stable out hvalid .empty
  obtain ⟨hplain, -, -⟩ := @answers_keep_headers Unit .stable {} { world := () } { world := () }
  obtain ⟨response, hresponse, hvalues⟩ := hplain .baking .visible _ _ _ _ out _ hout hrun
  exact ⟨.stable, response, hresponse, (hvalues .setCookie).1⟩

/-- The plain agent does not give all values of all names once: of two cookies that are reported the
response has four. -/
theorem repeated_answer_header_doubled :
    ¬ ∀ [Build] (a : PlainAgent Unit) (r : Request) (out : Plain.Outbound) (unread : RequestBody)
        (j left : Journal Unit) (lines : List (HeaderName × HeaderValue)),
      Plain.outbound r = .ok out →
      a.run out r.body j =
        ((.ok (Plain.TextView.visible.report lines .success .http11 []), unread), left) →
      ∃ response, (a.call r j).1.2 = .ok response
        ∧ ∀ n, response.headers.values n = Plain.TextView.visible.values lines n := by
  intro h
  obtain ⟨out, hout, hvalid⟩ := Plain.exists_outbound_stable
  have hrun := @PlainAgent.run_baking .stable out hvalid .empty
  obtain ⟨response, hresponse, hvalues⟩ := @h .stable .baking {} out _ _ _ _ hout hrun
  have hfour : (@PlainAgent.call Unit .stable .baking {} { world := () }).1.2.toOption.map
      (fun response => (response.headers.values .setCookie).length) = some 4 := by decide +kernel
  rw [hresponse] at hfour
  have hlength : (response.headers.values .setCookie).length = 4 := Option.some.inj hfour
  rw [hvalues .setCookie] at hlength
  exact absurd hlength (by decide +kernel)

end ApiClient
