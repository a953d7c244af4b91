import ApiClient.Http.Uri
import ApiClient.Proofs.AsciiText
import ApiClient.Proofs.Results
import ApiClient.Url.Component

/-!
# ApiClient.Proofs.UriReading

Reading the addresses of the web.

The text of such an address is a scheme and `://`, an authority, and what stands behind it. A slash,
a question mark or a hash ends the authority, and the last two end the path. These are single bytes,
and no other character has one of them in its UTF-8 form, so it does not matter whether a text is
cut before or after it is encoded.

Whether a path and a query are well-formed is what a machine with three states says that reads byte
by byte (`Zone.run`). It is needed where texts are put together: what can be read can be read up to
any place, and goes on from the state that was reached. What the path and the query then are is said
by the pieces that a URL has behind its authority (`splitPath_ofText`).
-/

namespace ApiClient

/-! ### Marks -/

/-- A text has none of the marks. -/
def Lacks (marks s : List Char) : Prop := ∀ c ∈ s, c ∉ marks

instance (marks s : List Char) : Decidable (Lacks marks s) := List.decidableBAll (· ∉ marks) s

/-- A text ends or goes on with one of the marks. -/
def StopsAt (marks s : List Char) : Prop := ∀ c ∈ s.head?, c ∈ marks

@[simp] theorem lacks_nil (marks : List Char) : Lacks marks [] := List.forall_mem_nil _

theorem lacks_cons {marks s : List Char} {c : Char} :
    Lacks marks (c :: s) ↔ c ∉ marks ∧ Lacks marks s := List.forall_mem_cons

@[simp] theorem lacks_append {marks s t : List Char} :
    Lacks marks (s ++ t) ↔ Lacks marks s ∧ Lacks marks t := List.forall_mem_append

theorem Lacks.mono {marks s t : List Char} (h : Lacks marks s) (hsub : ∀ c ∈ t, c ∈ s) :
    Lacks marks t := by
  intro c hc
  exact h c (hsub c hc)

theorem Lacks.ne {marks s : List Char} (h : Lacks marks s) {mark : Char} (hmark : mark ∈ marks) :
    ∀ c ∈ s, (c != mark) = true := by
  intro c hc
  refine bne_iff_ne.2 ?_
  rintro rfl
  exact h c hc hmark

theorem stopsAt_cons {marks s : List Char} {c : Char} : StopsAt marks (c :: s) ↔ c ∈ marks := by
  simp [StopsAt]

theorem takeWhile_of_stopsAt {mark : Char} {s : List Char} (h : StopsAt [mark] s) :
    s.takeWhile (· != mark) = [] := by
  cases s with
  | nil => rfl
  | cons c s =>
      have hc : c = mark := by simpa using stopsAt_cons.1 h
      simp [hc]

/-- Every text is cut where the first mark stands. -/
theorem exists_lacks_stopsAt (marks s : List Char) :
    ∃ front rest, s = front ++ rest ∧ Lacks marks front ∧ StopsAt marks rest := by
  obtain ⟨front, rest, hs, hfront, hrest⟩ := exists_span (fun c => !marks.contains c) s
  exact ⟨front, rest, hs, by simpa [Lacks] using hfront, by simpa [StopsAt] using hrest⟩

/-! ### Cutting bytes -/

namespace Bytes

/-- A byte string is split where the first byte stops it. -/
theorem splitBefore_append {stop : UInt8 → Bool} {front rest : Bytes}
    (hfront : ∀ b ∈ front, stop b = false) (hrest : ∀ b ∈ rest.head?, stop b = true) :
    splitBefore stop (front ++ rest) = (front, rest) :=
  span_append (by simpa using hfront) (by simpa using hrest)

/-- Every byte string is split so. -/
theorem exists_splitBefore (stop : UInt8 → Bool) (bytes : Bytes) :
    ∃ front rest, bytes = front ++ rest ∧ (∀ b ∈ front, stop b = false)
      ∧ ∀ b ∈ rest.head?, stop b = true := by
  obtain ⟨front, rest, hbytes, hfront, hrest⟩ := exists_span (!stop ·) bytes
  exact ⟨front, rest, hbytes, by simpa using hfront, by simpa using hrest⟩

/-- A text is cut at ASCII marks before or after it is encoded. -/
theorem splitBefore_ofText (marks : List Char) (stop : UInt8 → Bool)
    (hmarks : ∀ c ∈ marks, c.toNat < 0x80) (hstop : ∀ b, stop b = true ↔ b ∈ marks.map Ascii.byte)
    {front rest : List Char} (hfront : Lacks marks front) (hrest : StopsAt marks rest) :
    splitBefore stop (ofText (String.ofList (front ++ rest))) =
      (ofText (String.ofList front), ofText (String.ofList rest)) := by
  rw [ofText_ofList_append]
  refine splitBefore_append (fun b hb => ?_) ?_
  · refine eq_false_of_ne_true fun hmark => ?_
    obtain ⟨c, hc, rfl⟩ := List.mem_map.1 ((hstop b).1 hmark)
    exact hfront c (mem_of_byte_mem_ofText (hmarks c hc) hb) hc
  · cases rest with
    | nil => simp
    | cons c rest =>
        have hc := hrest c rfl
        rw [ofText_ofList_cons (hmarks c hc)]
        simpa using (hstop _).2 (List.mem_map_of_mem hc)

end Bytes

namespace Uri

/-- The characters that end an authority. -/
def authorityEnds : List Char := ['/', '?', '#']

/-- The characters that end a path. -/
def pathEnds : List Char := ['?', '#']

/-- The bytes of an ASCII text spell it. -/
theorem asciiText_ofText {chars : List Char}
    (h : ∀ b ∈ Bytes.ofText (String.ofList chars), b < 0x80) :
    asciiText (Bytes.ofText (String.ofList chars)) = String.ofList chars := by
  have hchars := Bytes.ascii_of_ofText h
  rw [String.toList_ofList] at hchars
  rw [Bytes.ofText_ofList_of_ascii hchars, asciiText, Percent.map_asciiChar_byte hchars]

/-- The bytes of a text in a class of ASCII bytes spell it. -/
theorem asciiText_of_all {p : UInt8 → Bool}
    (hascii : ∀ k : Fin 256, p (UInt8.ofNat k) = true → UInt8.ofNat k < 0x80) {chars : List Char}
    (h : (Bytes.ofText (String.ofList chars)).all p = true) :
    asciiText (Bytes.ofText (String.ofList chars)) = String.ofList chars := by
  refine asciiText_ofText fun b hb => ?_
  exact forall_byte (p := fun b => p b = true → b < 0x80) hascii b (List.all_eq_true.1 h b hb)

/-! ### Paths and queries -/

/-- Where in an address a byte stands, behind the authority. -/
inductive Zone where
  /-- In the path. -/
  | path
  /-- In the query. -/
  | query
  /-- In the fragment. -/
  | fragment

namespace Zone

/-- Where the next byte stands, if the byte may stand here. -/
def step : Zone → UInt8 → Option Zone
  | path, b =>
    if b == 0x3f then some query
    else if b == 0x23 then some fragment
    else if isPathByte b then some path else none
  | query, b =>
    if b == 0x23 then some fragment
    else if isQueryByte b then some query else none
  | fragment, _ => some fragment

/-- Where a byte string ends that starts in this zone, if all its bytes may stand where they do. -/
def run (z : Zone) (bytes : Bytes) : Option Zone := bytes.foldlM step z

theorem run_cons (z : Zone) (b : UInt8) (bytes : Bytes) :
    z.run (b :: bytes) = (z.step b).bind (·.run bytes) := List.foldlM_cons

theorem run_append (z : Zone) (a b : Bytes) : z.run (a ++ b) = (z.run a).bind (·.run b) :=
  List.foldlM_append

/-- A fragment is not looked at. -/
theorem run_fragment (bytes : Bytes) : fragment.run bytes = some fragment := by
  induction bytes with
  | nil => rfl
  | cons b bytes ih => rw [run_cons, step, Option.bind_some, ih]

/-- Bytes that a zone keeps do not leave it. -/
theorem run_eq_ite {z : Zone} {p : UInt8 → Bool} {front : Bytes}
    (h : ∀ b ∈ front, z.step b = if p b then some z else none) :
    z.run front = if front.all p then some z else none := by
  induction front with
  | nil => rfl
  | cons b front ih =>
      obtain ⟨hb, hfront⟩ := List.forall_mem_cons.1 h
      rw [run_cons, hb, List.all_cons]
      by_cases hbyte : p b = true
      · rw [if_pos hbyte, Option.bind_some, ih hfront, hbyte, Bool.true_and]
      · simp [hbyte]

theorem run_path_front {front : Bytes} (h : ∀ b ∈ front, (b == 0x3f || b == 0x23) = false) :
    path.run front = if front.all isPathByte then some path else none := by
  refine run_eq_ite fun b hb => ?_
  obtain ⟨hmark, hhash⟩ := Bool.or_eq_false_iff.1 (h b hb)
  simp only [step, hmark, hhash, Bool.false_eq_true, if_false]

theorem run_query_front {front : Bytes} (h : ∀ b ∈ front, (b == 0x23) = false) :
    query.run front = if front.all isQueryByte then some query else none := by
  refine run_eq_ite fun b hb => ?_
  simp only [step, h b hb, Bool.false_eq_true, if_false]

/-- From a hash on, or from the end, nothing more can go wrong. -/
theorem run_isSome_of_hash (z : Zone) {rest : Bytes} (h : ∀ b ∈ rest.head?, (b == 0x23) = true) :
    (z.run rest).isSome = true := by
  cases rest with
  | nil => rfl
  | cons b rest =>
      obtain rfl := eq_of_beq (h b rfl)
      have hstep : z.step 0x23 = some fragment := by cases z <;> rfl
      rw [run_cons, hstep, Option.bind_some, run_fragment]
      rfl

end Zone

/-- The query of what stands behind a path. -/
def readQuery : Bytes → Except UriError (Option String)
  | 0x3f :: rest =>
    let query := (Bytes.splitBefore (· == 0x23) rest).1
    if query.all isQueryByte then .ok (some (asciiText query)) else .error .invalidChar
  | _ => .ok none

/-- What does not start with a question mark holds no query. -/
theorem readQuery_of_not_mark {rest : Bytes} (h : ∀ query, rest ≠ 0x3f :: query) :
    readQuery rest = .ok none := by
  unfold readQuery
  split
  · next query => exact absurd rfl (h query)
  · rfl

/-- A path is read up to the first question mark or hash. -/
theorem splitPath_of_splitBefore {bytes front rest : Bytes}
    (h : Bytes.splitBefore (fun b => b == 0x3f || b == 0x23) bytes = (front, rest)) :
    splitPath bytes =
      if front.all isPathByte then (readQuery rest).map (asciiText front, ·)
      else .error .invalidChar := by
  rw [splitPath, h]
  by_cases hall : front.all isPathByte = true
  · simp only [hall, Bool.not_true, Bool.false_eq_true, if_false, if_true]
    by_cases hmark : ∃ query, rest = 0x3f :: query
    · obtain ⟨query, rfl⟩ := hmark
      simp only [readQuery]
      split
      · rfl
      · rfl
    · rw [readQuery_of_not_mark (not_exists.1 hmark)]
      split
      · next query => exact absurd ⟨query, rfl⟩ hmark
      · rfl
  · simp [hall]

/-- What stands behind a path can be read if the bytes of the query are such. -/
theorem readQuery_isOk {rest : Bytes} (hrest : ∀ b ∈ rest.head?, (b == 0x3f || b == 0x23) = true) :
    (readQuery rest).isOk = (Zone.path.run rest).isSome := by
  by_cases hmark : ∃ query, rest = 0x3f :: query
  · obtain ⟨query, rfl⟩ := hmark
    obtain ⟨front, behind, rfl, hfront, hbehind⟩ := Bytes.exists_splitBefore (· == 0x23) query
    have hstep : Zone.path.step 0x3f = some .query := rfl
    rw [Zone.run_cons, hstep, Option.bind_some, Zone.run_append, Zone.run_query_front hfront,
      readQuery, Bytes.splitBefore_append hfront hbehind]
    by_cases hall : front.all isQueryByte = true
    · simp only [hall, if_true, Option.bind_some, Zone.run_isSome_of_hash .query hbehind]
      rfl
    · simp only [hall]
      rfl
  · have hhash : ∀ b ∈ rest.head?, (b == 0x23) = true := by
      intro b hb
      have hne : b ≠ 0x3f := by
        rintro rfl
        exact hmark (List.head?_eq_some_iff.1 hb)
      simpa [hne] using hrest b hb
    rw [readQuery_of_not_mark (not_exists.1 hmark), Zone.run_isSome_of_hash .path hhash]
    rfl

/-- A path and a query can be read if every byte may stand where it does. -/
theorem splitPath_isOk (bytes : Bytes) : (splitPath bytes).isOk = (Zone.path.run bytes).isSome := by
  obtain ⟨front, rest, rfl, hfront, hrest⟩ :=
    Bytes.exists_splitBefore (fun b => b == 0x3f || b == 0x23) bytes
  rw [splitPath_of_splitBefore (Bytes.splitBefore_append hfront hrest), Zone.run_append,
    Zone.run_path_front hfront]
  by_cases hall : front.all isPathByte = true
  · simp only [hall, if_true, Option.bind_some, ← readQuery_isOk hrest]
    cases readQuery rest with
    | error e => rfl
    | ok query => rfl
  · simp only [hall]
    rfl

end Uri

/-! ### The pieces behind an authority -/

namespace Url.Tail

/-- What stands in front of every mark belongs to the path. -/
theorem ofChars_append {front : List Char} (h : Lacks Uri.pathEnds front) (s : List Char) :
    ofChars (front ++ s) = { ofChars s with path := front ++ (ofChars s).path } := by
  have hhash : ∀ c ∈ front, (c != '#') = true := h.ne (by decide)
  have hmark : ∀ c ∈ front, (c != '?') = true := h.ne (by decide)
  simp only [ofChars, List.span_eq_takeWhile_dropWhile, List.takeWhile_append_of_pos hhash,
    List.dropWhile_append_of_pos hhash, List.takeWhile_append_of_pos hmark,
    List.dropWhile_append_of_pos hmark]

/-- A mark in front leaves nothing for the path. -/
theorem path_ofChars_of_head {s : List Char} (h : StopsAt Uri.pathEnds s) :
    (ofChars s).path = [] := by
  cases s with
  | nil => rfl
  | cons c s =>
      have hc : c = '?' ∨ c = '#' := by simpa [Uri.pathEnds] using stopsAt_cons.1 h
      rcases hc with rfl | rfl
      · simp [ofChars, List.span_eq_takeWhile_dropWhile]
      · simp [ofChars, List.span_eq_takeWhile_dropWhile]

/-- Behind a question mark the query goes up to the first hash. -/
theorem query_ofChars_mark (s : List Char) :
    (ofChars ('?' :: s)).query = some (s.takeWhile (· != '#')) := by
  simp [ofChars, List.span_eq_takeWhile_dropWhile]

/-- A hash in front of every question mark leaves no query. -/
theorem query_ofChars_hash (rest : List Char) : (ofChars ('#' :: rest)).query = none := by
  simp [ofChars, List.span_eq_takeWhile_dropWhile]

/-- What stands behind a hash is neither path nor query. -/
theorem ofChars_append_hash {front : List Char} (h : Lacks ['#'] front) (rest : List Char) :
    (ofChars (front ++ '#' :: rest)).path = (ofChars front).path
      ∧ (ofChars (front ++ '#' :: rest)).query = (ofChars front).query := by
  have hhash : ∀ c ∈ front, (c != '#') = true := h.ne List.mem_cons_self
  simp [ofChars, List.span_eq_takeWhile_dropWhile, List.takeWhile_append_of_pos hhash,
    List.takeWhile_eq_self_iff.2 hhash]

end Url.Tail

namespace Uri

/-- The query is read as a URL has it. -/
theorem readQuery_ofText {s : List Char} {query : Option String} (hs : StopsAt pathEnds s)
    (h : readQuery (Bytes.ofText (String.ofList s)) = .ok query) :
    query = (Url.Tail.ofChars s).query.map String.ofList := by
  cases s with
  | nil => exact (Except.ok.inj h).symm
  | cons c s =>
      have hc : c = '?' ∨ c = '#' := by simpa [pathEnds] using stopsAt_cons.1 hs
      rcases hc with rfl | rfl
      · obtain ⟨front, rest, rfl, hfront, hrest⟩ := exists_lacks_stopsAt ['#'] s
        have hcut := Bytes.splitBefore_ofText ['#'] (· == 0x23) (by simp) (by simp [Ascii.byte])
          hfront hrest
        rw [Bytes.ofText_ofList_cons (by decide), show Ascii.byte '?' = 0x3f from rfl, readQuery,
          hcut] at h
        rw [Url.Tail.query_ofChars_mark,
          List.takeWhile_append_of_pos (hfront.ne List.mem_cons_self),
          takeWhile_of_stopsAt hrest, List.append_nil]
        split at h
        · next hall => rw [← Except.ok.inj h, asciiText_of_all (by decide +kernel) hall]; rfl
        · cases h
      · rw [Bytes.ofText_ofList_cons (by decide), readQuery_of_not_mark (by simp [Ascii.byte])] at h
        rw [Url.Tail.query_ofChars_hash s]
        exact (Except.ok.inj h).symm

/-- A path and a query are read as a URL has them behind its authority. -/
theorem splitPath_ofText {s : List Char} {path : String} {query : Option String}
    (h : splitPath (Bytes.ofText (String.ofList s)) = .ok (path, query)) :
    path = String.ofList (Url.Tail.ofChars s).path
      ∧ query = (Url.Tail.ofChars s).query.map String.ofList := by
  obtain ⟨front, rest, rfl, hfront, hrest⟩ := exists_lacks_stopsAt pathEnds s
  have hcut := Bytes.splitBefore_ofText pathEnds (fun b => b == 0x3f || b == 0x23)
    (by simp [pathEnds]) (by simp [pathEnds, Ascii.byte]) hfront hrest
  rw [splitPath_of_splitBefore hcut] at h
  rw [Url.Tail.ofChars_append hfront, Url.Tail.path_ofChars_of_head hrest, List.append_nil]
  split at h
  · next hall =>
    cases hquery : readQuery (Bytes.ofText (String.ofList rest)) with
    | error e =>
        rw [hquery] at h
        cases h
    | ok query' =>
        rw [hquery, asciiText_of_all (by decide +kernel) hall] at h
        cases h
        exact ⟨rfl, readQuery_ofText hrest hquery⟩
  · cases h

/-! ### Whole addresses -/

/-- A text that an address may have as its authority. -/
def IsAuthority (authority : List Char) : Prop :=
  ∃ scan : AuthorityScan,
    (Bytes.ofText (String.ofList authority)).foldlM AuthorityScan.step {} = .ok scan
      ∧ scan.isComplete = true

theorem ascii_of_step {s s' : AuthorityScan} {b : UInt8} (h : s.step b = .ok s') : b < 0x80 := by
  by_contra hhigh
  have hnot : ¬ b < 0x80 → isAuthorityByte b = false :=
    forall_byte (p := fun b => ¬ b < 0x80 → isAuthorityByte b = false) (by decide +kernel) b
  have hne : ∀ k : UInt8, k < 0x80 → (b == k) = false := by
    intro k hk
    refine beq_eq_false_iff_ne.2 ?_
    rintro rfl
    exact hhigh hk
  rw [AuthorityScan.step] at h
  simp [hne 0x3a (by decide), hne 0x5b (by decide), hne 0x5d (by decide), hne 0x40 (by decide),
    hne 0x25 (by decide), hnot hhigh] at h

/-- What was looked at as an authority without an error is ASCII. -/
theorem ascii_of_foldlM {bytes : Bytes} {s s' : AuthorityScan}
    (h : bytes.foldlM AuthorityScan.step s = .ok s') : ∀ b ∈ bytes, b < 0x80 := by
  induction bytes generalizing s with
  | nil => simp
  | cons b bytes ih =>
      rw [List.foldlM_cons] at h
      cases hstep : s.step b with
      | error e =>
          rw [hstep] at h
          cases h
      | ok next =>
          rw [hstep] at h
          exact List.forall_mem_cons.2 ⟨ascii_of_step hstep, ih h⟩

/-- The bytes of an authority spell it. -/
theorem IsAuthority.asciiText_eq {authority : List Char} (h : IsAuthority authority) :
    asciiText (Bytes.ofText (String.ofList authority)) = String.ofList authority := by
  obtain ⟨scan, hscan, -⟩ := h
  exact asciiText_ofText (ascii_of_foldlM hscan)

/-- An authority is split off at the first character that ends it. -/
theorem splitAuthority_ofText {authority rest : List Char}
    (hauthority : Lacks authorityEnds authority) (hrest : StopsAt authorityEnds rest)
    {bytes behind : Bytes} :
    splitAuthority (Bytes.ofText (String.ofList (authority ++ rest))) = .ok (bytes, behind) ↔
      IsAuthority authority ∧ bytes = Bytes.ofText (String.ofList authority)
        ∧ behind = Bytes.ofText (String.ofList rest) := by
  have hcut := Bytes.splitBefore_ofText authorityEnds endsAuthority (by simp [authorityEnds])
    (by simp [authorityEnds, endsAuthority, Ascii.byte, or_assoc]) hauthority hrest
  simp only [splitAuthority, hcut, bind_eq_ok_iff, IsAuthority]
  constructor
  · rintro ⟨scan, hscan, h⟩
    split at h
    · next hcomplete =>
      cases h
      exact ⟨⟨scan, hscan, hcomplete⟩, rfl, rfl⟩
    · cases h
  · rintro ⟨⟨scan, hscan, hcomplete⟩, rfl, rfl⟩
    exact ⟨scan, hscan, if_pos hcomplete⟩

/-- The scheme of the web and its marks are split off. -/
theorem splitScheme_web {scheme : String} (h : scheme = "http" ∨ scheme = "https") (rest : Bytes) :
    splitScheme (Bytes.ofText scheme ++ 0x3a :: 0x2f :: 0x2f :: rest) =
      .ok (some scheme, rest) := by
  have htoken : (Bytes.ofText scheme).all isSchemeByte = true := by
    rcases h with rfl | rfl <;> decide
  have hlower : asciiText (Bytes.toLower (Bytes.ofText scheme)) = scheme := by
    rcases h with rfl | rfl <;> decide
  rw [splitScheme, span_append_cons htoken (by decide)]
  have hweb : (scheme == "http" || scheme == "https") = true := by simpa using h
  simp only [hlower, hweb, if_true]

/-- A target of more than one byte that starts with no slash is an authority alone, or a scheme, an
authority, and what stands behind them. -/
theorem parseBytes_cons_cons {a b : UInt8} (ha : a ≠ 0x2f) {more : Bytes} {u : Uri} :
    parseBytes (a :: b :: more) = .ok u ↔
      (a :: b :: more).length ≤ 65534
      ∧ ∃ scheme rest, splitScheme (a :: b :: more) = .ok (scheme, rest)
      ∧ ∃ authority behind, splitAuthority rest = .ok (authority, behind)
      ∧ (scheme = none ∧ behind = [] ∧ u = ⟨none, some (asciiText authority), "", none⟩
        ∨ scheme ≠ none ∧ authority ≠ [] ∧ ∃ path query, splitPath behind = .ok (path, query)
          ∧ u = ⟨scheme, some (asciiText authority), path, query⟩) := by
  unfold parseBytes
  rw [ite_error_eq_ok_iff, Nat.not_lt]
  refine and_congr_right fun _ => ?_
  split
  · next heq => simp at heq
  · next heq => simp at heq
  · next heq => simp at heq
  · next heq => simp at heq
  · next heq => exact absurd (List.cons.inj heq).1 ha
  · simp only [bind_eq_ok_iff, Prod.exists]
    refine exists_congr fun scheme => exists_congr fun rest => and_congr_right fun _ =>
      exists_congr fun authority => exists_congr fun behind => and_congr_right fun _ => ?_
    cases scheme with
    | none =>
        cases behind with
        | nil => simp [eq_comm]
        | cons _ _ => simp
    | some scheme =>
        simp only [Option.isNone_some, Bool.false_eq_true, if_false, ite_error_eq_ok_iff,
          List.isEmpty_iff, bind_eq_ok_iff, Prod.exists, Except.ok.injEq, reduceCtorEq, false_and,
          false_or, ne_eq, not_false_eq_true, true_and, eq_comm (a := u)]

/-- An address with a web scheme is read piece by piece. -/
theorem parseBytes_web {scheme : String} (h : scheme = "http" ∨ scheme = "https") {rest : Bytes}
    {u : Uri} :
    parseBytes (Bytes.ofText scheme ++ 0x3a :: 0x2f :: 0x2f :: rest) = .ok u ↔
      (Bytes.ofText scheme ++ 0x3a :: 0x2f :: 0x2f :: rest).length ≤ 65534
      ∧ ∃ authority behind, splitAuthority rest = .ok (authority, behind) ∧ authority ≠ []
      ∧ ∃ path query, splitPath behind = .ok (path, query)
      ∧ u = ⟨some scheme, some (asciiText authority), path, query⟩ := by
  have hscheme := splitScheme_web h rest
  obtain ⟨a, b, more, hbytes, ha⟩ : ∃ a b more,
      Bytes.ofText scheme ++ 0x3a :: 0x2f :: 0x2f :: rest = a :: b :: more ∧ a ≠ 0x2f := by
    rcases h with rfl | rfl
    · exact ⟨_, _, _, rfl, by decide⟩
    · exact ⟨_, _, _, rfl, by decide⟩
  rw [hbytes] at hscheme ⊢
  rw [parseBytes_cons_cons ha]
  refine and_congr_right fun _ => ?_
  simp [hscheme]

/-- **An address of the web is read as its pieces.** Nothing of it is changed, and it is refused
only for its length, for its authority, or for a byte of its path or query. -/
theorem parse_web {scheme : String} (h : scheme = "http" ∨ scheme = "https")
    {authority rest : List Char} (hauthority : Lacks authorityEnds authority)
    (hrest : StopsAt authorityEnds rest) {u : Uri} :
    parse (String.ofList (scheme.toList ++ ':' :: '/' :: '/' :: (authority ++ rest))) = .ok u ↔
      (Bytes.ofText
        (String.ofList (scheme.toList ++ ':' :: '/' :: '/' :: (authority ++ rest)))).length ≤ 65534
      ∧ IsAuthority authority ∧ authority ≠ []
      ∧ ∃ path query, splitPath (Bytes.ofText (String.ofList rest)) = .ok (path, query)
      ∧ u = ⟨some scheme, some (String.ofList authority), path, query⟩ := by
  have hmarks : Bytes.ofText (String.ofList (':' :: '/' :: '/' :: (authority ++ rest))) =
      0x3a :: 0x2f :: 0x2f :: Bytes.ofText (String.ofList (authority ++ rest)) := by
    simp only [Bytes.ofText_ofList_cons (show ':'.toNat < 0x80 by decide),
      Bytes.ofText_ofList_cons (show '/'.toNat < 0x80 by decide)]
    rfl
  rw [parse, Bytes.ofText_ofList_append, String.ofList_toList, hmarks, parseBytes_web h]
  refine and_congr_right fun _ => ?_
  constructor
  · rintro ⟨bytes, behind, hsplit, hne, path, query, hpath, rfl⟩
    obtain ⟨hok, rfl, rfl⟩ := (splitAuthority_ofText hauthority hrest).1 hsplit
    refine ⟨hok, ?_, path, query, hpath, by rw [hok.asciiText_eq]⟩
    rintro rfl
    exact hne rfl
  · rintro ⟨hok, hne, path, query, hpath, rfl⟩
    refine ⟨_, _, (splitAuthority_ofText hauthority hrest).2 ⟨hok, rfl, rfl⟩, ?_, path,
      query, hpath, by rw [hok.asciiText_eq]⟩
    refine Bytes.ofText_ne_nil fun hempty => hne ?_
    rw [← String.toList_ofList (l := authority), hempty]
    rfl

end Uri

end ApiClient
