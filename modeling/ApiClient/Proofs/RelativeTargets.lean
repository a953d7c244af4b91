import ApiClient.Proofs.TemplateGrammar
import ApiClient.Proofs.WebUrl

/-!
# ApiClient.Proofs.RelativeTargets

Where a relative target leads from a base address.

A target is put behind the whole text of the base. The text of a URL of the web can be cut where its
parts meet, and its authority does not end in a slash, so what is joined starts with the scheme and
the authority of the base as they are (`join_text`). The rest is read by the machine of paths and
queries, and from every state of it the bytes that templates let through lead on. So a relative
target is always valid, and never leaves the base.

The path of the target is concatenated to that of the base if the base has neither a query nor a
fragment. If it has one of them, the whole target stands behind it and the path of the base stays
alone.
-/

namespace ApiClient

/-! ### What templates let through -/

namespace Template

/-- A character that may come out of an expansion. -/
def IsKept (c : Char) : Prop := c.toNat < 0x80 ∧ keepsInLiteral (Ascii.byte c) = true

instance (c : Char) : Decidable (IsKept c) := inferInstanceAs (Decidable (_ ∧ _))

theorem isKept_of_mem_encodeLiteral (literal : List Char) :
    ∀ c ∈ encodeLiteral literal, IsKept c := by
  induction literal with
  | nil => simp [encodeLiteral]
  | cons c rest ih =>
      rw [encodeLiteral]
      refine List.forall_mem_append.2 ⟨?_, ih⟩
      split
      · split
        · exact List.forall_mem_singleton.2 (by decide)
        · simp only [List.forall_mem_cons]
          exact ⟨by decide, by decide, by decide, List.forall_mem_nil _⟩
      · refine Percent.forall_mem_encode (fun b => ?_) (by decide) (by decide) _
        exact forall_byte (p := fun b => keepsInLiteral b = true → IsKept (Percent.asciiChar b))
          (by decide +kernel) b

theorem isKept_of_mem_encodeValue (value : String) : ∀ c ∈ encodeValue value, IsKept c := by
  refine Percent.forall_mem_encode (fun b => ?_) (by decide) (by decide) _
  exact forall_byte (p := fun b => isUnreserved b = true → IsKept (Percent.asciiChar b))
    (by decide +kernel) b

/-- An expansion has visible ASCII characters with a place in addresses only. -/
theorem Expands.isKept {bindings : Variables} {first : Nat} {text result : List Char}
    (h : Expands bindings first text result) : ∀ c ∈ result, IsKept c := by
  obtain ⟨slots, last, -, -, -, rfl⟩ := h
  refine List.forall_mem_append.2 ⟨fun c hc => ?_, isKept_of_mem_encodeLiteral last⟩
  obtain ⟨slot, -, hslot⟩ := List.mem_flatMap.1 hc
  exact List.forall_mem_append.2
    ⟨isKept_of_mem_encodeLiteral slot.literal, isKept_of_mem_encodeValue slot.value⟩ c hslot

/-- What expansion lets through may stand in a path, in a query and in a fragment. -/
theorem step_isSome_of_kept (z : Uri.Zone) {b : UInt8} (h : keepsInLiteral b = true) :
    (z.step b).isSome = true := by
  cases z with
  | path =>
      exact forall_byte
        (p := fun b => keepsInLiteral b = true → (Uri.Zone.path.step b).isSome = true)
        (by decide +kernel) b h
  | query =>
      exact forall_byte
        (p := fun b => keepsInLiteral b = true → (Uri.Zone.query.step b).isSome = true)
        (by decide +kernel) b h
  | fragment => rfl

theorem run_isSome_of_kept (z : Uri.Zone) {chars : List Char} (h : ∀ c ∈ chars, IsKept c) :
    (z.run (Bytes.ofText (String.ofList chars))).isSome = true := by
  rw [Bytes.ofText_ofList_of_ascii fun c hc => (h c hc).1]
  induction chars generalizing z with
  | nil => rfl
  | cons c chars ih =>
      obtain ⟨hc, hchars⟩ := List.forall_mem_cons.1 h
      obtain ⟨next, hnext⟩ := Option.isSome_iff_exists.1 (step_isSome_of_kept z hc.2)
      rw [List.map_cons, Uri.Zone.run_cons, hnext, Option.bind_some]
      exact ih next hchars

end Template

namespace Address

open Template (IsKept)

theorem expand_eq_ok_iff {template : String} {bindings : Variables} {target : String} :
    expand template bindings = .ok target ↔
      ∃ chars, Template.expandFrom bindings 0 (Template.read template) = .ok chars
        ∧ String.ofList chars = target :=
  mapError_eq_ok_iff.trans map_eq_ok_iff

theorem isKept_of_expand {template : String} {bindings : Variables} {target : String}
    (h : expand template bindings = .ok target) : ∀ c ∈ target.toList, IsKept c := by
  obtain ⟨chars, hchars, rfl⟩ := expand_eq_ok_iff.1 h
  rw [String.toList_ofList]
  exact (Template.expandFrom_eq_ok_iff.1 hchars).isKept

/-! ### Joining -/

/-- Only the slashes behind the last other character are trimmed. -/
theorem trimEnd_append_cons {c : Char} (hc : c ≠ '/') (front rest : List Char) :
    trimEnd (front ++ c :: rest) = front ++ c :: trimEnd rest := by
  have hreverse : (front ++ c :: rest).reverse = rest.reverse ++ c :: front.reverse := by simp
  rw [trimEnd, hreverse, List.dropWhile_append, trimEnd]
  split
  · next hempty => simp [List.isEmpty_iff.1 hempty, hc]
  · simp

theorem exists_trimEnd_append (s : List Char) : ∃ slashes, s = trimEnd s ++ slashes := by
  have hparts := List.takeWhile_append_dropWhile (p := fun c => decide (c = '/')) (l := s.reverse)
  refine ⟨(s.reverse.takeWhile (· = '/')).reverse, ?_⟩
  rw [trimEnd, ← List.reverse_append, hparts, List.reverse_reverse]

theorem lacks_trimEnd {marks s : List Char} (h : Lacks marks s) : Lacks marks (trimEnd s) := by
  obtain ⟨slashes, hslashes⟩ := exists_trimEnd_append s
  rw [hslashes] at h
  exact (lacks_append.1 h).1

/-- What stands in front of a character other than a slash is not touched. -/
theorem join_append_cons {c : Char} (hc : c ≠ '/') (front rest target : List Char) :
    join (front ++ c :: rest) target = front ++ c :: join rest target := by
  unfold join
  split
  · simp
  · simp [trimEnd_append_cons hc]

/-- **Joining keeps the scheme and the authority.** The target is put behind the path, the query and
the fragment of the base. -/
theorem join_text {base : Url} (h : base.IsWeb) (target : List Char) :
    join base.text.toList target =
      base.scheme.toList ++ ':' :: '/' :: '/' ::
        (base.authority.toList ++ join (base.path.toList ++ base.behindPath.toList) target) := by
  obtain ⟨front, c, hauthority⟩ : ∃ front c, base.authority.toList = front ++ [c] :=
    ⟨_, _, (List.dropLast_concat_getLast h.authority_ne_nil).symm⟩
  have hc : c ≠ '/' := by
    rintro rfl
    exact h.authority_lacks '/' (by simp [hauthority]) (by decide)
  have hjoin := join_append_cons hc (base.scheme.toList ++ ':' :: '/' :: '/' :: front)
    (base.path.toList ++ base.behindPath.toList) target
  rw [h.toList_text, hauthority]
  simpa using hjoin

theorem head?_join {rest : List Char} (h : rest.head? = some '/') (target : List Char) :
    (join rest target).head? = some '/' := by
  unfold join
  split
  · rw [List.head?_append, h]
    rfl
  · obtain ⟨slashes, hslashes⟩ := exists_trimEnd_append rest
    cases htrim : trimEnd rest with
    | nil => rfl
    | cons c trimmed =>
        rw [htrim] at hslashes
        rw [hslashes] at h
        exact h

/-- Where the base can be read, what comes out of an expansion can be read behind it. -/
theorem run_join {rest target : List Char}
    (hrest : (Uri.Zone.path.run (Bytes.ofText (String.ofList rest))).isSome = true)
    (htarget : ∀ c ∈ target, IsKept c) :
    (Uri.Zone.path.run (Bytes.ofText (String.ofList (join rest target)))).isSome = true := by
  have hbehind : ∀ front behind : List Char, (∀ c ∈ behind, IsKept c) →
      (Uri.Zone.path.run (Bytes.ofText (String.ofList front))).isSome = true →
      (Uri.Zone.path.run (Bytes.ofText (String.ofList (front ++ behind)))).isSome = true := by
    intro front behind hkept hfront
    obtain ⟨z, hz⟩ := Option.isSome_iff_exists.1 hfront
    rw [Bytes.ofText_ofList_append, Uri.Zone.run_append, hz, Option.bind_some]
    exact Template.run_isSome_of_kept z hkept
  unfold join
  split
  · exact hbehind rest target htarget hrest
  · refine hbehind (trimEnd rest) _ (List.forall_mem_cons.2 ⟨by decide, fun c hc => ?_⟩) ?_
    · exact htarget c ((List.dropWhile_sublist _).mem hc)
    · -- What can be read can be read up to its last slashes.
      obtain ⟨slashes, hslashes⟩ := exists_trimEnd_append rest
      rw [hslashes, Bytes.ofText_ofList_append, Uri.Zone.run_append] at hrest
      exact Option.isSome_of_isSome_bind hrest

/-- What a relative target resolves to is read from the text that joins it to the base. -/
theorem resolve_relative {base : Url} {target : String} (h : hasScheme target.toList = false)
    {u : Uri} :
    resolve (some base) target = .ok u ↔
      Uri.parse (String.ofList (join base.text.toList target.toList)) = .ok u := by
  simp only [resolve, absolute, h, bind_eq_ok_iff, Except.ok.injEq, exists_eq_left',
    mapError_eq_ok_iff, Bool.false_eq_true, if_false]

theorem head?_path_append {base : Url} (hweb : base.IsWeb) (behind : List Char) :
    (base.path.toList ++ behind).head? = some '/' := by
  rw [List.head?_append, hweb.path_head]
  rfl

theorem stopsAt_slash {s : List Char} (h : s.head? = some '/') : StopsAt Uri.authorityEnds s := by
  obtain ⟨rest, rfl⟩ := List.head?_eq_some_iff.1 h
  exact stopsAt_cons.2 (by decide)

/-- The join of a base of the web and a target is read as the base's scheme and authority, and what
stands behind them. -/
theorem resolve_web {base : Url} (hweb : base.IsWeb) {target : String}
    (h : hasScheme target.toList = false) {u : Uri} :
    resolve (some base) target = .ok u ↔
      (Bytes.ofText (String.ofList (join base.text.toList target.toList))).length ≤ 65534
      ∧ Uri.IsAuthority base.authority.toList
      ∧ ∃ path query, Uri.splitPath (Bytes.ofText (String.ofList
          (join (base.path.toList ++ base.behindPath.toList) target.toList))) = .ok (path, query)
      ∧ u = ⟨some base.scheme, some base.authority, path, query⟩ := by
  have hhead := head?_join (head?_path_append hweb base.behindPath.toList) target.toList
  have hends : StopsAt Uri.authorityEnds
      (join (base.path.toList ++ base.behindPath.toList) target.toList) := stopsAt_slash hhead
  rw [resolve_relative h, join_text hweb, Uri.parse_web hweb.scheme hweb.authority_lacks hends,
    String.ofList_toList]
  simp only [hweb.authority_ne_nil, ne_eq, not_false_eq_true, true_and]

/-- A base that can be read by itself has an authority, and its path and query can be read. -/
theorem parts_of_own {base : Url} (hweb : base.IsWeb) {own : Uri}
    (h : Uri.parse base.text = .ok own) :
    (own.scheme = some base.scheme ∧ own.authority = some base.authority)
      ∧ Uri.IsAuthority base.authority.toList
      ∧ (Uri.Zone.path.run (Bytes.ofText
          (String.ofList (base.path.toList ++ base.behindPath.toList)))).isSome = true := by
  have hends := stopsAt_slash (head?_path_append hweb base.behindPath.toList)
  rw [← String.ofList_toList (s := base.text), hweb.toList_text,
    Uri.parse_web hweb.scheme hweb.authority_lacks hends] at h
  obtain ⟨-, hauthority, -, path, query, hsplit, rfl⟩ := h
  refine ⟨⟨rfl, by rw [String.ofList_toList]⟩, hauthority, ?_⟩
  rw [← Uri.splitPath_isOk, hsplit]
  rfl

/-- **A relative target is always valid and never leaves the base.** Whatever the template and the
values are, what they expand to resolves behind a base of the web that can be read by itself, as
long as the joined text is not too long. The scheme and the authority are those of the base, as a
URL and as it is read by itself. -/
theorem relative_target_stays {s : String} {base : Url} (hbase : Url.parse s = .ok base)
    (hweb : base.scheme = "http" ∨ base.scheme = "https") {own : Uri}
    (hown : Uri.parse base.text = .ok own)
    {template : String} {bindings : Variables} {target : String}
    (htarget : expand template bindings = .ok target) (hrelative : hasScheme target.toList = false)
    (hlength : (Bytes.ofText (String.ofList (join base.text.toList target.toList))).length ≤
      65534) :
    ∃ u, resolve (some base) target = .ok u
      ∧ (u.scheme = some base.scheme ∧ u.authority = some base.authority)
      ∧ u.scheme = own.scheme ∧ u.authority = own.authority := by
  have hcut := Url.isWeb_of_parse hbase hweb
  obtain ⟨⟨hscheme, hsame⟩, hauthority, hrun⟩ := parts_of_own hcut hown
  have hkept := isKept_of_expand htarget
  have hok := Uri.splitPath_isOk (Bytes.ofText (String.ofList
    (join (base.path.toList ++ base.behindPath.toList) target.toList)))
  rw [run_join hrun hkept] at hok
  obtain ⟨⟨path, query⟩, hsplit⟩ := exists_of_isOk hok
  exact ⟨_, (resolve_web hcut hrelative).2 ⟨hlength, hauthority, path, query, hsplit, rfl⟩,
    ⟨rfl, rfl⟩, hscheme.symm, hsame.symm⟩

/-- The base `http://[::1]/p/`. -/
def loopback : Url where
  scheme := "http"
  username := ""
  password := none
  host := some (.ipv6 [0, 0, 0, 0, 0, 0, 0, 1])
  port := none
  isFlat := false
  path := "/p/"
  query := none
  fragment := none

theorem parse_loopback : Url.parse "http://[::1]/p/" = .ok loopback :=
  eq_ok_of_toOption_eq_some (by decide +kernel)

/-- A target that would have an authority of its own stays behind the base. -/
theorem foreign_target_stays :
    ∃ u, resolve (some loopback) "//u@v:1/%C3%A4a%2Fb" = .ok u
      ∧ u.scheme = some "http" ∧ u.authority = some "[::1]" := by
  have hown : Uri.parse loopback.text = .ok ⟨some "http", some "[::1]", "/p/", none⟩ :=
    eq_ok_of_toOption_eq_some (by decide +kernel)
  have htarget : expand "//u@v:1/ä\x7bx\x7d" (.positional ["a/b"]) = .ok "//u@v:1/%C3%A4a%2Fb" :=
    eq_ok_of_toOption_eq_some (by decide +kernel)
  obtain ⟨u, hu, -, hscheme, hauthority⟩ :=
    relative_target_stays parse_loopback (.inl rfl) hown htarget (by decide +kernel)
      (by decide +kernel)
  exact ⟨u, hu, hscheme, hauthority⟩

/-! ### Concatenating paths -/

/-- A target that starts with a slash is relative. -/
theorem hasScheme_of_slash {target : List Char} (h : target.head? = some '/') :
    hasScheme target = false := by
  obtain ⟨rest, rfl⟩ := List.head?_eq_some_iff.1 h
  rw [hasScheme, beforeSchemeMark?, if_neg (by simp)]
  cases beforeSchemeMark? rest with
  | none => rfl
  | some scheme => rfl

/-- Slashes in front of a text are slashes in front of its path. -/
theorem ofChars_dropWhile (s : List Char) :
    (Url.Tail.ofChars (s.dropWhile (· = '/'))).path = (Url.Tail.ofChars s).path.dropWhile (· = '/')
      ∧ (Url.Tail.ofChars (s.dropWhile (· = '/'))).query = (Url.Tail.ofChars s).query := by
  induction s with
  | nil => exact ⟨rfl, rfl⟩
  | cons c s ih =>
      by_cases hmark : c ∈ Uri.pathEnds
      · have hne : ¬ c = '/' := by
          rintro rfl
          exact absurd hmark (by decide)
        have hpath : (Url.Tail.ofChars (c :: s)).path = [] :=
          Url.Tail.path_ofChars_of_head (stopsAt_cons.2 hmark)
        simp [hne, hpath]
      · have hfront := Url.Tail.ofChars_append (lacks_cons.2 ⟨hmark, lacks_nil _⟩) s
        rw [List.singleton_append] at hfront
        by_cases hslash : c = '/'
        · obtain rfl := hslash
          simpa [hfront] using ih
        · simp [hfront, hslash]

theorem join_of_slash {target : List Char} (h : target.head? = some '/') (base : List Char) :
    join base target = trimEnd base ++ '/' :: target.dropWhile (· = '/') := by
  obtain ⟨rest, rfl⟩ := List.head?_eq_some_iff.1 h
  rw [join, if_neg (by simp)]

/-- Behind a path the target's own path goes on, and the target's query is the query. -/
theorem ofChars_join_path {path target : List Char} (hpath : Lacks Uri.pathEnds path)
    (htarget : target.head? = some '/') :
    (Url.Tail.ofChars (join path target)).path =
        trimEnd path ++ '/' :: (Url.Tail.ofChars target).path.dropWhile (· = '/')
      ∧ (Url.Tail.ofChars (join path target)).query = (Url.Tail.ofChars target).query := by
  have hfront : Lacks Uri.pathEnds (trimEnd path ++ ['/']) :=
    lacks_append.2 ⟨lacks_trimEnd hpath, by decide⟩
  have hjoin : join path target = (trimEnd path ++ ['/']) ++ target.dropWhile (· = '/') := by
    rw [join_of_slash htarget, List.append_assoc]
    rfl
  obtain ⟨hrest, hquery⟩ := ofChars_dropWhile target
  rw [hjoin, Url.Tail.ofChars_append hfront, hrest, hquery]
  exact ⟨by simp, rfl⟩

/-- Behind a query the target leaves the path as it is and goes on with the query. -/
theorem ofChars_join_query {path query : List Char} (hpath : Lacks Uri.pathEnds path)
    (hquery : Lacks ['#'] query) {target : List Char} (htarget : target.head? = some '/') :
    (Url.Tail.ofChars (join (path ++ '?' :: query) target)).path = path
      ∧ (Url.Tail.ofChars (join (path ++ '?' :: query) target)).query =
        some (trimEnd query ++ '/' :: (target.dropWhile (· = '/')).takeWhile (· != '#')) := by
  have htrim : ∀ c ∈ trimEnd query, (c != '#') = true :=
    (lacks_trimEnd hquery).ne List.mem_cons_self
  rw [join_append_cons (by decide), Url.Tail.ofChars_append hpath]
  constructor
  · rw [Url.Tail.path_ofChars_of_head (stopsAt_cons.2 (by decide)), List.append_nil]
  · rw [Url.Tail.query_ofChars_mark, join_of_slash htarget, List.takeWhile_append_of_pos htrim]
    simp

/-- Behind a fragment the target leaves everything in front of it as it is. -/
theorem ofChars_join_fragment {front : List Char} (hfront : Lacks ['#'] front)
    (fragment target : List Char) :
    (Url.Tail.ofChars (join (front ++ '#' :: fragment) target)).path = (Url.Tail.ofChars front).path
      ∧ (Url.Tail.ofChars (join (front ++ '#' :: fragment) target)).query =
        (Url.Tail.ofChars front).query := by
  rw [join_append_cons (by decide)]
  exact Url.Tail.ofChars_append_hash hfront _

/-- The path and the query of a base are found again in front of its fragment. -/
theorem ofChars_path_query {base : Url} (hweb : base.IsWeb) :
    ∃ front, Lacks ['#'] front
      ∧ (∀ fragment, base.fragment = some fragment →
        base.path.toList ++ base.behindPath.toList = front ++ '#' :: fragment.toList)
      ∧ (Url.Tail.ofChars front).path = base.path.toList
      ∧ (Url.Tail.ofChars front).query = base.query.map String.toList := by
  have hpath : Lacks ['#'] base.path.toList := by
    intro c hc hmem
    obtain rfl := List.mem_singleton.1 hmem
    exact hweb.path_lacks '#' hc (by decide)
  cases hquery : base.query with
  | none =>
      refine ⟨base.path.toList, hpath, ?_, ?_⟩
      · intro fragment hfragment
        simp [Url.behindPath, hquery, hfragment]
      · have htail := Url.Tail.ofChars_append hweb.path_lacks []
        rw [List.append_nil] at htail
        rw [htail]
        exact ⟨List.append_nil _, rfl⟩
  | some query =>
      have hfree := hweb.query_lacks query hquery
      refine ⟨base.path.toList ++ '?' :: query.toList, ?_, ?_, ?_⟩
      · exact lacks_append.2 ⟨hpath, lacks_cons.2 ⟨by decide, hfree⟩⟩
      · intro fragment hfragment
        simp [Url.behindPath, hquery, hfragment]
      · rw [Url.Tail.ofChars_append hweb.path_lacks, Url.Tail.query_ofChars_mark,
          List.takeWhile_eq_self_iff.2 (hfree.ne List.mem_cons_self),
          Url.Tail.path_ofChars_of_head (stopsAt_cons.2 (by decide))]
        exact ⟨List.append_nil _, rfl⟩

theorem path_ofList {u : Uri} {chars : List Char} (hne : chars ≠ [])
    (h : u.rawPath = String.ofList chars) : u.path = String.ofList chars := by
  simp [Uri.path, h, hne]

/-- **Paths are concatenated behind a base without a query and a fragment.** The path of the target
goes on where the path of the base ends, with one slash between them, and the query is that of the
target. Behind a base with a query the target goes on with the query, and behind a base with a
fragment nothing is left of it. -/
theorem relative_path_concatenates {s : String} {base : Url} (hbase : Url.parse s = .ok base)
    (hweb : base.scheme = "http" ∨ base.scheme = "https") {target : String}
    (hslash : target.toList.head? = some '/') {u : Uri} (h : resolve (some base) target = .ok u) :
    (base.query = none → base.fragment = none →
      u.path = String.ofList (trimEnd base.path.toList ++ '/' ::
          (Url.Tail.ofChars target.toList).path.dropWhile (· = '/'))
        ∧ u.query = (Url.Tail.ofChars target.toList).query.map String.ofList)
    ∧ (∀ query, base.query = some query → base.fragment = none →
      u.path = base.path
        ∧ u.query = some (String.ofList (trimEnd query.toList ++ '/' ::
          (target.toList.dropWhile (· = '/')).takeWhile (· != '#'))))
    ∧ (base.fragment ≠ none → u.path = base.path ∧ u.query = base.query) := by
  have hcut := Url.isWeb_of_parse hbase hweb
  obtain ⟨-, -, path, query, hsplit, rfl⟩ := (resolve_web hcut (hasScheme_of_slash hslash)).1 h
  obtain ⟨rfl, rfl⟩ := Uri.splitPath_ofText hsplit
  have hne : base.path.toList ≠ [] := by
    intro hempty
    have hhead := hcut.path_head
    rw [hempty] at hhead
    cases hhead
  refine ⟨fun hquery hfragment => ?_, fun query hquery hfragment => ?_, fun hfragment => ?_⟩
  · have hbehind : base.behindPath.toList = [] := by simp [Url.behindPath, hquery, hfragment]
    obtain ⟨hpath, hjoined⟩ := ofChars_join_path hcut.path_lacks hslash
    rw [hbehind, List.append_nil]
    exact ⟨path_ofList (by simp) (congrArg String.ofList hpath),
      congrArg (Option.map String.ofList) hjoined⟩
  · have hbehind : base.behindPath.toList = '?' :: query.toList := by
      simp [Url.behindPath, hquery, hfragment]
    obtain ⟨hpath, hjoined⟩ :=
      ofChars_join_query hcut.path_lacks (hcut.query_lacks query hquery) hslash
    rw [hbehind, hpath, hjoined, path_ofList hne rfl, String.ofList_toList]
    exact ⟨rfl, rfl⟩
  · obtain ⟨fragment, hfragment⟩ := Option.ne_none_iff_exists'.1 hfragment
    obtain ⟨front, hfront, htext, hpath, hquery⟩ := ofChars_path_query hcut
    obtain ⟨hsamePath, hsameQuery⟩ := ofChars_join_fragment hfront fragment.toList target.toList
    rw [htext fragment hfragment, hsamePath, hsameQuery, hpath, hquery, path_ofList hne rfl,
      String.ofList_toList]
    exact ⟨rfl, by simp [Function.comp_def]⟩

/-- Slashes on both sides become one, and the fragment of the target is dropped. -/
theorem loopback_path_concatenates :
    ∃ u, resolve (some loopback) "//a?b=2#c" = .ok u ∧ u.path = "/p/a" ∧ u.query = some "b=2" := by
  have hresolve : resolve (some loopback) "//a?b=2#c" =
      .ok ⟨some "http", some "[::1]", "/p/a", some "b=2"⟩ :=
    eq_ok_of_toOption_eq_some (by decide +kernel)
  obtain ⟨hplain, -, -⟩ := relative_path_concatenates parse_loopback (.inl rfl) (by decide) hresolve
  obtain ⟨hpath, hquery⟩ := hplain rfl rfl
  exact ⟨_, hresolve, hpath.trans (by decide +kernel), hquery.trans (by decide +kernel)⟩

/-- Paths are not concatenated behind every base: behind `http://[::1]/p?q=1` the target `/a?b=2`
goes on with the query. -/
theorem relative_path_lost_behind_query :
    ¬ ∀ (s : String) (base : Url) (target : String) (u : Uri), Url.parse s = .ok base →
      base.scheme = "http" ∨ base.scheme = "https" → target.toList.head? = some '/' →
      resolve (some base) target = .ok u →
      u.path = String.ofList (trimEnd base.path.toList ++ '/' ::
          (Url.Tail.ofChars target.toList).path.dropWhile (· = '/'))
        ∧ ∀ query, (Url.Tail.ofChars target.toList).query = some query →
          u.query = some (String.ofList query) := by
  intro h
  have hparse : Url.parse "http://[::1]/p?q=1" =
      .ok { loopback with path := "/p", query := some "q=1" } :=
    eq_ok_of_toOption_eq_some (by decide +kernel)
  have hresolve : resolve (some { loopback with path := "/p", query := some "q=1" }) "/a?b=2" =
      .ok ⟨some "http", some "[::1]", "/p", some "q=1/a?b=2"⟩ :=
    eq_ok_of_toOption_eq_some (by decide +kernel)
  obtain ⟨hpath, -⟩ := h _ _ _ _ hparse (.inl rfl) (by decide) hresolve
  exact absurd hpath (by decide +kernel)

end Address

end ApiClient
