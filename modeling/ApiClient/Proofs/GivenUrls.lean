import ApiClient.Proofs.DraftResidue
import ApiClient.Proofs.RelativeTargets
import ApiClient.Url.Join

/-!
# ApiClient.Proofs.GivenUrls

What becomes of a URL that a draft names as its address.

A given URL is turned into text, and the text goes the way of every target: it is used as it is if
it starts with a scheme and `://`, and is put behind the base otherwise. Two facts about URLs tell
which. The scheme is written in letters, digits and three marks, without a colon; and the path of a
URL without a host does not put two slashes behind the scheme's colon, because a path without
structure does not start with a slash, and in front of two slashes of any other path a dot is
written. Both are kept by reading and by joining (`WellFormed`), so the text starts like that of an
address exactly if there is a host (`hasScheme_text`).

So a URL with a host is used as it is, whatever the base is. One without a host, such as
`mailto:a@b`, goes behind the base.
-/

namespace ApiClient

namespace Url

/-! ### Well-formed URLs -/

/-- A text that can be a scheme: a letter, and then letters, digits and three marks. -/
def IsScheme (s : List Char) : Prop :=
  s.head?.any Address.startsScheme = true ∧ s.all Address.isSchemeChar = true

instance (s : List Char) : Decidable (IsScheme s) := inferInstanceAs (Decidable (_ ∧ _))

/-- What holds of every URL that is read or joined. -/
structure WellFormed (u : Url) : Prop where
  /-- The scheme can be read as one. -/
  scheme : IsScheme u.scheme.toList
  /-- A path without structure starts with no slash. -/
  path : u.isFlat = true → u.path.toList.head? ≠ some '/'

variable {s : List Char} {u : Url}

theorem lt_of_isSchemeChar {c : Char} (h : Address.isSchemeChar c = true) : c.toNat < 0x80 := by
  simp only [Address.isSchemeChar, Bool.or_eq_true, beq_iff_eq] at h
  rcases h with ((halphanum | rfl) | rfl) | rfl
  · exact lt_of_isAlphanum halphanum
  · decide
  · decide
  · decide

theorem toLower_of_isSchemeChar {c : Char} (h : Address.isSchemeChar c = true) :
    Address.isSchemeChar c.toLower = true ∧ (c.isAlpha = true → c.toLower.isAlpha = true) :=
  forall_ascii (p := fun c => Address.isSchemeChar c = true →
    Address.isSchemeChar c.toLower = true ∧ (c.isAlpha = true → c.toLower.isAlpha = true))
    (by decide +kernel) (lt_of_isSchemeChar h) h

theorem isScheme_of_splitUrlScheme {scheme : String} {rest : List Char}
    (h : splitUrlScheme s = some (scheme, rest)) : IsScheme scheme.toList := by
  unfold splitUrlScheme at h
  dsimp only at h
  split at h
  · next c front rest' hspan =>
    split at h
    · next halpha =>
      obtain ⟨rfl, rfl⟩ := Prod.mk.inj (Option.some.inj h)
      have hchars : ∀ d ∈ c :: front, Address.isSchemeChar d = true := by
        intro d hd
        rw [List.span_eq_takeWhile_dropWhile] at hspan
        rw [← (Prod.mk.inj hspan).1] at hd
        exact List.mem_takeWhile_imp hd
      have hfirst := (toLower_of_isSchemeChar (hchars c List.mem_cons_self)).2 halpha
      rw [String.toList_ofList]
      refine ⟨by simpa [Address.startsScheme] using hfirst, ?_⟩
      rw [List.all_map, List.all_eq_true]
      intro d hd
      exact (toLower_of_isSchemeChar (hchars d hd)).1
    · cases h
  · cases h

/-! ### Reading and joining -/

theorem wellFormed_of_rooted {scheme : String} (hscheme : IsScheme scheme.toList)
    (h : u.scheme = scheme ∧ u.isFlat = false) : u.WellFormed := by
  obtain ⟨rfl, hflat⟩ := h
  exact ⟨hscheme, by simp [hflat]⟩

theorem isScheme_file : IsScheme "file".toList := by decide

theorem wellFormed_of_readFile {base : Option Url} (hbase : ∀ b, base = some b → b.WellFormed)
    (h : readFile base s = .ok u) : u.WellFormed := by
  rcases shape_of_readFile h with hfile | ⟨b, hb, hscheme, hflat, hpath⟩
  · exact wellFormed_of_rooted isScheme_file hfile
  · have hwell := hbase b hb
    exact ⟨hscheme ▸ hwell.scheme, by simpa [hflat, hpath] using hwell.path⟩

theorem head?_encodeChars (keeps : UInt8 → Bool) (h : s.head? ≠ some '/') :
    (encodeChars keeps s).toList.head? ≠ some '/' := by
  rw [encodeChars, Percent.encodeText, String.toList_ofList, Bytes.ofText, String.toList_ofList]
  cases s with
  | nil => simp
  | cons c rest =>
      have hc : c ≠ '/' := by simpa using h
      obtain ⟨b, bytes, hbytes⟩ :=
        List.exists_cons_of_ne_nil (String.utf8EncodeChar_ne_nil (c := c))
      have hb : b ≠ Ascii.byte '/' := by
        rintro rfl
        exact Bytes.byte_not_mem_utf8EncodeChar (by decide) hc (by simp [hbytes])
      have hchar : b ≠ Ascii.byte '/' → Percent.asciiChar b ≠ '/' :=
        forall_byte (p := fun b => b ≠ Ascii.byte '/' → Percent.asciiChar b ≠ '/')
          (by decide +kernel) b
      rw [List.flatMap_cons, hbytes, List.cons_append, Percent.encode_cons, Percent.encodeByte]
      split
      · simpa using hchar hb
      · simp [Percent.triplet]

theorem wellFormed_readWithoutHost {scheme : String} (hscheme : IsScheme scheme.toList)
    (s : List Char) :
    (readWithoutHost scheme s).WellFormed := by
  refine ⟨hscheme, ?_⟩
  intro hflat
  have hrooted : ((Tail.ofChars s).path.head? == some '/') = false := by
    simpa [readWithoutHost, withTail] using hflat
  have hhead : (Tail.ofChars s).path.head? ≠ some '/' := by simpa using hrooted
  simpa [readWithoutHost, withTail, hrooted] using head?_encodeChars keepsInFlatPath hhead

theorem wellFormed_of_readBehindScheme {scheme : String} (hscheme : IsScheme scheme.toList)
    (h : readBehindScheme scheme s = .ok u) : u.WellFormed := by
  unfold readBehindScheme at h
  split at h
  · exact wellFormed_of_readFile (by simp) h
  · split at h
    · exact wellFormed_of_rooted hscheme (shape_of_readAuthority h)
    · split at h
      · exact wellFormed_of_rooted hscheme (shape_of_readAuthority h)
      · cases h
        exact wellFormed_readWithoutHost hscheme _

/-- **What is read as a URL is well-formed.** -/
theorem wellFormed_of_parse {text : String} (h : parse text = .ok u) : u.WellFormed := by
  rw [parse] at h
  split at h
  · cases h
  · next scheme rest hsplit =>
      exact wellFormed_of_readBehindScheme (isScheme_of_splitUrlScheme hsplit) h

theorem WellFormed.joinRelative {base : Url} (hbase : base.WellFormed)
    (h : base.joinRelative s = .ok u) : u.WellFormed := by
  unfold Url.joinRelative at h
  dsimp only at h
  split at h
  · split at h
    · cases h
      exact ⟨hbase.scheme, hbase.path⟩
    · cases h
  · next hflat =>
    rw [Bool.not_eq_true] at hflat
    split at h
    · exact wellFormed_of_readFile (by simpa using hbase) h
    · split at h
      · cases h
        split
        · exact wellFormed_of_rooted hbase.scheme ⟨rfl, hflat⟩
        · exact wellFormed_of_rooted hbase.scheme ⟨rfl, hflat⟩
      · split at h
        · split at h
          · exact wellFormed_of_rooted hbase.scheme (shape_of_readAuthority h)
          · cases h
            exact wellFormed_of_rooted hbase.scheme ⟨rfl, hflat⟩
        · cases h
          exact wellFormed_of_rooted hbase.scheme ⟨rfl, hflat⟩

/-- **A reference leads from a well-formed URL to a well-formed one.** -/
theorem WellFormed.join {base : Url} (hbase : base.WellFormed) {reference : String}
    (h : base.join reference = .ok u) : u.WellFormed := by
  unfold Url.join at h
  split at h
  · exact hbase.joinRelative h
  · next scheme rest hsplit =>
    dsimp only at h
    split at h
    · exact wellFormed_of_readFile (by simpa using hbase) h
    · split at h
      · exact hbase.joinRelative h
      · exact wellFormed_of_readBehindScheme (isScheme_of_splitUrlScheme hsplit) h

/-! ### The text of a URL -/

/-- What stands behind the colon of the scheme in the text of a URL. -/
def behindScheme (u : Url) : List Char :=
  u.authorityText.toList ++ (u.path.toList ++ u.behindPath.toList)

theorem toList_text (u : Url) : u.text.toList = u.scheme.toList ++ ':' :: u.behindScheme := by
  simp [text, behindScheme, behindPath]

theorem head?_behindPath (u : Url) : u.behindPath.toList.head? ≠ some '/' := by
  rw [behindPath]
  cases u.query with
  | none =>
      cases u.fragment with
      | none => simp
      | some fragment => simp
  | some query => simp

theorem slashes_of_take_path {path behind : List Char} (hbehind : behind.head? ≠ some '/')
    (h : (path ++ behind).take 2 = ['/', '/']) : ['/', '/'] <+: path := by
  match path with
  | [] =>
      cases behind with
      | nil => simp at h
      | cons c rest => simp_all
  | [c] =>
      cases behind with
      | nil => simp at h
      | cons d rest => simp_all
  | c :: d :: rest => simp_all

/-- Two slashes stand behind the scheme's colon exactly if there is a host. -/
theorem WellFormed.take_behindScheme (h : u.WellFormed) :
    u.behindScheme.take 2 = ['/', '/'] ↔ u.host.isSome = true := by
  cases hhost : u.host with
  | some host => simp [behindScheme, authorityText, hhost]
  | none =>
      refine ⟨?_, by simp⟩
      intro htake
      by_cases hdot : (!u.isFlat && u.path.startsWith "//") = true
      · simp [behindScheme, authorityText, hhost, hdot] at htake
      · -- No dot is written, so the slashes are those of the path, which then has no structure.
        have hpath : ['/', '/'] <+: u.path.toList := by
          refine slashes_of_take_path u.head?_behindPath ?_
          simpa [behindScheme, authorityText, hhost, hdot] using htake
        have hstarts : u.path.startsWith "//" = true := String.startsWith_string_iff.2 hpath
        have hflat : u.isFlat = true := by simpa [hstarts] using hdot
        obtain ⟨rest, hrest⟩ := hpath
        exact absurd (by simp [← hrest]) (h.path hflat)

end Url

namespace Address

/-- The text in front of the first `://` ends at the first colon, or has a colon itself. -/
theorem beforeSchemeMark?_append {scheme : List Char} (h : ':' ∉ scheme) (rest : List Char) :
    beforeSchemeMark? (scheme ++ ':' :: rest) =
      if rest.take 2 = ['/', '/'] then some scheme
      else (beforeSchemeMark? rest).map (scheme ++ ':' :: ·) := by
  induction scheme with
  | nil => simp [beforeSchemeMark?]
  | cons c scheme ih =>
      obtain ⟨hc, hscheme⟩ := not_or.1 (mt List.mem_cons.2 h)
      rw [List.cons_append, beforeSchemeMark?, if_neg (fun hmark => hc hmark.1.symm), ih hscheme]
      split
      · rfl
      · simp [Function.comp_def]

/-- A scheme and its colon are read as the start of an address if two slashes follow. -/
theorem hasScheme_append {scheme : List Char} (h : Url.IsScheme scheme) (rest : List Char) :
    hasScheme (scheme ++ ':' :: rest) = decide (rest.take 2 = ['/', '/']) := by
  obtain ⟨hfirst, hall⟩ := h
  have hcolon : ':' ∉ scheme := by
    intro hmem
    exact absurd (List.all_eq_true.1 hall _ hmem) (by decide)
  rw [hasScheme, beforeSchemeMark?_append hcolon]
  by_cases hslashes : rest.take 2 = ['/', '/']
  · simp [hslashes, hfirst, hall]
  · cases hmark : beforeSchemeMark? rest with
    | none => simp [hslashes]
    | some front =>
        have hbad : isSchemeChar ':' = false := by decide
        simp [hslashes, hbad]

/-- **A URL's text is read as an absolute address exactly if it has a host.** -/
theorem hasScheme_text {u : Url} (h : u.WellFormed) : hasScheme u.text.toList = u.host.isSome := by
  rw [u.toList_text, hasScheme_append h.scheme, Bool.eq_iff_iff, decide_eq_true_iff,
    h.take_behindScheme]

theorem resolve_text_of_host {u : Url} (h : u.WellFormed) (hhost : u.host.isSome = true)
    (base : Option Url) :
    resolve base u.text = (Uri.parse u.text).mapError (.invalidUri u.text) := by
  unfold resolve absolute
  rw [if_pos ((hasScheme_text h).trans hhost)]
  rfl

/-- The text of a URL without a host leads behind the base, and nowhere if there is none. -/
theorem exists_base_of_resolve_text {u : Url} (h : u.WellFormed) (hhost : u.host = none)
    {base : Option Url} {address : Uri} (hresolve : resolve base u.text = .ok address) :
    ∃ b, base = some b
      ∧ Uri.parse (String.ofList (join b.text.toList u.text.toList)) = .ok address := by
  have hscheme : hasScheme u.text.toList = false := by
    rw [hasScheme_text h, hhost]
    rfl
  cases base with
  | none => simp [resolve, absolute, hscheme, bind, Except.bind] at hresolve
  | some b => exact ⟨b, rfl, (resolve_relative hscheme).1 hresolve⟩

end Address

namespace Client

variable {σ : Type} {c : Client σ} {d : Draft}

theorem addressOf_of_build {parts : RequestParts} {body : RequestBody}
    (h : (c.build d).1 = .ok (parts, body)) : c.addressOf d.uri = .ok parts.url := by
  have hends := c.build_ends d
  rw [h] at hends
  generalize (c.build d).2 = left at hends
  cases hends with
  | built _ haddress _ _ => exact haddress

/-- The base of a client has its part in the address alone. -/
theorem build_with_base {base : Option Url}
    (h : ({ c with baseUrl := base } : Client σ).addressOf d.uri = c.addressOf d.uri) :
    ({ c with baseUrl := base } : Client σ).build d = c.build d := by
  rw [build, build, h]

/-- **A given URL with a host is used as it is.** The request is built as if the client had another
base or none, and it goes to what the URL's own text is read as. A request for a URL without a host
goes to what is read from the URL's text behind the base. -/
theorem given_url_used_as_is (c : Client σ) (d : Draft) {u : Url} (hu : u.WellFormed)
    (hd : d.uri = .url u) :
    (u.host.isSome = true →
      (∀ base, ({ c with baseUrl := base } : Client σ).build d = c.build d)
      ∧ ∀ parts body, (c.build d).1 = .ok (parts, body) → Uri.parse u.text = .ok parts.url)
    ∧ (u.host = none → ∀ parts body, (c.build d).1 = .ok (parts, body) →
      ∃ base, c.baseUrl = some base
        ∧ Uri.parse (String.ofList (Address.join base.text.toList u.text.toList)) =
          .ok parts.url) := by
  have haddress : ∀ base : Option Url,
      ({ c with baseUrl := base } : Client σ).addressOf d.uri = Address.resolve base u.text := by
    intro base
    rw [hd]
    rfl
  have hown : c.addressOf d.uri = Address.resolve c.baseUrl u.text := haddress c.baseUrl
  constructor
  · intro hhost
    constructor
    · intro base
      refine build_with_base ?_
      rw [haddress, hown, Address.resolve_text_of_host hu hhost,
        Address.resolve_text_of_host hu hhost]
    · intro parts body hbuild
      have hresolve := addressOf_of_build hbuild
      rw [hown, Address.resolve_text_of_host hu hhost] at hresolve
      exact mapError_eq_ok_iff.1 hresolve
  · intro hhost parts body hbuild
    exact Address.exists_base_of_resolve_text hu hhost (hown.symm.trans (addressOf_of_build hbuild))

/-- The URL `mailto:a@b`, which has no host. -/
def mailto : Url where
  scheme := "mailto"
  username := ""
  password := none
  host := none
  port := none
  isFlat := true
  path := "a@b"
  query := none
  fragment := none

theorem parse_mailto : Url.parse "mailto:a@b" = .ok mailto :=
  eq_ok_of_toOption_eq_some (by decide +kernel)

/-- A draft with the URL `mailto:a@b` is built, for an address behind the base. -/
theorem build_mailto : ∃ parts body,
    (based.build { method := .get, uri := .url mailto }).1 = .ok (parts, body)
      ∧ parts.url.text = "http://[::1]/mailto:a@b" := by
  have hbuilt : (based.build { method := .get, uri := .url mailto }).1.toOption.map (·.1.url.text) =
      some "http://[::1]/mailto:a@b" := by decide +kernel
  obtain ⟨⟨parts, body⟩, hbuild, htext⟩ := Option.map_eq_some_iff.1 hbuilt
  exact ⟨parts, body, eq_ok_of_toOption_eq_some hbuild, htext⟩

/-- A URL with a host keeps its place, and one without goes behind the base. -/
theorem loopback_kept_and_mailto_joined :
    (∃ parts body,
      (based.build { method := .get, uri := .url Address.loopback }).1 = .ok (parts, body)
      ∧ Uri.parse "http://[::1]/p/" = .ok parts.url)
    ∧ ∃ parts body, (based.build { method := .get, uri := .url mailto }).1 = .ok (parts, body)
      ∧ ∃ base, based.baseUrl = some base
        ∧ Uri.parse (String.ofList (Address.join base.text.toList "mailto:a@b".toList)) =
          .ok parts.url := by
  have hloopback : (based.build { method := .get, uri := .url Address.loopback }).1.isOk =
      true := by
    decide +kernel
  obtain ⟨⟨parts, body⟩, hbuild⟩ := exists_of_isOk hloopback
  obtain ⟨hhost, -⟩ := given_url_used_as_is based { method := .get, uri := .url Address.loopback }
    (Url.wellFormed_of_parse Address.parse_loopback) rfl
  obtain ⟨parts', body', hbuild', -⟩ := build_mailto
  obtain ⟨-, hnone⟩ := given_url_used_as_is based { method := .get, uri := .url mailto }
    (Url.wellFormed_of_parse parse_mailto) rfl
  have htext : Address.loopback.text = "http://[::1]/p/" := by decide +kernel
  have htext' : mailto.text = "mailto:a@b" := by decide +kernel
  obtain ⟨-, hused⟩ := hhost rfl
  refine ⟨⟨parts, body, hbuild, htext ▸ hused parts body hbuild⟩, parts', body', hbuild', ?_⟩
  exact htext' ▸ hnone rfl parts' body' hbuild'

/-- Not every given URL is used as it is: `mailto:a@b` goes behind the base. -/
theorem mailto_not_used_as_is :
    ¬ ∀ (c : Client Unit) (d : Draft) (s : String) (u : Url), Url.parse s = .ok u → d.uri = .url u →
      ∀ parts body, (c.build d).1 = .ok (parts, body) → Uri.parse u.text = .ok parts.url := by
  intro h
  obtain ⟨parts, body, hbuild, htext⟩ := build_mailto
  have hparse : Uri.parse mailto.text = .ok parts.url :=
    h based _ _ _ parse_mailto rfl parts body hbuild
  have hown : (Uri.parse mailto.text).toOption.map Uri.text = some "mailto:a@b" := by decide +kernel
  rw [hparse] at hown
  exact absurd (htext.symm.trans (Option.some.inj hown)) (by decide)

end Client

end ApiClient
