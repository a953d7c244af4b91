import ApiClient.Proofs.UriReading
import ApiClient.Url.Parser

/-!
# ApiClient.Proofs.WebUrl

The text of a URL of the web.

A URL whose scheme is one of the web's is read with a host and a path. None of the characters that
end an authority gets into the authority, whether it is a domain, an address or user information,
and none of those that end a path gets into the path. So the text can be cut again where its parts
meet (`exists_isWeb`).

Most of the work is about hosts: a domain is decoded, folded and cut into labels before it is
written, and a label beyond ASCII is written in a form of its own. It is enough that a forbidden
character is looked for after the folding and that every later form has letters, digits and hyphens
only.
-/

namespace ApiClient

/-! ### Characters of the parts -/

theorem lacks_intercalate {marks separator : List Char} {pieces : List (List Char)}
    (hseparator : Lacks marks separator) (hpieces : ∀ piece ∈ pieces, Lacks marks piece) :
    Lacks marks (separator.intercalate pieces) := by
  induction pieces with
  | nil => exact lacks_nil marks
  | cons piece pieces ih =>
      obtain ⟨hpiece, hrest⟩ := List.forall_mem_cons.1 hpieces
      cases pieces with
      | nil => simpa using hpiece
      | cons next pieces =>
          rw [List.intercalate_cons_cons]
          exact lacks_append.2 ⟨lacks_append.2 ⟨hpiece, hseparator⟩, ih hrest⟩

/-- A text of characters of one class lacks the marks that are not in the class. -/
theorem lacks_of_class {p : Char → Bool} {marks s : List Char} (hmarks : marks.any p = false)
    (hs : ∀ c ∈ s, p c = true) : Lacks marks s :=
  fun c hc hmark => List.any_eq_false.1 hmarks c hmark (hs c hc)

theorem isAlphanum_of_mem_toDigits {b n : Nat} (hb : 1 < b) (hle : b ≤ 16) :
    ∀ c ∈ Nat.toDigits b n, c.isAlphanum = true := by
  have hdigit : ∀ d < 16, (Nat.digitChar d).isAlphanum = true := by decide
  induction n using Nat.strongRecOn with
  | _ n ih =>
      rw [Nat.toDigits_eq_if hb]
      split
      · exact List.forall_mem_singleton.2 (hdigit n (by omega))
      · have hmod := Nat.mod_lt n (show b > 0 by omega)
        refine List.forall_mem_append.2 ⟨ih _ (Nat.div_lt_self (by omega) hb), ?_⟩
        exact List.forall_mem_singleton.2 (hdigit _ (by omega))

theorem lacks_number (n : Nat) : Lacks Uri.authorityEnds (toString n).toList := by
  rw [Nat.toString_eq_repr, Nat.repr_eq_ofList_toDigits, String.toList_ofList]
  exact lacks_of_class (p := Char.isAlphanum) (by decide)
    (isAlphanum_of_mem_toDigits (by decide) (by decide))

/-! ### Hosts -/

namespace Domain

theorem ascii_of_labelOfAscii? {form : List Char} {l : Label} (h : labelOfAscii? form = some l) :
    l.ascii = asciiMark ++ form := by
  unfold labelOfAscii? at h
  simp only [Option.bind_eq_bind] at h
  split at h
  · cases h
  · obtain ⟨chars, -, h⟩ := Option.bind_eq_some_iff.1 h
    split at h
    · cases h
    · cases h
      rfl

/-- A label is written in allowed characters if it has only such. -/
theorem lacks_of_label? {chars : List Char} {l : Label} (h : label? chars = some l)
    (hchars : Lacks Uri.authorityEnds chars) : Lacks Uri.authorityEnds l.ascii := by
  have hmark : Lacks Uri.authorityEnds asciiMark := by decide
  rw [label?] at h
  split at h
  · split at h
    · have hform : l.ascii = asciiMark ++ chars.drop asciiMark.length := ascii_of_labelOfAscii? h
      rw [hform]
      exact lacks_append.2 ⟨hmark, hchars.mono fun c hc => List.mem_of_mem_drop hc⟩
    · cases h
  · split at h
    · cases h
      exact hchars
    · split at h
      · cases h
        refine lacks_append.2 ⟨hmark, ?_⟩
        exact Punycode.forall_mem_encode hchars (by decide) (by decide)
      · cases h

/-- A domain in ASCII has no character that ends an authority. -/
theorem lacks_of_ascii? {s name : List Char} (h : ascii? s = some name) :
    Lacks Uri.authorityEnds name := by
  unfold ascii? at h
  simp only [Option.bind_eq_bind] at h
  split at h
  · cases h
  · next hallowed =>
    obtain ⟨labels, hlabels, h⟩ := Option.bind_eq_some_iff.1 h
    split at h
    · cases h
    · cases h
      refine lacks_intercalate (by decide) fun form hform => ?_
      obtain ⟨l, hl, rfl⟩ := List.mem_map.1 hform
      obtain ⟨chars, hchars, hlabel⟩ := exists_of_mem_mapM_some hlabels hl
      refine lacks_of_label? hlabel ?_
      -- What ends an authority is forbidden in a domain.
      refine lacks_of_class (p := (!isForbidden ·)) (by decide) fun c hc => ?_
      -- A label is a piece of the folded domain, in which no character is forbidden.
      have hmem := Pieces.mem_of_mem_cut hchars c hc
      have hnot : ¬ isForbidden c = true := fun hc =>
        hallowed (List.any_eq_true.2 ⟨c, hmem, hc⟩)
      simp only [hnot, Bool.not_false]

end Domain

namespace Host

theorem lacks_ipv4Text (a : Nat) : Lacks Uri.authorityEnds (ipv4Text a).toList := by
  have hdot : Lacks Uri.authorityEnds ".".toList := by decide
  simp only [ipv4Text, String.toList_append, lacks_append]
  exact ⟨⟨⟨⟨⟨⟨lacks_number _, hdot⟩, lacks_number _⟩, hdot⟩, lacks_number _⟩, hdot⟩, lacks_number _⟩

theorem lacks_groupsText (groups : List Nat) :
    Lacks Uri.authorityEnds (groupsText groups).toList := by
  rw [groupsText, String.toList_intercalate]
  refine lacks_intercalate (by decide) fun piece hpiece => ?_
  simp only [List.map_map, List.mem_map, Function.comp_apply, String.toList_ofList] at hpiece
  obtain ⟨g, -, rfl⟩ := hpiece
  exact lacks_of_class (p := Char.isAlphanum) (by decide)
    (isAlphanum_of_mem_toDigits (by decide) (by decide))

theorem lacks_ipv6Text (groups : List Nat) : Lacks Uri.authorityEnds (ipv6Text groups).toList := by
  unfold ipv6Text
  dsimp only
  split
  · exact lacks_groupsText groups
  · simp only [String.toList_append, lacks_append]
    exact ⟨⟨lacks_groupsText _, by decide⟩, lacks_groupsText _⟩

theorem exists_of_parseIpv4 {name : List Char} {host : Host} (h : parseIpv4 name = .ok host) :
    ∃ a, host = .ipv4 a := by
  rw [parseIpv4] at h
  split at h
  · cases h
  · split at h
    · cases h
    · split at h
      · cases h
      · cases h
        exact ⟨_, rfl⟩

theorem exists_of_parseIpv6 {s : List Char} {host : Host} (h : parseIpv6 s = .ok host) :
    ∃ groups, host = .ipv6 groups := by
  rw [parseIpv6] at h
  split at h
  · next groups _ =>
    cases h
    exact ⟨groups, rfl⟩
  · cases h

/-- A host of the web is written out, and no character of it ends an authority. -/
theorem text_of_parse {s : List Char} {host : Host} (h : parse s = .ok host) :
    host.text.toList ≠ [] ∧ Lacks Uri.authorityEnds host.text.toList := by
  unfold parse at h
  split at h
  · split at h
    · obtain ⟨groups, rfl⟩ := exists_of_parseIpv6 h
      simp only [text, String.toList_append, lacks_append]
      exact ⟨by simp, ⟨by decide, lacks_ipv6Text groups⟩, by decide⟩
    · cases h
  · dsimp only at h
    split at h
    · cases h
    · cases h
    · next name hne hname =>
      split at h
      · obtain ⟨a, rfl⟩ := exists_of_parseIpv4 h
        exact ⟨by simp [text, ipv4Text], lacks_ipv4Text a⟩
      · cases h
        simp only [text, String.toList_ofList]
        exact ⟨hne, Domain.lacks_of_ascii? hname⟩

end Host

/-! ### Paths -/

namespace Url

/-- Marks outside a class of bytes and outside of triplets do not get into an encoded component. -/
theorem lacks_encodeChars {keeps : UInt8 → Bool} {marks : List Char}
    (hkeeps : ∀ k : Fin 256, keeps (UInt8.ofNat k) = true →
      Percent.asciiChar (UInt8.ofNat k) ∉ marks)
    (hpercent : '%' ∉ marks) (hdigit : ∀ n < 16, Percent.asciiChar (Ascii.hexDigit n) ∉ marks)
    (s : List Char) : Lacks marks (encodeChars keeps s).toList := by
  rw [encodeChars, Percent.encodeText, String.toList_ofList]
  refine Percent.forall_mem_encode (fun b => ?_) hpercent hdigit _
  exact forall_byte (p := fun b => keeps b = true → Percent.asciiChar b ∉ marks) hkeeps b

/-- A user name or a password has no character that ends an authority. -/
theorem lacks_user (s : List Char) :
    Lacks Uri.authorityEnds (encodeChars keepsInUser s).toList :=
  lacks_encodeChars (by decide +kernel) (by decide) (by decide) s

/-- A segment of a path has no character that ends a path. -/
theorem lacks_segment (s : List Char) : Lacks Uri.pathEnds (encodeChars keepsInPath s).toList :=
  lacks_encodeChars (by decide +kernel) (by decide) (by decide) s

/-- A query has no hash. -/
theorem lacks_query (s : List Char) :
    Lacks ['#'] (encodeChars keepsInSpecialQuery s).toList :=
  lacks_encodeChars (by decide +kernel) (by decide) (by decide) s

theorem mem_of_mem_above {s : String} {done : List String} (h : s ∈ above done) : s ∈ done := by
  cases done with
  | nil => exact h
  | cons first rest =>
      rw [above] at h
      split at h
      · exact h
      · exact List.mem_cons_of_mem _ h

/-- The segments of a path are those that were there and those that were added, or empty. -/
theorem forall_mem_addSegments {p : String → Prop} {up : List String → List String}
    {keep : List String → String → String} (hempty : p "") (hup : ∀ l, ∀ s ∈ up l, s ∈ l)
    (hkeep : ∀ l s, p s → p (keep l s)) {done segments : List String} (hdone : ∀ s ∈ done, p s)
    (hsegments : ∀ s ∈ segments, p s) : ∀ s ∈ addSegments up keep done segments, p s := by
  induction segments generalizing done with
  | nil => exact hdone
  | cons segment rest ih =>
      obtain ⟨hsegment, hrest⟩ := List.forall_mem_cons.1 hsegments
      have hclose : ∀ l : List String, (∀ s ∈ l, p s) →
          ∀ s ∈ (if rest.isEmpty then "" :: l else l), p s := by
        intro l hl
        split
        · exact List.forall_mem_cons.2 ⟨hempty, hl⟩
        · exact hl
      rw [addSegments]
      dsimp only
      split
      · exact ih (hclose _ fun s hs => hdone s (hup done s hs)) hrest
      · split
        · exact ih (hclose _ hdone) hrest
        · exact ih (List.forall_mem_cons.2 ⟨hkeep done segment hsegment, hdone⟩) hrest

/-- A path of a scheme other than that of files is a slash and its segments with slashes between
them. -/
theorem lacks_readPath {scheme : String} (h : (scheme == "file") = false) (path : List Char) :
    Lacks Uri.pathEnds (readPath scheme path).toList := by
  rw [readPath, pathText, readSegments, h]
  simp only [Bool.false_eq_true, if_false, String.toList_append, String.toList_intercalate,
    lacks_append]
  refine ⟨by decide, lacks_intercalate (by decide) fun piece hpiece => ?_⟩
  obtain ⟨segment, hsegment, rfl⟩ := List.mem_map.1 hpiece
  refine forall_mem_addSegments (p := fun s => Lacks Uri.pathEnds s.toList) (lacks_nil _)
    (fun _ _ => mem_of_mem_above) (fun _ _ hs => hs) (by simp) ?_ segment
      (List.mem_reverse.1 hsegment)
  intro s hs
  obtain ⟨chars, -, rfl⟩ := List.mem_map.1 hs
  exact lacks_segment chars

theorem lacks_pathBehind {scheme : String} (hspecial : isSpecialScheme scheme = true)
    (h : (scheme == "file") = false) (path : List Char) :
    (pathBehind scheme path).toList.head? = some '/'
      ∧ Lacks Uri.pathEnds (pathBehind scheme path).toList := by
  cases path with
  | nil =>
      rw [pathBehind, hspecial]
      exact ⟨by decide, by decide⟩
  | cons c rest =>
      refine ⟨?_, lacks_readPath h _⟩
      rw [pathBehind, readPath, pathText, String.toList_append]
      rfl

/-! ### Reading -/

theorem shape_of_readFileHost {s : List Char} {u : Url} (h : readFileHost s = .ok u) :
    u.scheme = "file" ∧ u.isFlat = false := by
  unfold readFileHost at h
  dsimp only at h
  split at h
  · cases h
    exact ⟨rfl, rfl⟩
  · obtain ⟨host, -, h⟩ := exists_of_bind_eq_ok h
    split at h
    · cases h
      exact ⟨rfl, rfl⟩
    · cases h
      exact ⟨rfl, rfl⟩

/-- The rules for files give files, or a base with another query and fragment. -/
theorem shape_of_readFile {base : Option Url} {s : List Char} {u : Url}
    (h : readFile base s = .ok u) :
    (u.scheme = "file" ∧ u.isFlat = false)
      ∨ ∃ b, base = some b ∧ u.scheme = b.scheme ∧ u.isFlat = b.isFlat ∧ u.path = b.path := by
  unfold readFile at h
  dsimp only at h
  split at h
  · left
    split at h
    · split at h
      · obtain ⟨url, hurl, h⟩ := exists_of_bind_eq_ok h
        cases h
        obtain ⟨hscheme, hflat⟩ := shape_of_readFileHost hurl
        exact ⟨hscheme, hflat⟩
      · cases h
        exact ⟨rfl, rfl⟩
    · split at h
      · split at h
        · cases h
          exact ⟨rfl, rfl⟩
        · cases h
          exact ⟨rfl, rfl⟩
      · cases h
        exact ⟨rfl, rfl⟩
  · cases h
    exact .inr ⟨_, rfl, rfl, rfl, rfl⟩
  · cases h
    exact .inl ⟨rfl, rfl⟩

theorem shape_of_readAuthority {scheme : String} {s : List Char} {u : Url}
    (h : readAuthority scheme s = .ok u) : u.scheme = scheme ∧ u.isFlat = false := by
  unfold readAuthority at h
  dsimp only at h
  repeat' split at h
  all_goals first
    | cases h
    | obtain ⟨host, -, h⟩ := exists_of_bind_eq_ok h
      obtain ⟨port, -, h⟩ := exists_of_bind_eq_ok h
      cases h
      exact ⟨rfl, rfl⟩

theorem isSpecialScheme_of_web {scheme : String} (h : scheme = "http" ∨ scheme = "https") :
    isSpecialScheme scheme = true := by
  rcases h with rfl | rfl
  · decide
  · decide

/-- A URL of the web was read with an authority. -/
theorem exists_of_parse {s : String} {u : Url} (h : parse s = .ok u)
    (hweb : u.scheme = "http" ∨ u.scheme = "https") :
    ∃ rest, readAuthority u.scheme rest = .ok u := by
  rw [parse] at h
  split at h
  · cases h
  · next scheme rest _ =>
    unfold readBehindScheme at h
    split at h
    · -- A file has the scheme of files.
      rcases shape_of_readFile h with ⟨hfile, -⟩ | ⟨b, hbase, -⟩
      · rw [hfile] at hweb
        exact absurd hweb (by decide)
      · cases hbase
    · split at h
      · exact ⟨_, by rwa [(shape_of_readAuthority h).1]⟩
      · next hspecial =>
        split at h
        · exact ⟨_, by rwa [(shape_of_readAuthority h).1]⟩
        · cases h
          exact absurd (isSpecialScheme_of_web hweb) hspecial

/-- The parts of a URL that was read with an authority. -/
theorem parts_of_readAuthority {scheme : String} (hspecial : isSpecialScheme scheme = true)
    {s : List Char} {u : Url} (h : readAuthority scheme s = .ok u) :
    ∃ (user : Option (List Char)) (hostText path : List Char) (host : Host),
      u.username = ((user.map readUser).getD ("", none)).1
        ∧ u.password = ((user.map readUser).getD ("", none)).2
        ∧ Host.parse hostText = .ok host ∧ u.host = some host ∧ u.path = pathBehind scheme path
        ∧ ∃ tail : Tail, u.query = tail.queryText true := by
  unfold readAuthority at h
  simp only [hspecial, Bool.true_or, if_true] at h
  split at h
  · cases h
  · obtain ⟨host, hhost, h⟩ := exists_of_bind_eq_ok h
    obtain ⟨port, -, h⟩ := exists_of_bind_eq_ok h
    cases h
    exact ⟨_, _, _, host, rfl, rfl, hhost, rfl, rfl, Tail.ofChars s, by rw [← hspecial]; rfl⟩

/-! ### Cutting the text again -/

/-- The authority of a URL. -/
def authority (u : Url) : String :=
  u.userText ++ (u.host.map Host.text).getD "" ++ (u.port.map fun p => s!":{p}").getD ""

/-- What stands behind the path in the text of a URL. -/
def behindPath (u : Url) : String :=
  (u.query.map ("?" ++ ·)).getD "" ++ (u.fragment.map ("#" ++ ·)).getD ""

/-- A URL of the web, the text of which can be cut again where its parts meet. -/
structure IsWeb (u : Url) : Prop where
  /-- The scheme is one of the web's. -/
  scheme : u.scheme = "http" ∨ u.scheme = "https"
  /-- There is a host. -/
  host : u.host.isSome = true
  /-- The authority is not empty. -/
  authority_ne_nil : u.authority.toList ≠ []
  /-- No character of the authority ends it. -/
  authority_lacks : Lacks Uri.authorityEnds u.authority.toList
  /-- The path starts with a slash. -/
  path_head : u.path.toList.head? = some '/'
  /-- No character of the path ends it. -/
  path_lacks : Lacks Uri.pathEnds u.path.toList
  /-- No character of the query ends it. -/
  query_lacks : ∀ query ∈ u.query, Lacks ['#'] query.toList

/-- User information is written in characters that do not end an authority. -/
theorem lacks_readUser (s : List Char) :
    Lacks Uri.authorityEnds (readUser s).1.toList
      ∧ ∀ password ∈ (readUser s).2, Lacks Uri.authorityEnds password.toList := by
  rw [readUser]
  refine ⟨lacks_user _, ?_⟩
  dsimp only
  split
  · simp
  · intro password hpassword
    rw [← Option.mem_some_iff.1 hpassword]
    exact lacks_user _

theorem lacks_userText {u : Url} {user : Option (List Char)}
    (hname : u.username = ((user.map readUser).getD ("", none)).1)
    (hpassword : u.password = ((user.map readUser).getD ("", none)).2) :
    Lacks Uri.authorityEnds u.userText.toList := by
  cases user with
  | none => simp [userText, hname, hpassword]
  | some s =>
      obtain ⟨hnameFree, hpasswordFree⟩ := lacks_readUser s
      rw [userText]
      split
      · simp
      · simp only [String.toList_append, lacks_append]
        refine ⟨⟨by rwa [hname], ?_⟩, by decide⟩
        cases hp : u.password with
        | none => simp
        | some password =>
            simp only [Option.map_some, Option.getD_some, String.toList_append, lacks_append]
            exact ⟨by decide, hpasswordFree password (hpassword.symm.trans hp)⟩

theorem lacks_portText (u : Url) :
    Lacks Uri.authorityEnds ((u.port.map fun p => s!":{p}").getD "").toList := by
  cases u.port with
  | none => simp
  | some p =>
      simp only [Option.map_some, Option.getD_some, String.toList_append, lacks_append]
      exact ⟨by decide, lacks_number p⟩

/-- **What is read as a URL of the web can be cut again.** -/
theorem isWeb_of_parse {s : String} {u : Url} (h : parse s = .ok u)
    (hweb : u.scheme = "http" ∨ u.scheme = "https") : u.IsWeb := by
  obtain ⟨rest, hread⟩ := exists_of_parse h hweb
  have hspecial := isSpecialScheme_of_web hweb
  have hfile : (u.scheme == "file") = false := by
    rcases hweb with hweb | hweb
    · rw [hweb]
      decide
    · rw [hweb]
      decide
  obtain ⟨user, hostText, path, host, hname, hpassword, hhost, huhost, hpath, tail,
    hquery⟩ :=
    parts_of_readAuthority hspecial hread
  obtain ⟨hne, hfree⟩ := Host.text_of_parse hhost
  obtain ⟨hhead, hpathFree⟩ := lacks_pathBehind hspecial hfile path
  have hauthority : u.authority.toList = u.userText.toList ++ host.text.toList
      ++ ((u.port.map fun p => s!":{p}").getD "").toList := by
    simp [authority, huhost]
  refine ⟨hweb, by rw [huhost]; rfl, ?_, ?_, by rwa [hpath], by rwa [hpath], ?_⟩
  · rw [hauthority]
    simp [hne]
  · rw [hauthority]
    exact lacks_append.2
      ⟨lacks_append.2 ⟨lacks_userText hname hpassword, hfree⟩, lacks_portText u⟩
  · rw [hquery]
    intro query hmem
    obtain ⟨chars, -, rfl⟩ := Option.map_eq_some_iff.1 hmem
    exact lacks_query chars

/-- The text of a URL of the web, cut where its parts meet. -/
theorem IsWeb.toList_text {u : Url} (h : u.IsWeb) :
    u.text.toList =
      u.scheme.toList ++ ':' :: '/' :: '/' ::
        (u.authority.toList ++ (u.path.toList ++ u.behindPath.toList)) := by
  obtain ⟨host, hhost⟩ := Option.isSome_iff_exists.1 h.host
  simp [text, authorityText, authority, behindPath, hhost]

end Url

end ApiClient
