import ApiClient.Proofs.GivenUrls

/-!
# ApiClient.Proofs.AbsoluteAddresses

Which targets lead to absolute addresses.

Whatever is resolved starts with a scheme and a colon: a target with a scheme brings its own, and a
relative one is put behind the text of a URL. What such a text is read as depends on what follows
the colon. If these are two slashes it is an absolute address or no address at all; otherwise the
whole text is read as an authority, which has no slash, question mark or hash in it
(`parse_schemed`).

A target that is not empty brings one of these marks along. So the one address that is not absolute
is that of a base without a host and of an empty target: `localhost:8080` is a URL with the scheme
`localhost`, and its text is read as a host and a port.
-/

namespace ApiClient

/-! ### Schemes -/

/-- An ASCII byte in front stands for its character. -/
theorem Bytes.exists_of_ofText_eq_cons {s : List Char} {c : Char} (hc : c.toNat < 0x80)
    {more : Bytes} (h : ofText (String.ofList s) = Ascii.byte c :: more) :
    ∃ rest, s = c :: rest ∧ ofText (String.ofList rest) = more := by
  cases s with
  | nil => simp [ofText] at h
  | cons d s =>
      by_cases hd : d = c
      · subst hd
        rw [ofText_ofList_cons hc] at h
        exact ⟨s, rfl, (List.cons.inj h).2⟩
      · obtain ⟨b, bytes, hbytes⟩ :=
          List.exists_cons_of_ne_nil (String.utf8EncodeChar_ne_nil (c := d))
        have hb : b = Ascii.byte c := by
          simp only [ofText, String.toList_ofList, List.flatMap_cons, hbytes, List.cons_append] at h
          exact (List.cons.inj h).1
        exact absurd (by simp [hbytes, hb]) (byte_not_mem_utf8EncodeChar hc hd)

namespace Uri

theorem isSchemeByte_of_isSchemeChar {c : Char} (h : Address.isSchemeChar c = true) :
    isSchemeByte (Ascii.byte c) = true :=
  forall_ascii (p := fun c => Address.isSchemeChar c = true → isSchemeByte (Ascii.byte c) = true)
    (by decide +kernel) (Url.lt_of_isSchemeChar h) h

theorem ne_slash_of_isSchemeByte {b : UInt8} (h : isSchemeByte b = true) : b ≠ 0x2f := by
  rintro rfl
  exact absurd h (by decide)

/-- A scheme in front of `://` is split off. -/
theorem splitScheme_marks {scheme rest behind : Bytes} {found : Option String}
    (hscheme : scheme.all isSchemeByte = true) (hne : scheme ≠ [])
    (h : splitScheme (scheme ++ 0x3a :: 0x2f :: 0x2f :: rest) = .ok (found, behind)) :
    found.isSome = true := by
  have hlength : ¬ (scheme ++ 0x3a :: 0x2f :: 0x2f :: rest).length ≤ 3 := by
    have hpos := List.length_pos_iff.2 hne
    simp only [List.length_append, List.length_cons]
    omega
  rw [splitScheme, span_append_cons hscheme (by decide)] at h
  simp only [hlength, if_false] at h
  split at h
  · cases h
    rfl
  · rw [ite_error_eq_ok_iff] at h
    cases h.2
    rfl

/-- A scheme in front of anything else is none. -/
theorem splitScheme_no_marks {scheme rest : Bytes} (hscheme : scheme.all isSchemeByte = true)
    (hrest : ∀ more, rest ≠ 0x2f :: 0x2f :: more) :
    splitScheme (scheme ++ 0x3a :: rest) = .ok (none, scheme ++ 0x3a :: rest) := by
  rw [splitScheme, span_append_cons hscheme (by decide)]
  dsimp only
  split
  · next more heq => exact absurd (List.cons.inj heq).2 (hrest more)
  · rfl

/-- Behind a scheme and two slashes stands an absolute address, and otherwise all is the
authority. -/
theorem parseBytes_schemed {scheme rest : Bytes} {u : Uri}
    (hscheme : scheme.all isSchemeByte = true) (hne : scheme ≠ [])
    (h : parseBytes (scheme ++ 0x3a :: rest) = .ok u) :
    (∃ more, rest = 0x2f :: 0x2f :: more) ∧ u.scheme.isSome = true ∧ u.authority.isSome = true
    ∨ (¬ ∃ more, rest = 0x2f :: 0x2f :: more)
      ∧ ∃ authority, splitAuthority (scheme ++ 0x3a :: rest) = .ok (authority, [])
      ∧ u = ⟨none, some (asciiText authority), "", none⟩ := by
  obtain ⟨a, front, rfl⟩ := List.exists_cons_of_ne_nil hne
  obtain ⟨b, more, hbytes⟩ : ∃ b more, a :: front ++ 0x3a :: rest = a :: b :: more := by
    cases front with
    | nil => exact ⟨_, _, rfl⟩
    | cons b front => exact ⟨_, _, rfl⟩
  have hslash := ne_slash_of_isSchemeByte (List.all_eq_true.1 hscheme a List.mem_cons_self)
  rw [hbytes, parseBytes_cons_cons hslash, ← hbytes] at h
  obtain ⟨-, found, behind, hsplit, authority, left, hauthority, hform⟩ := h
  by_cases hmarks : ∃ more, rest = 0x2f :: 0x2f :: more
  · refine .inl ⟨hmarks, ?_⟩
    obtain ⟨more, rfl⟩ := hmarks
    have hfound := splitScheme_marks hscheme hne hsplit
    rcases hform with ⟨rfl, -⟩ | ⟨-, -, path, query, -, rfl⟩
    · cases hfound
    · exact ⟨hfound, rfl⟩
  · rw [splitScheme_no_marks hscheme (not_exists.1 hmarks)] at hsplit
    cases hsplit
    rcases hform with ⟨-, rfl, rfl⟩ | ⟨hnone, -⟩
    · exact .inr ⟨hmarks, authority, hauthority, rfl⟩
    · exact absurd rfl hnone

/-- A text with nothing behind its authority is the authority, and has no mark in it. -/
theorem authority_of_splitAuthority {s : List Char} {authority : Bytes}
    (h : splitAuthority (Bytes.ofText (String.ofList s)) = .ok (authority, [])) :
    Lacks authorityEnds s ∧ asciiText authority = String.ofList s := by
  obtain ⟨front, back, rfl, hlacks, hstops⟩ := exists_lacks_stopsAt authorityEnds s
  obtain ⟨hok, rfl, hback⟩ := (splitAuthority_ofText hlacks hstops).1 h
  have hempty : String.ofList back = "" := by
    by_contra hne
    exact Bytes.ofText_ne_nil hne hback.symm
  obtain rfl : back = [] := by simpa using hempty
  rw [List.append_nil]
  exact ⟨hlacks, hok.asciiText_eq⟩

theorem ofText_slashes_iff {s : List Char} :
    (∃ more, Bytes.ofText (String.ofList s) = 0x2f :: 0x2f :: more) ↔ s.take 2 = ['/', '/'] := by
  constructor
  · rintro ⟨more, h⟩
    obtain ⟨rest, rfl, hrest⟩ := Bytes.exists_of_ofText_eq_cons (c := '/') (by decide) h
    obtain ⟨rest, rfl, -⟩ := Bytes.exists_of_ofText_eq_cons (c := '/') (by decide) hrest
    rfl
  · intro h
    rw [← List.take_append_drop 2 s, h]
    exact ⟨Bytes.ofText (String.ofList (s.drop 2)), by
      rw [List.cons_append, Bytes.ofText_ofList_cons (by decide), List.cons_append,
        Bytes.ofText_ofList_cons (by decide), List.nil_append]
      rfl⟩

/-- A text with a scheme is read as an absolute address behind two slashes, and as an authority
else. -/
theorem parse_schemed {scheme rest : List Char} {u : Uri} (hscheme : Url.IsScheme scheme)
    (h : parse (String.ofList (scheme ++ ':' :: rest)) = .ok u) :
    rest.take 2 = ['/', '/'] ∧ u.scheme.isSome = true ∧ u.authority.isSome = true
    ∨ rest.take 2 ≠ ['/', '/'] ∧ Lacks authorityEnds rest
      ∧ u = ⟨none, some (String.ofList (scheme ++ ':' :: rest)), "", none⟩ := by
  obtain ⟨hfirst, hall⟩ := hscheme
  have hchars : ∀ c ∈ scheme, Address.isSchemeChar c = true := List.all_eq_true.1 hall
  have hbytes : Bytes.ofText (String.ofList (scheme ++ ':' :: rest)) =
      scheme.map Ascii.byte ++ 0x3a :: Bytes.ofText (String.ofList rest) := by
    rw [Bytes.ofText_ofList_append, Bytes.ofText_ofList_cons (by decide),
      Bytes.ofText_ofList_of_ascii fun c hc => Url.lt_of_isSchemeChar (hchars c hc)]
    rfl
  have hclass : (scheme.map Ascii.byte).all isSchemeByte = true := by
    rw [List.all_map, List.all_eq_true]
    exact fun c hc => isSchemeByte_of_isSchemeChar (hchars c hc)
  have hne : scheme.map Ascii.byte ≠ [] := by
    rintro hnil
    rw [List.map_eq_nil_iff.1 hnil] at hfirst
    cases hfirst
  rw [parse, hbytes] at h
  rcases parseBytes_schemed hclass hne h with ⟨hmarks, habsolute⟩ | ⟨hmarks, authority, hsplit, rfl⟩
  · exact .inl ⟨ofText_slashes_iff.1 hmarks, habsolute⟩
  · rw [← hbytes] at hsplit
    obtain ⟨hlacks, hauthority⟩ := authority_of_splitAuthority hsplit
    exact .inr ⟨mt ofText_slashes_iff.2 hmarks, (lacks_cons.1 (lacks_append.1 hlacks).2).2,
      by rw [hauthority]⟩

end Uri

namespace Address

theorem exists_of_beforeSchemeMark? {target front : List Char}
    (h : beforeSchemeMark? target = some front) :
    ∃ rest, target = front ++ ':' :: '/' :: '/' :: rest := by
  induction target generalizing front with
  | nil => nomatch h
  | cons c target ih =>
      rw [beforeSchemeMark?] at h
      split at h
      · next hmark =>
        obtain rfl := Option.some.inj h
        obtain ⟨rfl, htake⟩ := hmark
        refine ⟨target.drop 2, ?_⟩
        nth_rewrite 1 [← List.take_append_drop 2 target]
        rw [htake]
        rfl
      · obtain ⟨front, hfront, rfl⟩ := Option.map_eq_some_iff.1 h
        obtain ⟨rest, rfl⟩ := ih hfront
        exact ⟨rest, rfl⟩

theorem exists_of_hasScheme {target : List Char} (h : hasScheme target = true) :
    ∃ scheme rest, Url.IsScheme scheme ∧ target = scheme ++ ':' :: '/' :: '/' :: rest := by
  rw [hasScheme] at h
  split at h
  · next scheme hscheme =>
    obtain ⟨rest, rfl⟩ := exists_of_beforeSchemeMark? hscheme
    exact ⟨scheme, rest, Bool.and_eq_true_iff.1 h, rfl⟩
  · cases h

theorem join_empty (base : List Char) : join base "".toList = base := by simp [join]

/-- A target that is not empty brings a mark along. -/
theorem eq_nil_of_lacks_join {base target : List Char}
    (h : Lacks Uri.authorityEnds (join base target)) : target = [] := by
  unfold join at h
  split at h
  · next hmark =>
    cases target with
    | nil => rfl
    | cons c target =>
        have hc := (lacks_cons.1 (lacks_append.1 h).2).1
        have hends : c = '?' ∨ c = '#' := by simpa using hmark
        rcases hends with rfl | rfl
        · exact absurd (by decide) hc
        · exact absurd (by decide) hc
  · exact absurd (by decide) (lacks_cons.1 (lacks_append.1 h).2).1

/-- A target with a scheme is read as an absolute address. -/
theorem absolute_of_hasScheme {target : String} {u : Uri} (hscheme : hasScheme target.toList = true)
    (h : Uri.parse target = .ok u) : u.scheme.isSome = true ∧ u.authority.isSome = true := by
  obtain ⟨scheme, rest, hwell, hchars⟩ := exists_of_hasScheme hscheme
  rw [← String.ofList_toList (s := target), hchars] at h
  rcases Uri.parse_schemed hwell h with ⟨-, habsolute⟩ | ⟨hmarks, -⟩
  · exact habsolute
  · exact absurd rfl hmarks

/-- Behind a base a target is read as an absolute address, unless it is empty and the base has no
host. -/
theorem absolute_of_join {base : Url} (hbase : base.WellFormed) {target : String} {u : Uri}
    (h : Uri.parse (String.ofList (join base.text.toList target.toList)) = .ok u) :
    u.scheme.isSome = true ∧ u.authority.isSome = true ∧ (target = "" → base.host.isSome = true)
    ∨ target = "" ∧ base.host = none ∧ u = ⟨none, some base.text, "", none⟩ := by
  rw [base.toList_text, join_append_cons (by decide)] at h
  rcases Uri.parse_schemed hbase.scheme h with ⟨hmarks, hscheme, hauthority⟩ | ⟨hmarks, hlacks, rfl⟩
  · refine .inl ⟨hscheme, hauthority, ?_⟩
    intro hempty
    rwa [hempty, join_empty, hbase.take_behindScheme] at hmarks
  · have hempty : target = "" := by
      rw [← String.ofList_toList (s := target), eq_nil_of_lacks_join hlacks]
    rw [hempty, join_empty, ne_eq, hbase.take_behindScheme, Option.not_isSome_iff_eq_none] at hmarks
    rw [hempty, join_empty, ← base.toList_text, String.ofList_toList]
    exact .inr ⟨rfl, hmarks, rfl⟩

/-- **What a target leads to is absolute, unless it is empty and the base has no host.** A resolved
address has a scheme and an authority, whatever the base and the target are, with this one
exception: the text of a base without a host is read as an authority alone. -/
theorem resolve_is_absolute {base : Option Url} {target : String} {u : Uri}
    (hbase : ∀ b, base = some b → b.WellFormed) (h : resolve base target = .ok u) :
    (u.scheme.isSome = true ∧ u.authority.isSome = true ↔
        ¬ (target = "" ∧ ∃ b, base = some b ∧ b.host = none))
      ∧ ∀ b, base = some b → b.host = none → target = "" → u = ⟨none, some b.text, "", none⟩ := by
  by_cases hscheme : hasScheme target.toList = true
  · have hne : target ≠ "" := by
      rintro rfl
      exact absurd hscheme (by decide)
    have hparse : Uri.parse target = .ok u := by
      unfold resolve absolute at h
      rw [if_pos hscheme] at h
      exact mapError_eq_ok_iff.1 h
    refine ⟨iff_of_true (absolute_of_hasScheme hscheme hparse) fun hexcept => hne hexcept.1, ?_⟩
    intro b _ _ hempty
    exact absurd hempty hne
  · rw [Bool.not_eq_true] at hscheme
    cases base with
    | none => simp [resolve, absolute, hscheme, bind, Except.bind] at h
    | some b =>
        rcases absolute_of_join (hbase b rfl) ((resolve_relative hscheme).1 h) with
          ⟨habsolute, hauthority, hhost⟩ | ⟨hempty, hhost, rfl⟩
        · refine ⟨iff_of_true ⟨habsolute, hauthority⟩ ?_, ?_⟩
          · intro hexcept
            obtain ⟨hempty, b', hsame, hnone⟩ := hexcept
            obtain rfl := Option.some.inj hsame
            exact absurd (hhost hempty) (by simp [hnone])
          · intro b' hsame hnone hempty
            obtain rfl := Option.some.inj hsame
            exact absurd (hhost hempty) (by simp [hnone])
        · refine ⟨iff_of_false (by simp) fun hnot => hnot ⟨hempty, b, rfl, hhost⟩, ?_⟩
          intro b' hsame _ _
          obtain rfl := Option.some.inj hsame
          rfl

/-- The URL `localhost:8080`, which has a scheme and no host. -/
def localhost : Url where
  scheme := "localhost"
  username := ""
  password := none
  host := none
  port := none
  isFlat := true
  path := "8080"
  query := none
  fragment := none

theorem parse_localhost : Url.parse "localhost:8080" = .ok localhost :=
  eq_ok_of_toOption_eq_some (by decide +kernel)

theorem resolve_localhost :
    resolve (some localhost) "" = .ok ⟨none, some "localhost:8080", "", none⟩ :=
  eq_ok_of_toOption_eq_some (by decide +kernel)

theorem loopback_absolute_and_localhost_exempt :
    (∃ u, resolve (some loopback) "" = .ok u ∧ u.scheme.isSome = true ∧ u.authority.isSome = true)
      ∧ ∃ u, resolve (some localhost) "" = .ok u
        ∧ ¬ (u.scheme.isSome = true ∧ u.authority.isSome = true) := by
  have hloopback : resolve (some loopback) "" = .ok ⟨some "http", some "[::1]", "/p/", none⟩ :=
    eq_ok_of_toOption_eq_some (by decide +kernel)
  have hgiven : ∀ b, some loopback = some b → b.WellFormed := by
    rintro b hb
    obtain rfl := Option.some.inj hb
    exact Url.wellFormed_of_parse parse_loopback
  have hhostless : ∀ b, some localhost = some b → b.WellFormed := by
    rintro b hb
    obtain rfl := Option.some.inj hb
    exact Url.wellFormed_of_parse parse_localhost
  refine ⟨⟨_, hloopback, (resolve_is_absolute hgiven hloopback).1.2 ?_⟩, _, resolve_localhost, ?_⟩
  · rintro ⟨-, b, hb, hhost⟩
    obtain rfl := Option.some.inj hb
    cases hhost
  · exact fun habsolute =>
      (resolve_is_absolute hhostless resolve_localhost).1.1 habsolute ⟨rfl, localhost, rfl, rfl⟩

/-- Not everything leads to an absolute address: behind `localhost:8080` an empty target leads to a
host and a port without a scheme. -/
theorem localhost_not_absolute :
    ¬ ∀ (s : String) (base : Url) (target : String) (u : Uri), Url.parse s = .ok base →
      resolve (some base) target = .ok u → u.scheme.isSome = true ∧ u.authority.isSome = true := by
  intro h
  obtain ⟨hscheme, -⟩ := h _ _ _ _ parse_localhost resolve_localhost
  cases hscheme

end Address

end ApiClient
