import ApiClient.Proofs.AsciiText
import ApiClient.Proofs.CookieSets

/-!
# ApiClient.Proofs.CookieHeader

The header of a set of cookies, written and read.

A reader cuts the text of the header at each semicolon with a space behind it, and each piece at its
first equals sign (`readHeader?`). If no name has one of the two signs in it, and no value has a
semicolon, then the cuts fall between the pairs and between each name and its value; names and
values may be empty, and spaces and further equals signs in a value do no harm. What is read is the
list of the pairs, and a set is collected from its pairs, so the header tells two such sets apart.
-/

namespace ApiClient

namespace Cookies

/-! ### Reading -/

/-- The pieces of a text between the separators, which are semicolons with a space behind them. -/
def cutPairs : List Char → List (List Char)
  | [] => [[]]
  | ';' :: ' ' :: rest => [] :: cutPairs rest
  | c :: rest =>
    match cutPairs rest with
    | piece :: pieces => (c :: piece) :: pieces
    | [] => [[c]]

/-- The name and the value around the first equals sign, if there is one. -/
def readPair? (piece : List Char) : Option (String × String) :=
  match piece.span (· != '=') with
  | (name, _ :: value) => some (String.ofList name, String.ofList value)
  | (_, []) => none

/-- The pairs that a header shows. -/
def readHeader? : Option String → Option (List (String × String))
  | none => some []
  | some text => (cutPairs text.toList).mapM readPair?

theorem cutPairs_cons {c : Char} (h : c ≠ ';') (rest : List Char) :
    cutPairs (c :: rest) = match cutPairs rest with
      | piece :: pieces => (c :: piece) :: pieces
      | [] => [[c]] := by
  rw [cutPairs]
  rintro - rfl
  exact absurd rfl h

theorem cutPairs_of_not_mem {piece : List Char} (h : ';' ∉ piece) : cutPairs piece = [piece] := by
  induction piece with
  | nil => rfl
  | cons c piece ih =>
      obtain ⟨hc, hpiece⟩ := not_or.1 (mt List.mem_cons.2 h)
      rw [cutPairs_cons (Ne.symm hc), ih hpiece]

theorem cutPairs_append {piece : List Char} (h : ';' ∉ piece) (rest : List Char) :
    cutPairs (piece ++ ';' :: ' ' :: rest) = piece :: cutPairs rest := by
  induction piece with
  | nil => rfl
  | cons c piece ih =>
      obtain ⟨hc, hpiece⟩ := not_or.1 (mt List.mem_cons.2 h)
      rw [List.cons_append, cutPairs_cons (Ne.symm hc), ih hpiece]

/-- Cutting undoes joining, if there is a piece and no semicolon is in any of them. -/
theorem cutPairs_intercalate {pieces : List (List Char)} (hne : pieces ≠ [])
    (h : ∀ piece ∈ pieces, ';' ∉ piece) : cutPairs ([';', ' '].intercalate pieces) = pieces := by
  induction pieces with
  | nil => exact absurd rfl hne
  | cons piece pieces ih =>
      obtain ⟨hpiece, hrest⟩ := List.forall_mem_cons.1 h
      cases pieces with
      | nil => simpa using cutPairs_of_not_mem hpiece
      | cons next pieces =>
          rw [List.intercalate_cons_cons, List.append_assoc]
          exact (cutPairs_append hpiece _).trans
            (congrArg (piece :: ·) (ih (List.cons_ne_nil _ _) hrest))

theorem toList_pairText (pair : String × String) :
    (pairText pair).toList = pair.1.toList ++ '=' :: pair.2.toList := by
  simp [pairText]

/-- A pair is cut behind its name, because the name has no equals sign. -/
theorem readPair?_pairText {pair : String × String} (h : '=' ∉ pair.1.toList) :
    readPair? (pairText pair).toList = some pair := by
  have hspan : (pair.1.toList ++ '=' :: pair.2.toList).span (· != '=') =
      (pair.1.toList, '=' :: pair.2.toList) := by
    refine span_append (fun c hc => ?_) (by simp)
    rw [bne_iff_ne]
    rintro rfl
    exact h hc
  rw [readPair?, toList_pairText, hspan]
  simp

theorem mapM_readPair? {pairs : List (String × String)} (h : ∀ pair ∈ pairs, '=' ∉ pair.1.toList) :
    (pairs.map fun pair => (pairText pair).toList).mapM readPair? = some pairs := by
  induction pairs with
  | nil => rfl
  | cons pair pairs ih =>
      obtain ⟨hpair, hrest⟩ := List.forall_mem_cons.1 h
      rw [List.map_cons, List.mapM_cons, readPair?_pairText hpair, ih hrest]
      rfl

/-! ### Plain sets -/

/-- No name has an equals sign or a semicolon in it, and no value a semicolon. -/
def IsPlain (c : Cookies) : Prop :=
  (∀ name ∈ c.names, '=' ∉ name.toList ∧ ';' ∉ name.toList) ∧ ∀ pair ∈ c.toList, ';' ∉ pair.2.toList

instance (c : Cookies) : Decidable c.IsPlain := inferInstanceAs (Decidable (_ ∧ _))

theorem fst_mem_names {c : Cookies} {pair : String × String} (h : pair ∈ c.toList) :
    pair.1 ∈ c.names := by
  obtain ⟨entry, hmem, hpair⟩ := List.mem_flatMap.1 h
  obtain ⟨value, -, rfl⟩ := List.mem_map.1 hpair
  exact List.mem_map.2 ⟨entry, hmem, rfl⟩

/-- The header of a plain set shows its pairs. -/
theorem readHeader?_header? {c : Cookies} (h : c.IsPlain) :
    readHeader? c.header? = some c.toList := by
  have hname : ∀ pair ∈ c.toList, '=' ∉ pair.1.toList :=
    fun pair hmem => (h.1 pair.1 (fst_mem_names hmem)).1
  have hpiece : ∀ piece ∈ c.toList.map (fun pair => (pairText pair).toList), ';' ∉ piece := by
    intro piece hmem
    obtain ⟨pair, hpair, rfl⟩ := List.mem_map.1 hmem
    have hvalue := h.2 pair hpair
    have hsemicolon := (h.1 pair.1 (fst_mem_names hpair)).2
    simp [toList_pairText, hsemicolon, hvalue]
  cases hpairs : c.toList with
  | nil => simp [header?_eq, hpairs, readHeader?]
  | cons pair pairs =>
      have hcut : cutPairs ("; ".intercalate (c.toList.map pairText)).toList =
          c.toList.map fun pair => (pairText pair).toList := by
        rw [String.toList_intercalate, List.map_map]
        exact cutPairs_intercalate (by simp [hpairs]) hpiece
      rw [header?_eq, if_neg (by simp [hpairs]), readHeader?, hcut, mapM_readPair? hname, hpairs]

end Cookies

/-- **The header of a set of cookies can be read back.** If no name has an equals sign or a
semicolon in it and no value a semicolon, then cutting the header gives the listed pairs, in order,
and no other such set has the same header. -/
theorem header_reads_back (h : CookieHistory) (hplain : h.cookies.IsPlain) :
    Cookies.readHeader? h.cookies.header? = some h.cookies.toList
      ∧ ∀ other : CookieHistory, other.cookies.IsPlain → h.cookies.header? = other.cookies.header? →
        h.cookies = other.cookies := by
  have hread := Cookies.readHeader?_header? hplain
  refine ⟨hread, fun other hother hsame => ?_⟩
  have hlist : h.cookies.toList = other.cookies.toList := by
    have hread' := Cookies.readHeader?_header? hother
    rw [← hsame, hread] at hread'
    exact Option.some.inj hread'
  have hcollected (h : CookieHistory) : Cookies.ofList h.cookies.toList = h.cookies := by
    rw [h.cookies_eq, Multimap.toList_toCookies, Multimap.ofList_toList]
  rw [← hcollected h, hlist, hcollected other]

/-- Two values without a name, and a value with an equals sign under a name with a space in
front. -/
def CookieHistory.odd : CookieHistory := .add (.collect [("", ""), (" a", "b=c")]) "" " x"

/-- The same cookies, merged from two sets. -/
def CookieHistory.oddMerged : CookieHistory :=
  .merge (.collect [("", "y")]) (.collect [("", ""), ("", " x"), (" a", "b=c")])

/-- Empty names and values, spaces and equals signs in values are all read back. -/
theorem odd_header_reads_back :
    CookieHistory.odd.cookies.IsPlain ∧ CookieHistory.oddMerged.cookies.IsPlain
      ∧ CookieHistory.odd.cookies.header? = some "=; = x;  a=b=c"
      ∧ Cookies.readHeader? (some "=; = x;  a=b=c") = some [("", ""), ("", " x"), (" a", "b=c")]
      ∧ CookieHistory.odd.cookies = CookieHistory.oddMerged.cookies := by
  have hplain : CookieHistory.odd.cookies.IsPlain := by decide +kernel
  have hmerged : CookieHistory.oddMerged.cookies.IsPlain := by decide +kernel
  have hheader : CookieHistory.odd.cookies.header? = some "=; = x;  a=b=c" := by decide +kernel
  have hsame : CookieHistory.odd.cookies.header? = CookieHistory.oddMerged.cookies.header? := by
    decide +kernel
  obtain ⟨hread, hdetermined⟩ := header_reads_back .odd hplain
  rw [hheader] at hread
  exact ⟨hplain, hmerged, hheader, hread, hdetermined .oddMerged hmerged hsame⟩

end ApiClient
