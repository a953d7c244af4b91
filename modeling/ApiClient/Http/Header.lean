import ApiClient.Entries
import ApiClient.Text.Quoted
import ApiClient.Text.Utf8

/-!
# ApiClient.Http.Header

Header names, header values and header maps.

Design points:

* A name is a lower-case token and a value holds neither line breaks nor other controls. Both are
  facts of the types, so what is written from them cannot start a new line.
* A map lists its names in order of arrival and keeps the values of one name together, in order.
  That no name stands twice, and none without a value, are facts of the type too.
* Removing a name moves the last name of the map into its place.
-/

namespace ApiClient

/-- A byte that may stand in a header name, upper-case letters apart. -/
def HeaderName.isByte (b : UInt8) : Bool :=
  Ascii.isLower b || Ascii.isDigit b || (Bytes.ofText "!\"#$%&'*+-.^_\x60|~").contains b

/-- A header name, in lower case. -/
structure HeaderName where
  /-- The name. -/
  text : String
  /-- A name is not empty and holds token bytes only. -/
  valid : text ≠ "" ∧ (Bytes.ofText text).all HeaderName.isByte = true
deriving DecidableEq

namespace HeaderName

/-- The name that a text stands for in any case, if it is one. -/
def ofText? (s : String) : Option HeaderName :=
  let lower := String.ofList (s.toList.map Char.toLower)
  if h : lower ≠ "" ∧ (Bytes.ofText lower).all isByte = true then some ⟨lower, h⟩ else none

/-- The media types that the sender accepts. -/
def accept : HeaderName := ⟨"accept", by decide⟩
/-- The character sets that the sender accepts. -/
def acceptCharset : HeaderName := ⟨"accept-charset", by decide⟩
/-- The content codings that the sender accepts. -/
def acceptEncoding : HeaderName := ⟨"accept-encoding", by decide⟩
/-- The coding of the body. -/
def contentEncoding : HeaderName := ⟨"content-encoding", by decide⟩
/-- The length of the body. -/
def contentLength : HeaderName := ⟨"content-length", by decide⟩
/-- The media type of the body. -/
def contentType : HeaderName := ⟨"content-type", by decide⟩
/-- The cookies of a request. -/
def cookie : HeaderName := ⟨"cookie", by decide⟩
/-- The condition that the resource changed after a date. -/
def ifModifiedSince : HeaderName := ⟨"if-modified-since", by decide⟩
/-- The condition that the resource has none of the given tags. -/
def ifNoneMatch : HeaderName := ⟨"if-none-match", by decide⟩
/-- Where a redirection leads. -/
def location : HeaderName := ⟨"location", by decide⟩
/-- Where a redirected request comes from. -/
def referer : HeaderName := ⟨"referer", by decide⟩
/-- The coding of the message. -/
def transferEncoding : HeaderName := ⟨"transfer-encoding", by decide⟩
/-- The software of the sender. -/
def userAgent : HeaderName := ⟨"user-agent", by decide⟩

instance : Inhabited HeaderName := ⟨accept⟩

end HeaderName

/-- A byte that may stand in a header value: no control other than tab. -/
def HeaderValue.isByte (b : UInt8) : Bool := b == 0x09 || (0x20 ≤ b && b != 0x7f)

/-- A header value. -/
structure HeaderValue where
  /-- The bytes of the value. -/
  bytes : Bytes
  /-- A value holds no line break and no other control. -/
  valid : bytes.all HeaderValue.isByte = true
deriving DecidableEq

namespace HeaderValue

/-- The value that consists of the given bytes, if they may stand in one. -/
def ofBytes? (bytes : Bytes) : Option HeaderValue :=
  if h : bytes.all isByte = true then some ⟨bytes, h⟩ else none

/-- The value of a text. -/
def ofText? (s : String) : Option HeaderValue := ofBytes? (Bytes.ofText s)

/-- Whether every byte is visible ASCII, a space or a tab. -/
def isVisible (v : HeaderValue) : Bool := v.bytes.all Ascii.isVisible

/-- The value as text, if it is visible ASCII. -/
def text? (v : HeaderValue) : Option String :=
  if v.isVisible then some (String.ofList (v.bytes.map fun b => Char.ofNat b.toNat)) else none

instance : Inhabited HeaderValue := ⟨⟨[], rfl⟩⟩

/-- The text of the error for bytes that may not stand in a header value. -/
def invalidMessage : String := "failed to parse header value"

end HeaderValue

/-- The names of a map with the values of each. -/
structure HeaderMap where
  /-- The entries, in order of arrival. -/
  entries : List (HeaderName × List HeaderValue)
  /-- No name stands twice. -/
  nodup : (entries.map (·.1)).Nodup
  /-- No name stands there without a value. -/
  nonempty : ∀ e ∈ entries, e.2 ≠ []
deriving DecidableEq

namespace HeaderMap

instance : EmptyCollection HeaderMap := ⟨⟨[], List.nodup_nil, nofun⟩⟩
instance : Inhabited HeaderMap := ⟨∅⟩

/-- All values of a name, in order. -/
def values (m : HeaderMap) (n : HeaderName) : List HeaderValue :=
  (Entries.find? n m.entries).getD []

/-- The first value of a name. -/
def get? (m : HeaderMap) (n : HeaderName) : Option HeaderValue := (m.values n).head?

/-- Whether the map has the name. -/
def contains (m : HeaderMap) (n : HeaderName) : Bool := (Entries.find? n m.entries).isSome

/-- The lines of the map: a name and one of its values each. -/
def lines (m : HeaderMap) : List (HeaderName × HeaderValue) :=
  m.entries.flatMap fun e => e.2.map fun v => (e.1, v)

/-- Adds a value behind those that the name has. -/
def append (m : HeaderMap) (n : HeaderName) (v : HeaderValue) : HeaderMap where
  entries := Entries.update n (fun vs => vs.getD [] ++ [v]) m.entries
  nodup := Entries.nodup_names_update _ _ m.nodup
  nonempty := Entries.forall_update (p := (· ≠ [])) m.nonempty (by simp)

/-- Makes `v` the only value of the name. -/
def insert (m : HeaderMap) (n : HeaderName) (v : HeaderValue) : HeaderMap where
  entries := Entries.put n [v] m.entries
  nodup := Entries.nodup_names_update _ _ m.nodup
  nonempty := Entries.forall_update (p := (· ≠ [])) m.nonempty (by simp)

/-- Changes the last value of a name. -/
def changeLast (m : HeaderMap) (n : HeaderName) (change : HeaderValue → HeaderValue) :
    HeaderMap where
  entries := m.entries.map fun e =>
    (e.1, if e.1 = n then e.2.dropLast ++ (e.2.getLast?.map change).toList else e.2)
  nodup := by simpa [Function.comp_def] using m.nodup
  nonempty := by
    intro e he
    obtain ⟨e, hmem, rfl⟩ := List.mem_map.1 he
    have hvalues := m.nonempty e hmem
    split
    · simp [List.getLast?_eq_some_getLast hvalues]
    · exact hvalues

/-- Takes a name out of entries and puts the last entry into its place. -/
def eraseEntries (n : HeaderName) :
    List (HeaderName × List HeaderValue) → List (HeaderName × List HeaderValue)
  | [] => []
  | e :: rest => if e.1 = n then rest.getLast?.toList ++ rest.dropLast else e :: eraseEntries n rest

/-- But for the order, the entries are those of the other names. -/
theorem eraseEntries_perm {n : HeaderName} {entries : List (HeaderName × List HeaderValue)}
    (h : (entries.map (·.1)).Nodup) : (eraseEntries n entries).Perm (Entries.erase n entries) := by
  induction entries with
  | nil => exact .nil
  | cons e rest ih =>
    rw [List.map_cons, List.nodup_cons] at h
    unfold Entries.erase at ih ⊢
    by_cases hn : e.1 = n
    · have hkeep : rest.filter (·.1 ≠ n) = rest := by
        refine List.filter_eq_self.2 fun other hmem => decide_eq_true fun hother => h.1 ?_
        exact (hn.trans hother.symm) ▸ List.mem_map_of_mem hmem
      rw [eraseEntries, if_pos hn, List.filter_cons_of_neg (by simpa using hn), hkeep]
      refine List.perm_append_comm.trans (.of_eq ?_)
      rcases List.eq_nil_or_concat rest with rfl | ⟨init, last, rfl⟩ <;> simp
    · rw [eraseEntries, if_neg hn, List.filter_cons_of_pos (by simpa using hn)]
      exact (ih h.2).cons e

/-- Removes a name with all its values. -/
def erase (m : HeaderMap) (n : HeaderName) : HeaderMap where
  entries := eraseEntries n m.entries
  nodup := by
    rw [((eraseEntries_perm m.nodup).map (·.1)).nodup_iff, Entries.names_erase]
    exact m.nodup.filter _
  nonempty e he :=
    m.nonempty e (List.mem_filter.1 ((eraseEntries_perm m.nodup).mem_iff.1 he)).1

/-- Replaces all values of a name. -/
def replace (m : HeaderMap) (n : HeaderName) (vs : List HeaderValue) : HeaderMap :=
  vs.foldl (·.append n ·) (m.erase n)

/-- Replaces, for each name of `overrides`, all values of the name. -/
def override (m overrides : HeaderMap) : HeaderMap :=
  overrides.entries.foldl (fun m e => m.replace e.1 e.2) m

/-- The map with the given lines, added one by one. -/
def ofLines (lines : List (HeaderName × HeaderValue)) : HeaderMap :=
  lines.foldl (fun m l => m.append l.1 l.2) ∅

/-! ### What a name has -/

/-- A map has exactly the names with values. -/
theorem contains_iff (m : HeaderMap) (n : HeaderName) : m.contains n = true ↔ m.values n ≠ [] := by
  unfold contains values
  cases h : Entries.find? n m.entries with
  | none => simp
  | some vs => simpa using m.nonempty (n, vs) ((Entries.find?_eq_some_iff m.nodup).1 h)

theorem contains_eq_false_iff (m : HeaderMap) (n : HeaderName) :
    m.contains n = false ↔ m.values n = [] := by
  rw [← Bool.not_eq_true, contains_iff, ne_eq, Decidable.not_not]

@[simp] theorem values_append_self (m : HeaderMap) (n : HeaderName) (v : HeaderValue) :
    (m.append n v).values n = m.values n ++ [v] := by
  simp [values, append, Entries.find?_update_self]

theorem values_append_of_ne {n other : HeaderName} (h : other ≠ n) (m : HeaderMap)
    (v : HeaderValue) : (m.append n v).values other = m.values other := by
  simp [values, append, Entries.find?_update_of_ne h]

@[simp] theorem values_insert_self (m : HeaderMap) (n : HeaderName) (v : HeaderValue) :
    (m.insert n v).values n = [v] := by
  simp [values, insert, Entries.put, Entries.find?_update_self]

theorem values_insert_of_ne {n other : HeaderName} (h : other ≠ n) (m : HeaderMap)
    (v : HeaderValue) : (m.insert n v).values other = m.values other := by
  simp [values, insert, Entries.put, Entries.find?_update_of_ne h]

@[simp] theorem values_erase_self (m : HeaderMap) (n : HeaderName) : (m.erase n).values n = [] := by
  rw [values, Entries.find?_perm (m.erase n).nodup (eraseEntries_perm m.nodup),
    Entries.find?_erase_self]
  rfl

theorem values_erase_of_ne {n other : HeaderName} (h : other ≠ n) (m : HeaderMap) :
    (m.erase n).values other = m.values other := by
  rw [values, Entries.find?_perm (m.erase n).nodup (eraseEntries_perm m.nodup),
    Entries.find?_erase_of_ne h, values]

/-- Lines that are added one by one put their values behind those that a name has. -/
theorem values_foldl_append (lines : List (HeaderName × HeaderValue)) (n : HeaderName) :
    ∀ m : HeaderMap, (lines.foldl (fun m l => m.append l.1 l.2) m).values n =
      m.values n ++ (lines.filter (·.1 = n)).map (·.2) := by
  induction lines with
  | nil => simp
  | cons l rest ih =>
    intro m
    rw [List.foldl_cons, ih]
    by_cases h : l.1 = n
    · rw [List.filter_cons_of_pos (by simpa using h), ← h, values_append_self, List.map_cons,
        List.append_assoc, List.singleton_append]
    · rw [List.filter_cons_of_neg (by simpa using h), values_append_of_ne (Ne.symm h)]

theorem values_ofLines (lines : List (HeaderName × HeaderValue)) (n : HeaderName) :
    (ofLines lines).values n = (lines.filter (·.1 = n)).map (·.2) :=
  values_foldl_append lines n ∅

/-- The lines with a name have its values, in order. -/
theorem values_lines (m : HeaderMap) (n : HeaderName) :
    (m.lines.filter (·.1 = n)).map (·.2) = m.values n := by
  obtain ⟨entries, hnodup, hnonempty⟩ := m
  unfold lines values
  dsimp only
  clear hnonempty
  induction entries with
  | nil => rfl
  | cons e rest ih =>
    rw [List.map_cons, List.nodup_cons] at hnodup
    rw [List.flatMap_cons, List.filter_append, List.map_append,
      ih hnodup.2, Entries.find?]
    by_cases h : e.1 = n
    · have hnone : Entries.find? n rest = none := Entries.find?_eq_none_iff.2 (h ▸ hnodup.1)
      simp [h, hnone, List.filter_map, Function.comp_def]
    · simp [h, List.filter_map, Function.comp_def]

theorem values_replace (m : HeaderMap) (n other : HeaderName) (vs : List HeaderValue) :
    (m.replace n vs).values other = if other = n then vs else m.values other := by
  have hlines : m.replace n vs =
      (vs.map fun v => (n, v)).foldl (fun m l => m.append l.1 l.2) (m.erase n) := by
    rw [replace, List.foldl_map]
  rw [hlines, values_foldl_append]
  split
  · next h => simp [h, List.filter_map, Function.comp_def]
  · next h => simp [values_erase_of_ne h, Ne.symm h, List.filter_map, Function.comp_def]

theorem values_foldl_replace {entries : List (HeaderName × List HeaderValue)}
    (h : (entries.map (·.1)).Nodup) (n : HeaderName) (m : HeaderMap) :
    (entries.foldl (fun m e => m.replace e.1 e.2) m).values n =
      (Entries.find? n entries).getD (m.values n) := by
  induction entries generalizing m with
  | nil => rfl
  | cons e rest ih =>
    rw [List.map_cons, List.nodup_cons] at h
    rw [List.foldl_cons, ih h.2, values_replace, Entries.find?]
    by_cases hn : e.1 = n
    · -- The name does not come again, so nothing replaces the values that it has now.
      have hnone : Entries.find? n rest = none := Entries.find?_eq_none_iff.2 (hn ▸ h.1)
      simp [hn, hnone]
    · simp [hn, Ne.symm hn]

/-- A name of the overrides has its values there, and any other name those that it had. -/
theorem values_override (m overrides : HeaderMap) (n : HeaderName) :
    (m.override overrides).values n =
      if overrides.contains n then overrides.values n else m.values n := by
  rw [override, values_foldl_replace overrides.nodup]
  unfold contains values
  cases Entries.find? n overrides.entries <;> rfl

/-- The map in diagnostics: its lines between braces. -/
def debug (m : HeaderMap) : String :=
  "\x7b" ++ ", ".intercalate (m.lines.map fun l =>
    s!"{Quoted.text l.1.text}: {Quoted.bytes l.2.bytes}") ++ "\x7d"

end HeaderMap

end ApiClient
