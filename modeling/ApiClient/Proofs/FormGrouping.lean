import ApiClient.Codec.Form
import Mathlib.Data.List.Basic
import Mathlib.Data.List.Induction

/-!
# ApiClient.Proofs.FormGrouping

Reading a form groups its pairs by name.

Pairs are taken in one after the other (`groupPairs_concat`), and what a name has at any time is
determined by the texts that the pairs so far gave it (`find?_groupPairs`). The names stand in the
order in which they came first (`names_groupPairs`). Flattening the fields again only brings pairs
of one name together (`perm_flatMap_filter`), so the reader loses nothing.
-/

namespace ApiClient.Codec

variable {pairs : List (String × String)}

/-- The texts that pairs give a name, in order of occurrence. -/
def textsOf (name : String) (pairs : List (String × String)) : List String :=
  (pairs.filter (·.1 = name)).map (·.2)

/-- What a name has after some texts. -/
def held : List String → Option Json
  | [] => none
  | [text] => some (.string text)
  | texts => some (.array (texts.map .string))

/-! ### One more pair -/

theorem groupPairs_concat (pairs : List (String × String)) (name text : String) :
    groupPairs (pairs ++ [(name, text)]) =
      Entries.update name (gather text) (groupPairs pairs) := by
  simp [groupPairs]

theorem textsOf_concat_self (name text : String) (pairs : List (String × String)) :
    textsOf name (pairs ++ [(name, text)]) = textsOf name pairs ++ [text] := by
  simp [textsOf]

theorem textsOf_concat_of_ne {name other : String} (h : other ≠ name) (text : String)
    (pairs : List (String × String)) :
    textsOf name (pairs ++ [(other, text)]) = textsOf name pairs := by
  simp [textsOf, h]

/-- The second text turns what stood alone into a list, which takes in every later text. -/
theorem held_concat (texts : List String) (text : String) :
    held (texts ++ [text]) = some (gather text (held texts)) := by
  match texts with
  | [] => rfl
  | [_] => rfl
  | _ :: _ :: _ => simp [held, gather]

theorem eq_nil_of_held {texts : List String} (h : held texts = none) : texts = [] := by
  match texts with
  | [] => rfl
  | [_] => nomatch h
  | _ :: _ :: _ => nomatch h

theorem fieldTexts_of_held {texts : List String} {value : Json} (h : held texts = some value) :
    fieldTexts value = some texts := by
  match texts with
  | [] => nomatch h
  | [_] => obtain rfl := Option.some.inj h; rfl
  | first :: second :: texts =>
    obtain rfl := Option.some.inj h
    rw [fieldTexts, List.mapM_map]
    exact List.mapM_pure.trans (congrArg some (List.map_id _))

/-! ### All pairs -/

theorem nodup_names_groupPairs (pairs : List (String × String)) :
    ((groupPairs pairs).map (·.1)).Nodup := by
  induction pairs using List.reverseRecOn with
  | nil => exact List.nodup_nil
  | append_singleton pairs pair ih =>
    rw [groupPairs_concat]
    exact Entries.nodup_names_update _ _ ih

theorem names_groupPairs (pairs : List (String × String)) :
    (groupPairs pairs).map (·.1) = (pairs.map (·.1)).eraseDups := by
  induction pairs using List.reverseRecOn with
  | nil => rfl
  | append_singleton pairs pair ih =>
    rw [groupPairs_concat, Entries.names_update, ih, List.map_append, List.eraseDups_append]
    by_cases h : pair.1 ∈ pairs.map (·.1)
    · simp [h, List.removeAll]
    · simp [h, List.removeAll, List.eraseDups_cons]

/-- What a name has is determined by its texts. -/
theorem find?_groupPairs (name : String) (pairs : List (String × String)) :
    Entries.find? name (groupPairs pairs) = held (textsOf name pairs) := by
  induction pairs using List.reverseRecOn with
  | nil => rfl
  | append_singleton pairs pair ih =>
    obtain ⟨other, text⟩ := pair
    rw [groupPairs_concat]
    by_cases h : other = name
    · subst h
      rw [Entries.find?_update_self, textsOf_concat_self, held_concat, ih]
    · rw [Entries.find?_update_of_ne (Ne.symm h), textsOf_concat_of_ne h, ih]

theorem mem_groupPairs_iff {name : String} {value : Json} :
    (name, value) ∈ groupPairs pairs ↔ held (textsOf name pairs) = some value := by
  rw [← Entries.find?_eq_some_iff (nodup_names_groupPairs pairs), find?_groupPairs]

/-! ### Flat again -/

/-- Bringing pairs of one name together keeps all of them. -/
theorem perm_flatMap_filter {names : List String} (hnames : names.Nodup)
    (hall : ∀ pair ∈ pairs, pair.1 ∈ names) :
    (names.flatMap fun name => pairs.filter (·.1 = name)).Perm pairs := by
  induction names generalizing pairs with
  | nil =>
      simp [List.eq_nil_iff_forall_not_mem.2 fun pair hmem => List.not_mem_nil (hall pair hmem)]
  | cons name names ih =>
    obtain ⟨hnot, hnames⟩ := List.nodup_cons.1 hnames
    -- The other names have the same pairs once those of the first name are gone.
    have hothers : (names.flatMap fun other => pairs.filter (·.1 = other)) =
        names.flatMap fun other =>
          (pairs.filter fun pair => !decide (pair.1 = name)).filter (·.1 = other) := by
      refine List.flatMap_congr fun other hother => ?_
      rw [List.filter_filter]
      refine List.filter_congr fun pair _ => ?_
      have hne : other ≠ name := fun heq => hnot (heq ▸ hother)
      by_cases h : pair.1 = other
      · simp [h, hne]
      · simp [h]
    have hrest : ∀ pair ∈ pairs.filter (fun pair => !decide (pair.1 = name)), pair.1 ∈ names := by
      intro pair hmem
      obtain ⟨hmem, hne⟩ := List.mem_filter.1 hmem
      exact (List.mem_cons.1 (hall pair hmem)).resolve_left (by simpa using hne)
    rw [List.flatMap_cons, hothers]
    exact ((ih hnames hrest).append_left _).trans (List.filter_append_perm _ pairs)

/-- Fields whose texts are known by their names are flattened name by name. -/
theorem pairsOf_eq_of_forall {fields : Json.Fields} {texts : String → List String}
    (h : ∀ field ∈ fields, fieldTexts field.2 = some (texts field.1)) :
    pairsOf fields = some ((fields.map (·.1)).flatMap fun name => (texts name).map (name, ·)) := by
  induction fields with
  | nil => rfl
  | cons field fields ih =>
    obtain ⟨hfield, hfields⟩ := List.forall_mem_cons.1 h
    rw [pairsOf, hfield, ih hfields]
    rfl

theorem map_textsOf (name : String) (pairs : List (String × String)) :
    (textsOf name pairs).map (name, ·) = pairs.filter (·.1 = name) := by
  rw [textsOf, List.map_map]
  refine (List.map_congr_left fun pair hmem => ?_).trans (List.map_id _)
  rw [← (of_decide_eq_true (List.mem_filter.1 hmem).2 : pair.1 = name)]
  rfl

/-- Nothing is lost: the fields of read pairs, flattened again, are the same pairs, brought together
by name. -/
theorem exists_pairsOf_groupPairs (pairs : List (String × String)) :
    ∃ flat, pairsOf (groupPairs pairs) = some flat ∧ flat.Perm pairs := by
  have hflat : pairsOf (groupPairs pairs) =
      some (((groupPairs pairs).map (·.1)).flatMap fun name =>
        (textsOf name pairs).map (name, ·)) := by
    refine pairsOf_eq_of_forall ?_
    intro field hmem
    exact fieldTexts_of_held (mem_groupPairs_iff.1 hmem)
  refine ⟨_, hflat, ?_⟩
  simp only [map_textsOf]
  refine perm_flatMap_filter (nodup_names_groupPairs pairs) fun pair hmem => ?_
  rw [names_groupPairs, List.mem_eraseDups]
  exact List.mem_map_of_mem hmem

/-- **Reading a form is lossless grouping**: every byte string is read as an object with the
distinct names of its pairs, in the order of their first occurrence. A name that occurs once has its
text, a name that occurs more often the list of exactly its texts, in order. The fields, flattened
again, are all the pairs. -/
theorem read_form_groups (boundary : Boundary) (body : Bytes) (mediaType : MediaType) :
    ∃ fields, (form boundary).read body mediaType = .ok (some (.object fields)) ∧
      fields.map (·.1) = ((UrlEncoded.read body).map (·.1)).eraseDups ∧
      (∀ name value, (name, value) ∈ fields ↔
        (∃ text, textsOf name (UrlEncoded.read body) = [text] ∧ value = .string text) ∨
        (2 ≤ (textsOf name (UrlEncoded.read body)).length ∧
          value = .array ((textsOf name (UrlEncoded.read body)).map .string))) ∧
      ∃ flat, pairsOf fields = some flat ∧ flat.Perm (UrlEncoded.read body) := by
  refine ⟨groupPairs (UrlEncoded.read body), rfl, names_groupPairs _, fun name value => ?_,
    exists_pairsOf_groupPairs _⟩
  rw [mem_groupPairs_iff]
  match textsOf name (UrlEncoded.read body) with
  | [] => simp [held]
  | [text] => simp [held, eq_comm]
  | first :: second :: texts => simp [held, eq_comm]

end ApiClient.Codec
