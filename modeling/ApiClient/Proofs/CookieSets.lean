import ApiClient.Cookie
import Mathlib.Data.List.Basic
import Mathlib.Logic.Function.Basic

/-!
# ApiClient.Proofs.CookieSets

Sets of cookies as ordered multimaps.

A multimap says which names there are, in which order, and which values a name has (`Multimap`). A
set of cookies holds the same in one list of entries, and changes it by searching that list. The
list of a multimap has distinct names, and no name in it is without a value; so for each operation
there is one square, which says that the list of the changed multimap is the changed list. Whatever
a caller does from the empty set on (`CookieHistory`) then leads to the list of a multimap, and what
a caller sees is read off the multimap.

A list with distinct names is determined by its names and by what each name has
(`Entries.eq_of_find?`). The squares and the laws of merging are proved through these two views.
-/

namespace ApiClient

/-! ### Entries with distinct names -/

namespace Entries

variable {α β : Type} [DecidableEq α]

/-- Entries with distinct names are determined by the names in order and the value of each. -/
theorem eq_of_find? {entries others : List (α × β)} (hnodup : (entries.map (·.1)).Nodup)
    (hnames : entries.map (·.1) = others.map (·.1))
    (hvalues : ∀ name, find? name entries = find? name others) : entries = others := by
  induction entries generalizing others with
  | nil => exact (List.map_eq_nil_iff.1 hnames.symm).symm
  | cons e rest ih =>
      cases others with
      | nil => simp at hnames
      | cons other others =>
          rw [List.map_cons, List.nodup_cons] at hnodup
          simp only [List.map_cons, List.cons.injEq] at hnames
          obtain ⟨hname, hrest⟩ := hnames
          have hvalue : e.2 = other.2 := by simpa [find?, hname] using hvalues e.1
          rw [Prod.ext hname hvalue, ih hnodup.2 hrest]
          intro name
          by_cases hn : name = e.1
          · -- Behind the entry in front its name does not come again, on either side.
            rw [find?_eq_none_iff.2 (hn ▸ hnodup.1), find?_eq_none_iff.2 (hrest ▸ hn ▸ hnodup.1)]
          · simpa [find?, ← hname, Ne.symm hn] using hvalues name

/-- Putting entries with distinct names appends the new names, in order. -/
theorem names_foldl_put {overrides : List (α × β)} (hnodup : (overrides.map (·.1)).Nodup)
    (entries : List (α × β)) :
    (overrides.foldl (fun merged e => put e.1 e.2 merged) entries).map (·.1) =
      entries.map (·.1) ++ (overrides.map (·.1)).filter (· ∉ entries.map (·.1)) := by
  induction overrides generalizing entries with
  | nil => simp
  | cons e rest ih =>
      rw [List.map_cons, List.nodup_cons] at hnodup
      rw [List.foldl_cons, ih hnodup.2, put, names_update]
      by_cases h : e.1 ∈ entries.map (·.1)
      · rw [if_pos h, List.map_cons, List.filter_cons_of_neg (by simpa using h)]
      · -- The name that was added is none of those still to come.
        have hrest : ∀ name ∈ rest.map (·.1), name ≠ e.1 :=
          fun name hmem heq => hnodup.1 (heq ▸ hmem)
        have hfilter : (rest.map (·.1)).filter (· ∉ entries.map (·.1) ++ [e.1]) =
            (rest.map (·.1)).filter (· ∉ entries.map (·.1)) := by
          refine List.filter_congr fun name hmem => ?_
          simp [hrest name hmem]
        rw [if_neg h, hfilter, List.map_cons, List.filter_cons_of_pos (by simpa using h)]
        simp

/-- Among entries with distinct names that were put, each name has its own value, and any other
keeps what it had. -/
theorem find?_foldl_put {overrides : List (α × β)} (hnodup : (overrides.map (·.1)).Nodup)
    (entries : List (α × β)) (name : α) :
    find? name (overrides.foldl (fun merged e => put e.1 e.2 merged) entries) =
      (find? name overrides).or (find? name entries) := by
  induction overrides generalizing entries with
  | nil => simp
  | cons e rest ih =>
      rw [List.map_cons, List.nodup_cons] at hnodup
      rw [List.foldl_cons, ih hnodup.2, put]
      by_cases h : e.1 = name
      · subst h
        simp [find?, find?_eq_none_iff.2 hnodup.1, find?_update_self]
      · simp [find?, h, find?_update_of_ne (Ne.symm h)]

end Entries

/-! ### Ordered multimaps -/

/-- An ordered multimap. -/
@[ext]
structure Multimap where
  /-- The names, in order of arrival. -/
  names : List String
  /-- The values of a name, in order. -/
  values : String → List String
  /-- No name stands twice. -/
  nodup : names.Nodup
  /-- The names are those that have a value. -/
  mem_iff : ∀ name, name ∈ names ↔ values name ≠ []

namespace Multimap

instance : EmptyCollection Multimap where
  emptyCollection :=
    { names := [], values := fun _ => [], nodup := List.nodup_nil, mem_iff := by simp }

/-- Gives a name values in the place of those that it has. A name that is not there yet goes to the
end. -/
def give (m : Multimap) (name : String) (values : List String) (h : values ≠ []) : Multimap where
  names := if name ∈ m.names then m.names else m.names ++ [name]
  values := Function.update m.values name values
  nodup := by
    split
    · exact m.nodup
    · next hmem => exact List.nodup_append.2 ⟨m.nodup, by simp, by rintro a ha b hb rfl; simp_all⟩
  mem_iff other := by
    have hother := m.mem_iff other
    by_cases heq : other = name
    · subst heq
      split <;> simp_all
    · rw [Function.update_of_ne heq]
      split <;> simp_all

/-- Adds a value behind those that the name has. -/
def add (m : Multimap) (name value : String) : Multimap :=
  m.give name (m.values name ++ [value]) (by simp)

/-- Makes `value` the only value of the name. -/
def set (m : Multimap) (name value : String) : Multimap := m.give name [value] (by simp)

/-- Removes a name with its values. -/
def erase (m : Multimap) (name : String) : Multimap where
  names := m.names.filter (· ≠ name)
  values := Function.update m.values name []
  nodup := m.nodup.filter _
  mem_iff other := by
    have hother := m.mem_iff other
    by_cases heq : other = name
    · simp [heq]
    · simp_all

/-- Adds values one by one, each to its name. -/
def addAll (m : Multimap) (pairs : List (String × String)) : Multimap :=
  pairs.foldl (fun m pair => m.add pair.1 pair.2) m

/-- The multimap in which each name of `overrides` has the values it has there. Its new names go to
the end, in order. -/
def merge (m overrides : Multimap) : Multimap where
  names := m.names ++ overrides.names.filter (· ∉ m.names)
  values name := if name ∈ overrides.names then overrides.values name else m.values name
  nodup := by
    refine List.nodup_append.2 ⟨m.nodup, overrides.nodup.filter _, ?_⟩
    rintro a ha b hb rfl
    simp_all
  mem_iff name := by
    have hname := m.mem_iff name
    have hover := overrides.mem_iff name
    by_cases hmem : name ∈ overrides.names
    · have hvalue := hover.1 hmem
      by_cases hold : name ∈ m.names <;> simp [hmem, hold, hvalue]
    · simp [hmem, hname]

/-- All values of a name, if it is there. -/
def get? (m : Multimap) (name : String) : Option (List String) :=
  if name ∈ m.names then some (m.values name) else none

/-- Each name with each of its values, in order. -/
def toList (m : Multimap) : List (String × String) :=
  m.names.flatMap fun name => (m.values name).map (name, ·)

/-- The set of cookies of a multimap: each name with all its values, in order. -/
def toCookies (m : Multimap) : Cookies := ⟨m.names.map fun name => (name, m.values name)⟩

variable (m : Multimap)

theorem names_entries : m.toCookies.entries.map (·.1) = m.names := by
  simp [toCookies, Function.comp_def]

theorem find?_entries (name : String) : Entries.find? name m.toCookies.entries = m.get? name := by
  simp only [toCookies, get?]
  induction m.names with
  | nil => rfl
  | cons other names ih =>
      by_cases h : other = name
      · simp [Entries.find?, h]
      · simp [Entries.find?, h, Ne.symm h, ih]

@[simp] theorem names_toCookies : m.toCookies.names = m.names := m.names_entries

@[simp] theorem get?_toCookies (name : String) : m.toCookies.get? name = m.get? name :=
  m.find?_entries name

@[simp] theorem toList_toCookies : m.toCookies.toList = m.toList := by
  simp [toCookies, Cookies.toList, toList, List.flatMap_map]

@[simp] theorem size_toCookies : m.toCookies.size = m.names.length := by
  simp [toCookies, Cookies.size]

/-- A list is that of a multimap if it has the names and values of it. -/
theorem eq_toCookies {entries : List (String × List String)} (hnames : entries.map (·.1) = m.names)
    (hvalues : ∀ name, Entries.find? name entries = m.get? name) : ⟨entries⟩ = m.toCookies := by
  have hnodup : (entries.map (·.1)).Nodup := by
    rw [hnames]
    exact m.nodup
  exact congrArg Cookies.mk
    (Entries.eq_of_find? hnodup (hnames.trans m.names_entries.symm) fun name =>
    (hvalues name).trans (m.find?_entries name).symm)

/-! ### What changes a set changes its multimap -/

theorem toCookies_empty : (∅ : Multimap).toCookies = ∅ := rfl

/-- A change of what a name has is the same change of the list. -/
theorem toCookies_give (name : String) (change : Option (List String) → List String)
    (h : change (m.get? name) ≠ []) :
    ⟨Entries.update name change m.toCookies.entries⟩ =
      (m.give name (change (m.get? name)) h).toCookies := by
  refine eq_toCookies _ ?_ fun other => ?_
  · rw [Entries.names_update, names_entries]
    rfl
  · by_cases heq : other = name
    · subst heq
      rw [Entries.find?_update_self, find?_entries]
      by_cases hmem : other ∈ m.names <;> simp [get?, give, hmem]
    · rw [Entries.find?_update_of_ne heq, find?_entries]
      by_cases hmem : name ∈ m.names <;> simp [get?, give, hmem, heq]

/-- A name that is not there has no value yet. -/
theorem getD_get? (name : String) : (m.get? name).getD [] = m.values name := by
  by_cases hmem : name ∈ m.names
  · simp [get?, hmem]
  · have hvalues : m.values name = [] := by simpa using mt (m.mem_iff name).2 hmem
    simp [get?, hmem, hvalues]

theorem toCookies_add (name value : String) :
    m.toCookies.add name value = (m.add name value).toCookies := by
  have h := m.toCookies_give name (fun values => values.getD [] ++ [value]) (by simp)
  simp only [getD_get?] at h
  exact h

theorem toCookies_set (name value : String) :
    m.toCookies.set name value = (m.set name value).toCookies :=
  m.toCookies_give name (fun _ => [value]) (by simp)

theorem toCookies_erase (name : String) : m.toCookies.erase name = (m.erase name).toCookies := by
  refine eq_toCookies _ ?_ fun other => ?_
  · rw [Entries.names_erase, names_entries]
    rfl
  · by_cases heq : other = name
    · subst heq
      simp [get?, erase]
    · rw [Entries.find?_erase_of_ne heq, find?_entries]
      simp [get?, erase, heq]

theorem toCookies_addAll (pairs : List (String × String)) :
    m.toCookies.addAll pairs = (m.addAll pairs).toCookies := by
  induction pairs generalizing m with
  | nil => rfl
  | cons pair pairs ih =>
      show (m.toCookies.add pair.1 pair.2).addAll pairs =
        ((m.add pair.1 pair.2).addAll pairs).toCookies
      rw [toCookies_add, ih]

theorem toCookies_merge (overrides : Multimap) :
    m.toCookies.merge overrides.toCookies = (m.merge overrides).toCookies := by
  have hnodup : (overrides.toCookies.entries.map (·.1)).Nodup := by
    rw [names_entries]
    exact overrides.nodup
  refine eq_toCookies _ ?_ fun name => ?_
  · rw [Entries.names_foldl_put hnodup, names_entries, names_entries]
    rfl
  · rw [Entries.find?_foldl_put hnodup, find?_entries, find?_entries]
    by_cases hmem : name ∈ overrides.names <;> by_cases hold : name ∈ m.names <;>
      simp [get?, merge, hmem, hold]

/-! ### Taking a set apart and collecting it again -/

/-- More values for the last name go behind those that it has. -/
theorem addAll_values {front : List (String × List String)} {name : String}
    (h : name ∉ front.map (·.1)) (values more : List String) :
    Cookies.addAll ⟨front ++ [(name, values)]⟩ (more.map (name, ·)) =
      ⟨front ++ [(name, values ++ more)]⟩ := by
  induction more generalizing values with
  | nil => simp [Cookies.addAll]
  | cons value more ih =>
      have hadd : Cookies.add ⟨front ++ [(name, values)]⟩ name value =
          ⟨front ++ [(name, values ++ [value])]⟩ := by
        simp [Cookies.add, Entries.update_append_of_not_mem h, Entries.update]
      have hrest := ih (values ++ [value])
      rw [List.append_assoc, List.singleton_append] at hrest
      rw [← hrest, ← hadd]
      rfl

/-- Collecting what a set lists goes through its names one after the other. -/
theorem addAll_flatMap (front : List (String × List String)) {names : List String}
    (hnodup : (front.map (·.1) ++ names).Nodup) (hvalues : ∀ name ∈ names, m.values name ≠ []) :
    Cookies.addAll ⟨front⟩ (names.flatMap fun name => (m.values name).map (name, ·)) =
      ⟨front ++ names.map fun name => (name, m.values name)⟩ := by
  induction names generalizing front with
  | nil => simp [Cookies.addAll]
  | cons name names ih =>
      obtain ⟨hname, hrest⟩ := List.forall_mem_cons.1 hvalues
      obtain ⟨value, more, hmore⟩ := List.exists_cons_of_ne_nil hname
      have hnew : name ∉ front.map (·.1) := fun hmem =>
        (List.nodup_append.1 hnodup).2.2 name hmem name List.mem_cons_self rfl
      have hadd : Cookies.add ⟨front⟩ name value = ⟨front ++ [(name, [value])]⟩ := by
        have hupdate :=
          Entries.update_append_of_not_mem hnew (fun values => values.getD [] ++ [value]) []
        rw [List.append_nil] at hupdate
        simp [Cookies.add, hupdate, Entries.update]
      have hfirst : Cookies.addAll ⟨front⟩ ((m.values name).map (name, ·)) =
          ⟨front ++ [(name, m.values name)]⟩ := by
        rw [hmore, ← List.singleton_append, ← addAll_values hnew [value] more, ← hadd]
        rfl
      have hnext := ih (front ++ [(name, m.values name)]) (by simpa using hnodup) hrest
      rw [List.append_assoc, List.singleton_append] at hnext
      rw [List.flatMap_cons, List.map_cons, ← hnext, ← hfirst, Cookies.addAll, List.foldl_append]
      rfl

theorem ofList_toList : Cookies.ofList m.toList = m.toCookies :=
  m.addAll_flatMap [] m.nodup fun name hmem => (m.mem_iff name).1 hmem

/-- There is a pair for each value, so only the empty set lists nothing. -/
theorem toList_eq_nil_iff : m.toList = [] ↔ m.names = [] := by
  constructor
  · intro h
    refine List.eq_nil_iff_forall_not_mem.2 fun name hmem => ?_
    have hnone := List.flatMap_eq_nil_iff.1 h name hmem
    exact (m.mem_iff name).1 hmem (List.map_eq_nil_iff.1 hnone)
  · intro h
    rw [toList, h, List.flatMap_nil]

theorem header?_eq_none_iff : m.toCookies.header? = none ↔ m.toCookies.isEmpty = true := by
  have hempty : m.toCookies.isEmpty = m.names.isEmpty := List.isEmpty_map
  rw [hempty, List.isEmpty_iff, ← toList_eq_nil_iff, Cookies.header?_eq, toList_toCookies,
    ← List.isEmpty_iff]
  cases m.toList.isEmpty with
  | true => simp
  | false => simp

/-! ### Merging -/

theorem merge_assoc (a b c : Multimap) : (a.merge b).merge c = a.merge (b.merge c) := by
  ext1
  · simp only [merge, List.filter_append, List.append_assoc, List.filter_filter]
    congr 2
    refine List.filter_congr fun name _ => ?_
    by_cases ha : name ∈ a.names <;> by_cases hb : name ∈ b.names <;> simp [ha, hb]
  · funext name
    by_cases hb : name ∈ b.names <;> by_cases hc : name ∈ c.names <;> simp [merge, hb, hc]

theorem merge_self (m : Multimap) : m.merge m = m := by
  ext1
  · have hnone : m.names.filter (· ∉ m.names) = [] := List.filter_eq_nil_iff.2 (by simp)
    simp only [merge, hnone, List.append_nil]
  · funext name
    simp [merge]

theorem empty_merge (m : Multimap) : (∅ : Multimap).merge m = m := by
  ext1
  · show [] ++ m.names.filter (· ∉ []) = m.names
    simp
  · funext name
    have hname := m.mem_iff name
    by_cases hmem : name ∈ m.names
    · simp [merge, hmem]
    · have hnone : m.values name = [] := by simpa using mt hname.2 hmem
      simp only [merge, if_neg hmem, hnone]
      rfl

theorem merge_empty (m : Multimap) : m.merge ∅ = m := by
  ext1
  · show m.names ++ [].filter (· ∉ m.names) = m.names
    simp
  · rfl

end Multimap

/-! ### What a caller does -/

/-- What a caller does to a set of cookies, from the empty set on. A set that is merged has a
history of its own. -/
inductive CookieHistory where
  /-- Nothing. -/
  | empty
  /-- A value is added to a name. -/
  | add (before : CookieHistory) (name value : String)
  /-- A name is set to one value. -/
  | set (before : CookieHistory) (name value : String)
  /-- A name is removed. -/
  | remove (before : CookieHistory) (name : String)
  /-- All names are removed. -/
  | clear (before : CookieHistory)
  /-- Pairs are added one by one. -/
  | extend (before : CookieHistory) (pairs : List (String × String))
  /-- A set is collected from pairs. -/
  | collect (pairs : List (String × String))
  /-- A set is merged with overrides. -/
  | merge (before overrides : CookieHistory)

namespace CookieHistory

/-- The set that a caller has. -/
def cookies : CookieHistory → Cookies
  | empty => ∅
  | add before name value => before.cookies.add name value
  | set before name value => before.cookies.set name value
  | remove before name => (before.cookies.remove name).2
  | clear _ => ∅
  | extend before pairs => before.cookies.addAll pairs
  | collect pairs => .ofList pairs
  | merge before overrides => before.cookies.merge overrides.cookies

/-- The ordered multimap that the same steps lead to. -/
def multimap : CookieHistory → Multimap
  | empty => ∅
  | add before name value => before.multimap.add name value
  | set before name value => before.multimap.set name value
  | remove before name => before.multimap.erase name
  | clear _ => ∅
  | extend before pairs => before.multimap.addAll pairs
  | collect pairs => (∅ : Multimap).addAll pairs
  | merge before overrides => before.multimap.merge overrides.multimap

/-- Whatever a caller does, the set is that of the multimap. -/
theorem cookies_eq (h : CookieHistory) : h.cookies = h.multimap.toCookies := by
  induction h with
  | empty => rfl
  | add before name value ih => rw [cookies, ih, Multimap.toCookies_add, multimap]
  | set before name value ih => rw [cookies, ih, Multimap.toCookies_set, multimap]
  | remove before name ih => rw [cookies, ih, Cookies.remove, Multimap.toCookies_erase, multimap]
  | clear _ _ => rfl
  | extend before pairs ih => rw [cookies, ih, Multimap.toCookies_addAll, multimap]
  | collect pairs => exact Multimap.toCookies_addAll ∅ pairs
  | merge before overrides ih ih' => rw [cookies, ih, ih', Multimap.toCookies_merge, multimap]

end CookieHistory

/-- **A set of cookies is an ordered multimap.** Whatever a caller has done, names are distinct and
each has a value. The names, the values of each, their number and the listed pairs are those of the
multimap that the same steps lead to, and removing a name gives all its values. Collecting the
listed pairs gives the set again, and there is a header exactly if there is a cookie. -/
theorem cookies_refine_multimap (h : CookieHistory) :
    (h.cookies.names.Nodup ∧ ∀ name ∈ h.cookies.names, ∃ first more,
      h.cookies.get? name = some (first :: more))
      ∧ h.cookies.names = h.multimap.names
      ∧ (∀ name, h.cookies.get? name = h.multimap.get? name)
      ∧ h.cookies.size = h.multimap.names.length
      ∧ h.cookies.toList = h.multimap.toList
      ∧ (∀ name, h.cookies.remove name = (h.multimap.get? name, (h.multimap.erase name).toCookies))
      ∧ Cookies.ofList h.cookies.toList = h.cookies
      ∧ (h.cookies.header? = none ↔ h.cookies.isEmpty = true) := by
  rw [h.cookies_eq]
  generalize h.multimap = m
  refine ⟨⟨?_, fun name hmem => ?_⟩, m.names_toCookies, m.get?_toCookies, m.size_toCookies,
    m.toList_toCookies, fun name => ?_, ?_, m.header?_eq_none_iff⟩
  · rw [m.names_toCookies]
    exact m.nodup
  · rw [m.names_toCookies] at hmem
    obtain ⟨first, more, hvalues⟩ := List.exists_cons_of_ne_nil ((m.mem_iff name).1 hmem)
    exact ⟨first, more, by simp [Multimap.get?, hmem, hvalues]⟩
  · rw [Cookies.remove, m.get?_toCookies, m.toCookies_erase]
  · rw [m.toList_toCookies, m.ofList_toList]

/-- **Merging is an idempotent monoid.** It is associative, the empty set changes nothing on either
side, and a set merged with itself is the set. Each name of the overrides has the values it has
there, any other name has the values it had, and the new names go behind the old ones in their
order. -/
theorem merging_is_idempotent_monoid (a b c : CookieHistory) :
    (a.cookies.merge b.cookies).merge c.cookies = a.cookies.merge (b.cookies.merge c.cookies)
      ∧ a.cookies.merge a.cookies = a.cookies
      ∧ (∅ : Cookies).merge a.cookies = a.cookies
      ∧ a.cookies.merge ∅ = a.cookies
      ∧ (∀ name, (a.cookies.merge b.cookies).get? name =
          if b.cookies.contains name then b.cookies.get? name else a.cookies.get? name)
      ∧ (a.cookies.merge b.cookies).names =
          a.cookies.names ++ b.cookies.names.filter fun name => !a.cookies.contains name := by
  rw [a.cookies_eq, b.cookies_eq, c.cookies_eq, ← Multimap.toCookies_empty]
  simp only [Multimap.toCookies_merge, Multimap.get?_toCookies, Multimap.names_toCookies,
    Cookies.contains]
  refine ⟨congrArg _ (Multimap.merge_assoc ..), congrArg _ (Multimap.merge_self _),
    congrArg _ (Multimap.empty_merge _), congrArg _ (Multimap.merge_empty _), fun name => ?_, ?_⟩
  · by_cases hmem : name ∈ b.multimap.names <;> by_cases hold : name ∈ a.multimap.names <;>
      simp [Multimap.get?, Multimap.merge, hmem, hold]
  · rw [Multimap.merge]
    refine congrArg _ (List.filter_congr fun name _ => ?_)
    by_cases hold : name ∈ a.multimap.names <;> simp [Multimap.get?, hold]

end ApiClient
