/-!
# ApiClient.Entries

Lists of named entries in order of arrival.

Design points:

* A list of entries with distinct names is a finite map that remembers when each name arrived.
* `update` changes a name where it stands and adds a new one at the end, so it keeps names distinct.
* While names are distinct, what a name has does not depend on the order of the entries
  (`find?_perm`).
-/

namespace ApiClient.Entries

variable {α β : Type} [DecidableEq α]

/-- Changes the value of a name. A name that is not there yet is added at the end. -/
def update (name : α) (change : Option β → β) : List (α × β) → List (α × β)
  | [] => [(name, change none)]
  | (n, v) :: rest =>
    if n = name then (n, change (some v)) :: rest else (n, v) :: update name change rest

/-- Gives a name a value, whatever it had before. -/
def put (name : α) (value : β) : List (α × β) → List (α × β) := update name fun _ => value

/-- The value of a name. -/
def find? (name : α) : List (α × β) → Option β
  | [] => none
  | (n, v) :: rest => if n = name then some v else find? name rest

/-- The entries without those of a name. -/
def erase (name : α) (entries : List (α × β)) : List (α × β) := entries.filter (·.1 ≠ name)

@[simp] theorem find?_nil (name : α) : find? name ([] : List (α × β)) = none := rfl

theorem find?_update_self (name : α) (change : Option β → β) (entries : List (α × β)) :
    find? name (update name change entries) = some (change (find? name entries)) := by
  induction entries with
  | nil => simp [update, find?]
  | cons e rest ih => by_cases h : e.1 = name <;> simp [update, find?, h, ih]

theorem find?_update_of_ne {name other : α} (h : other ≠ name) (change : Option β → β)
    (entries : List (α × β)) :
    find? other (update name change entries) = find? other entries := by
  induction entries with
  | nil => simp [update, find?, Ne.symm h]
  | cons e rest ih =>
    by_cases hn : e.1 = name
    · simp [update, find?, hn, Ne.symm h]
    · by_cases ho : e.1 = other <;> simp [update, find?, hn, ho, h, ih]

/-- A change keeps the names in order: a new name goes to the end, and no other is added or lost. -/
theorem names_update (name : α) (change : Option β → β) (entries : List (α × β)) :
    (update name change entries).map (·.1) =
      if name ∈ entries.map (·.1) then entries.map (·.1) else entries.map (·.1) ++ [name] := by
  induction entries with
  | nil => simp [update]
  | cons e rest ih =>
    by_cases h : e.1 = name
    · simp [update, h]
    · by_cases hm : name ∈ rest.map (·.1) <;> simp_all [update, Ne.symm h]

theorem nodup_names_update (name : α) (change : Option β → β) {entries : List (α × β)}
    (h : (entries.map (·.1)).Nodup) : ((update name change entries).map (·.1)).Nodup := by
  rw [names_update]
  split
  · exact h
  · next hm =>
    refine List.nodup_append.2 ⟨h, by simp, fun a ha b hb hab => hm ?_⟩
    rwa [← List.mem_singleton.1 hb, ← hab]

/-- What holds of the values of all entries holds after a change if it holds of the new value. -/
theorem forall_update {p : β → Prop} {name : α} {change : Option β → β} {entries : List (α × β)}
    (h : ∀ e ∈ entries, p e.2) (hnew : p (change (find? name entries))) :
    ∀ e ∈ update name change entries, p e.2 := by
  induction entries with
  | nil => simpa [update] using hnew
  | cons e rest ih =>
    obtain ⟨he, hrest⟩ := List.forall_mem_cons.1 h
    by_cases hn : e.1 = name
    · rw [find?, if_pos hn] at hnew
      rw [update, if_pos hn]
      exact List.forall_mem_cons.2 ⟨hnew, hrest⟩
    · rw [find?, if_neg hn] at hnew
      rw [update, if_neg hn]
      exact List.forall_mem_cons.2 ⟨he, ih hrest hnew⟩

/-- A change in front of which the name does not stand changes only what is behind. -/
theorem update_append_of_not_mem {name : α} {front : List (α × β)} (h : name ∉ front.map (·.1))
    (change : Option β → β) (entries : List (α × β)) :
    update name change (front ++ entries) = front ++ update name change entries := by
  induction front with
  | nil => rfl
  | cons e front ih =>
    rw [List.map_cons, List.mem_cons, not_or] at h
    rw [List.cons_append, update, if_neg (Ne.symm h.1), ih h.2]
    rfl

theorem find?_eq_none_iff {name : α} {entries : List (α × β)} :
    find? name entries = none ↔ name ∉ entries.map (·.1) := by
  induction entries with
  | nil => simp
  | cons e rest ih =>
    by_cases h : e.1 = name
    · simp [find?, h]
    · simp [find?, h, Ne.symm h, ih]

theorem find?_eq_some_iff {name : α} {value : β} {entries : List (α × β)}
    (h : (entries.map (·.1)).Nodup) :
    find? name entries = some value ↔ (name, value) ∈ entries := by
  induction entries with
  | nil => simp
  | cons e rest ih =>
    rw [List.map_cons, List.nodup_cons] at h
    by_cases hn : e.1 = name
    · -- The name does not come again, so the entry in front is the only one.
      have hnot : (name, value) ∉ rest := fun hmem =>
        h.1 (hn ▸ List.mem_map_of_mem (f := (·.1)) hmem)
      simp [find?, hn, hnot, Prod.ext_iff, eq_comm]
    · simp [find?, hn, ih h.2, Prod.ext_iff, Ne.symm hn]

/-- The order of entries with distinct names does not show. -/
theorem find?_perm {name : α} {entries others : List (α × β)} (h : (entries.map (·.1)).Nodup)
    (hperm : entries.Perm others) : find? name entries = find? name others := by
  have hothers : (others.map (·.1)).Nodup := (hperm.map (·.1)).nodup_iff.1 h
  refine Option.ext fun value => ?_
  rw [find?_eq_some_iff h, find?_eq_some_iff hothers, hperm.mem_iff]

theorem names_erase (name : α) (entries : List (α × β)) :
    (erase name entries).map (·.1) = (entries.map (·.1)).filter (· ≠ name) := by
  rw [erase, List.filter_map]
  rfl

@[simp] theorem find?_erase_self (name : α) (entries : List (α × β)) :
    find? name (erase name entries) = none := by
  rw [find?_eq_none_iff, names_erase]
  simp

theorem find?_erase_of_ne {name other : α} (h : other ≠ name) (entries : List (α × β)) :
    find? other (erase name entries) = find? other entries := by
  induction entries with
  | nil => rfl
  | cons e rest ih =>
    unfold erase at ih ⊢
    by_cases hn : e.1 = name
    · rw [List.filter_cons_of_neg (by simpa using hn), ih, find?, if_neg (hn ▸ h.symm)]
    · rw [List.filter_cons_of_pos (by simpa using hn), find?, find?, ih]

end ApiClient.Entries
