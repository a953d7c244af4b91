import ApiClient.Proofs.PrintedValues

/-!
# ApiClient.Proofs.JsonViews

What a view on JSON objects lets through.

A view drops fields of objects that stand at the root or in lists, and does not look any deeper: the
value of a field that it lets through is shown as it is. What an observer can tell is stated for two
runs. Two values are written alike if they agree on the listed fields (`JsonView.Agrees`), so
nothing of the other fields shows, and only then, so nothing of the listed fields is lost. The
second half needs that different values have different texts.
-/

namespace ApiClient

open Json

namespace JsonView

variable {view : JsonView}

/-- The fields that a view lists, in their order. -/
def listed (view : JsonView) (fields : Fields) : Fields :=
  fields.filter fun field => decide (field.1 ∈ view.fields)

theorem filter_shows (view : JsonView) (fields : Fields) :
    fields.filter view.shows = view.listed fields := by
  refine List.filter_congr fun field _ => ?_
  simp [shows]

mutual

/-- Two values are equal up to the fields that a view does not list, in objects at the root or in
lists. -/
def Agrees (view : JsonView) : Json → Json → Prop
  | .object fields, .object others => view.listed fields = view.listed others
  | .array items, .array others => AgreesAll view items others
  | v, w => v = w

/-- The values agree one by one. -/
def AgreesAll (view : JsonView) : List Json → List Json → Prop
  | [], [] => True
  | item :: items, other :: others => Agrees view item other ∧ AgreesAll view items others
  | _, _ => False

end

mutual

/-- A view shows the same of values that agree. -/
theorem apply_eq_iff : ∀ {v w : Json}, view.apply v = view.apply w ↔ view.Agrees v w
  | .object fields, w => by
      cases w with
      | object others => simp [apply, Agrees, filter_shows]
      | _ => simp [apply, Agrees]
  | .array items, w => by
      cases w with
      | array others => rw [apply, apply, Agrees, Json.array.injEq, applyAll_eq_iff]
      | _ => simp [apply, Agrees]
  | .null, w => by cases w <;> simp [apply, Agrees]
  | .bool _, w => by cases w <;> simp [apply, Agrees]
  | .number _, w => by cases w <;> simp [apply, Agrees]
  | .string _, w => by cases w <;> simp [apply, Agrees]

theorem applyAll_eq_iff : ∀ {items others : List Json},
    view.applyAll items = view.applyAll others ↔ view.AgreesAll items others
  | [], [] => by simp [applyAll, AgreesAll]
  | [], _ :: _ => by simp [applyAll, AgreesAll]
  | _ :: _, [] => by simp [applyAll, AgreesAll]
  | _ :: _, _ :: _ =>
      by rw [applyAll, applyAll, AgreesAll, List.cons.injEq, apply_eq_iff, applyAll_eq_iff]

end

/-! ### One view after another -/

theorem listed_listed {f g both : JsonView}
    (h : ∀ name, name ∈ both.fields ↔ name ∈ f.fields ∧ name ∈ g.fields) (fields : Fields) :
    f.listed (g.listed fields) = both.listed fields := by
  rw [listed, listed, listed, List.filter_filter]
  refine List.filter_congr fun field _ => ?_
  simp [h]

mutual

/-- One view after another shows the fields that both list. -/
theorem apply_apply {f g both : JsonView}
    (h : ∀ name, name ∈ both.fields ↔ name ∈ f.fields ∧ name ∈ g.fields) :
    ∀ v : Json, f.apply (g.apply v) = both.apply v
  | .object fields => by
      rw [apply, apply, apply, filter_shows, filter_shows, filter_shows, listed_listed h]
  | .array items => by rw [apply, apply, apply, applyAll_applyAll h items]
  | .null => rfl
  | .bool _ => rfl
  | .number _ => rfl
  | .string _ => rfl

theorem applyAll_applyAll {f g both : JsonView}
    (h : ∀ name, name ∈ both.fields ↔ name ∈ f.fields ∧ name ∈ g.fields) :
    ∀ items : List Json, f.applyAll (g.applyAll items) = both.applyAll items
  | [] => rfl
  | item :: items =>
      by rw [applyAll, applyAll, applyAll, apply_apply h item, applyAll_applyAll h items]

end

/-! ### Regular values -/

theorem everywhereUnder_filter {p : Json → Prop} {fields : Fields} (keeps : String × Json → Bool)
    (h : EverywhereUnder p fields) : EverywhereUnder p (fields.filter keeps) := by
  induction fields with
  | nil => trivial
  | cons field fields ih =>
      rw [List.filter_cons]
      split
      · exact ⟨h.1, ih h.2⟩
      · exact ih h.2

mutual

/-- What is shown of a regular value is regular. -/
theorem everywhere_apply :
    ∀ {v : Json}, v.Everywhere IsRegular → (view.apply v).Everywhere IsRegular
  | .object fields, h => by
      refine ⟨?_, everywhereUnder_filter view.shows h.2⟩
      exact List.Nodup.sublist (List.filter_sublist.map _) h.1
  | .array _, h => ⟨trivial, everywhereIn_applyAll h.2⟩
  | .null, h => h
  | .bool _, h => h
  | .number _, h => h
  | .string _, h => h

theorem everywhereIn_applyAll : ∀ {items : List Json}, EverywhereIn IsRegular items →
    EverywhereIn IsRegular (view.applyAll items)
  | [], h => h
  | _ :: _, h => ⟨everywhere_apply h.1, everywhereIn_applyAll h.2⟩

end

end JsonView

namespace Codec

theorem writeJson_of_view (v : Json) (view : JsonView) :
    writeJson v { view := some view } = Bytes.ofChars (view.apply v).print :=
  Bytes.ofText_ofList _

theorem writeJson_eq_iff (view : JsonView) {v w : Json} (hv : v.Everywhere IsRegular)
    (hw : w.Everywhere IsRegular) :
    writeJson v { view := some view } = writeJson w { view := some view } ↔ view.Agrees v w := by
  rw [writeJson_of_view, writeJson_of_view, ← JsonView.apply_eq_iff]
  constructor
  · intro h
    exact print_injective (JsonView.everywhere_apply hv) (JsonView.everywhere_apply hw)
      (Bytes.ofChars_injective h)
  · intro h
    rw [h]

/-- **A view reveals exactly the listed fields.** Two values are written as the same bytes if and
only if they are equal up to the fields that are not listed, in the objects that are reached from
the root through lists only. One view after another is the view of the fields in both, so a view
applied twice is the view applied once. -/
theorem view_reveals_listed_fields (view : JsonView) (declared : Option MediaType) {v w : Json}
    (hv : v.Everywhere IsRegular) (hw : w.Everywhere IsRegular) :
    (∃ encoded encoded', json.write v declared { view := some view } = .ok encoded
        ∧ json.write w declared { view := some view } = .ok encoded'
        ∧ (encoded.bytes = encoded'.bytes ↔ view.Agrees v w))
      ∧ (∀ f g both : JsonView, (∀ name, name ∈ both.fields ↔ name ∈ f.fields ∧ name ∈ g.fields) →
        ∀ value, f.apply (g.apply value) = both.apply value)
      ∧ ∀ value, view.apply (view.apply value) = view.apply value := by
  refine ⟨⟨_, _, rfl, rfl, writeJson_eq_iff view hv hw⟩, ?_, ?_⟩
  · intro f g both h
    exact JsonView.apply_apply h
  · exact JsonView.apply_apply fun name => by simp

/-- A list of one account. -/
def account (id : Nat) (secret : String) : Json :=
  .array [.object [("id", nat id), ("secret", .string secret)]]

/-- A view with a name twice, and with a name that no account has. -/
def publicView : JsonView := { fields := ["id", "id", "mail"] }

theorem account_shown_without_secret :
    (∃ encoded encoded', json.write (account 1 "a") none { view := some publicView } = .ok encoded
        ∧ json.write (account 1 "b") none { view := some publicView } = .ok encoded'
        ∧ encoded.bytes = encoded'.bytes)
      ∧ ∃ encoded encoded',
        json.write (account 1 "a") none { view := some publicView } = .ok encoded
        ∧ json.write (account 2 "a") none { view := some publicView } = .ok encoded'
        ∧ encoded.bytes ≠ encoded'.bytes := by
  have hregular (id : Nat) (hid : id < 3) (secret : String) :
      (account id secret).Everywhere IsRegular := by
    refine ⟨trivial, ⟨?_, ⟨?_, ?_⟩, trivial, trivial⟩, trivial⟩
    · show (["id", "secret"] : List String).Nodup
      decide
    · omega
    · omega
  have hone := hregular 1 (by decide)
  have halike : publicView.Agrees (account 1 "a") (account 1 "b") := by
    simp [account, JsonView.Agrees, JsonView.AgreesAll, JsonView.listed, publicView]
  have hother : ¬ publicView.Agrees (account 1 "a") (account 2 "a") := by
    simp [account, JsonView.Agrees, JsonView.AgreesAll, JsonView.listed, publicView, nat]
  obtain ⟨⟨_, _, hfirst, hsecond, hsame⟩, -⟩ :=
    view_reveals_listed_fields publicView none (hone "a") (hone "b")
  obtain ⟨⟨_, _, hfirst', hsecond', hdiffers⟩, -⟩ :=
    view_reveals_listed_fields publicView none (hone "a") (hregular 2 (by decide) "a")
  exact ⟨⟨_, _, hfirst, hsecond, hsame.2 halike⟩, _, _, hfirst', hsecond', mt hdiffers.1 hother⟩

end Codec

end ApiClient
