import ApiClient.Entries
import ApiClient.Text.Quoted

/-!
# ApiClient.Cookie

Sets of cookies.

Design points:

* A set lists its names in order of arrival, each with its values in order. No name stands twice,
  and no name stands there without a value.
* A name that changes keeps its place, also when sets are merged.
-/

namespace ApiClient

/-- A set of cookies. -/
structure Cookies where
  /-- The names with the values of each. -/
  entries : List (String × List String)
deriving Repr, DecidableEq

namespace Cookies

instance : EmptyCollection Cookies := ⟨⟨[]⟩⟩
instance : Inhabited Cookies := ⟨∅⟩

/-- Adds a value behind those that the name has. -/
def add (c : Cookies) (name value : String) : Cookies :=
  ⟨Entries.update name (fun values => values.getD [] ++ [value]) c.entries⟩

/-- Makes `value` the only value of the name. -/
def set (c : Cookies) (name value : String) : Cookies := ⟨Entries.put name [value] c.entries⟩

/-- Removes a name with its values. -/
def erase (c : Cookies) (name : String) : Cookies := ⟨Entries.erase name c.entries⟩

/-- All values of a name. -/
def get? (c : Cookies) (name : String) : Option (List String) := Entries.find? name c.entries

/-- The first value of a name. -/
def first? (c : Cookies) (name : String) : Option String := (c.get? name).bind List.head?

/-- Whether the set has the name. -/
def contains (c : Cookies) (name : String) : Bool := (c.get? name).isSome

/-- The names, in order. -/
def names (c : Cookies) : List String := c.entries.map (·.1)

/-- Removes a name, and tells which values it had. -/
def remove (c : Cookies) (name : String) : Option (List String) × Cookies :=
  (c.get? name, c.erase name)

/-- Each name with each of its values, in order. -/
def toList (c : Cookies) : List (String × String) :=
  c.entries.flatMap fun (name, values) => values.map fun value => (name, value)

/-- The number of names. -/
def size (c : Cookies) : Nat := c.entries.length

/-- Whether there is no cookie. -/
def isEmpty (c : Cookies) : Bool := c.entries.isEmpty

/-- Adds cookies one by one. -/
def addAll (c : Cookies) (pairs : List (String × String)) : Cookies :=
  pairs.foldl (fun c (name, value) => c.add name value) c

/-- The set of the given cookies. -/
def ofList (pairs : List (String × String)) : Cookies := addAll ∅ pairs

/-- The set in which each name of `overrides` has the values it has there. -/
def merge (c overrides : Cookies) : Cookies :=
  ⟨overrides.entries.foldl (fun merged (name, values) => Entries.put name values merged) c.entries⟩

/-- A cookie as a header shows it. -/
def pairText (pair : String × String) : String := pair.1 ++ "=" ++ pair.2

/-- The text with one more pair. A separator is due unless there is no text yet. -/
def grow (text : String) (pair : String × String) : String :=
  if text.isEmpty then pairText pair else text ++ "; " ++ pairText pair

/-- The text of the header that carries the set, which grows pair by pair; there is none if it has
not grown. -/
def header? (c : Cookies) : Option String :=
  let text := c.toList.foldl grow ""
  if text.isEmpty then none else some text

theorem pairText_ne_empty (pair : String × String) : pairText pair ≠ "" := by
  simp [pairText]

/-- Behind a text each pair brings its separator. -/
theorem foldl_grow {text : String} (h : text ≠ "") (pairs : List (String × String)) :
    pairs.foldl grow text = "; ".intercalate (text :: pairs.map pairText) := by
  induction pairs generalizing text with
  | nil => simp
  | cons pair pairs ih =>
    have hgrow : grow text pair = text ++ "; " ++ pairText pair := by
      rw [grow, if_neg (by simpa using h)]
    rw [List.foldl_cons, hgrow, ih (by simp [h]), List.map_cons]
    cases pairs with
    | nil => simp
    | cons next pairs => simp [String.append_assoc]

/-- The header shows the pairs with a separator between any two. Only a set without pairs has none,
since each pair shows at least its equals sign. -/
theorem header?_eq (c : Cookies) : c.header? =
    if c.toList.isEmpty then none else some ("; ".intercalate (c.toList.map pairText)) := by
  rw [header?]
  cases c.toList with
  | nil => rfl
  | cons pair pairs =>
    have hgrown : (pair :: pairs).foldl grow "" = "; ".intercalate ((pair :: pairs).map pairText) :=
      foldl_grow (pairText_ne_empty pair) pairs
    have hne : (pair :: pairs).foldl grow "" ≠ "" := by
      rw [hgrown]
      cases pairs with
      | nil => simpa using pairText_ne_empty pair
      | cons next pairs => simp [pairText_ne_empty]
    rw [if_neg (by simpa using hne), if_neg (by simp), hgrown]

/-- The set in diagnostics. -/
def debug (c : Cookies) : String :=
  let entry (e : String × List String) : String :=
    s!"({Quoted.text e.1}, [" ++ ", ".intercalate (e.2.map Quoted.text) ++ "])"
  "Cookies \x7b entries: [" ++ ", ".intercalate (c.entries.map entry) ++ "] \x7d"

end Cookies

end ApiClient
