import ApiClient.Proofs.FormDelivery
import ApiClient.Proofs.MultipartForm
import Mathlib.Algebra.GroupWithZero.Nat

/-!
# ApiClient.Proofs.FormSize

The size that a form declares.

The size is added up apart from the bytes, part by part, and stays unknown once it is. Sizes only
grow, so the checks on the way find an overflow exactly if the total is one
(`Multipart.sizeFrom_add`). The total is the mathematical one of the framing and the declared sizes,
and it is the length of the written form if the streams among the parts deliver what they declare.

A machine adds words of 64 bits. `Multipart.wordSize?` is the size with such words, in which an
addition without a check wraps around. There is one, of the lengths of an opening and a closing, and
it cannot wrap around as long as the opening fits into memory.
-/

namespace ApiClient

/-! ### Totals -/

namespace Multipart

theorem addSizes_eq_some_iff {a b n : Nat} :
    addSizes a b = some n ↔ a + b = n ∧ n < 0x10000000000000000 := by
  unfold addSizes
  split
  · simp only [Option.some.injEq]
    omega
  · simp only [reduceCtorEq, false_iff]
    omega

/-- The number of bytes around the content of a part: its head and the line end behind it. -/
def partFraming (boundary : Boundary) (field : String × Part) : Nat :=
  (opening boundary field.1 field.2).length + closing.length

/-- One part: its framing is added, and then what it declares. -/
theorem sizeFrom_cons (boundary : Boundary) (size : Option Nat) (f : String × Part)
    (fields : List (String × Part)) :
    sizeFrom boundary size (f :: fields) = sizeFrom boundary
      (size.bind fun first => (addSizes first (partFraming boundary f)).bind fun framed =>
        f.2.content.size?.bind fun declared => addSizes framed declared) fields := rfl

/-- The declared sizes of parts, if every part has one. -/
def declaredSizes? (fields : List (String × Part)) : Option (List Nat) :=
  fields.mapM fun f => f.2.content.size?

/-- The total of the delimiters, the heads, the line ends and the declared sizes, if every part has
a declared size. -/
def declaredTotal? (m : Multipart) : Option Nat :=
  (declaredSizes? m.fields).map fun sizes =>
    (m.fields.map (partFraming m.boundary)).sum + sizes.sum + (ending m.boundary).length

theorem declaredSizes?_cons_eq_some_iff {f : String × Part} {fields : List (String × Part)}
    {sizes : List Nat} : declaredSizes? (f :: fields) = some sizes ↔
      ∃ n rest, f.2.content.size? = some n ∧ declaredSizes? fields = some rest
        ∧ sizes = n :: rest := by
  simp only [declaredSizes?, List.mapM_cons, Option.bind_eq_bind, Option.bind_eq_some_iff,
    Option.pure_def, Option.some.injEq, eq_comm (b := sizes)]
  constructor
  · rintro ⟨n, hn, rest, hrest, hsizes⟩
    exact ⟨n, rest, hn, hrest, hsizes⟩
  · rintro ⟨n, rest, hn, hrest, hsizes⟩
    exact ⟨n, hn, rest, hrest, hsizes⟩

/-- The size of parts with an amount in front and an amount behind is known exactly if all of it is,
and the total is a number of 64 bits. -/
theorem sizeFrom_add (boundary : Boundary) (size : Option Nat) (fields : List (String × Part))
    (last n : Nat) :
    ((sizeFrom boundary size fields).bind fun total => addSizes total last) = some n ↔
      ∃ first sizes, size = some first ∧ declaredSizes? fields = some sizes
        ∧ first + (fields.map (partFraming boundary)).sum + sizes.sum + last = n
        ∧ n < 0x10000000000000000 := by
  induction fields generalizing size with
  | nil =>
      rw [sizeFrom]
      simp only [Option.bind_eq_some_iff, addSizes_eq_some_iff]
      constructor
      · rintro ⟨first, hfirst, htotal, hlt⟩
        exact ⟨first, [], hfirst, rfl, htotal, hlt⟩
      · rintro ⟨first, sizes, hfirst, hsizes, htotal, hlt⟩
        obtain rfl := Option.some.inj hsizes
        exact ⟨first, hfirst, htotal, hlt⟩
  | cons f fields ih =>
      rw [sizeFrom_cons, ih]
      simp only [Option.bind_eq_some_iff, addSizes_eq_some_iff, declaredSizes?_cons_eq_some_iff,
        List.map_cons, List.sum_cons]
      constructor
      · rintro ⟨_, sizes, ⟨first, hfirst, framed, ⟨rfl, -⟩, declared, hdeclared, rfl, -⟩, hsizes,
          htotal, hlt⟩
        refine ⟨first, declared :: sizes, hfirst, ⟨declared, sizes, hdeclared, hsizes, rfl⟩,
          ?_, hlt⟩
        rw [List.sum_cons]
        omega
      · rintro ⟨first, _, hfirst, ⟨declared, sizes, hdeclared, hsizes, rfl⟩, htotal, hlt⟩
        -- What is added on the way is a part of the total, so no check on the way fails.
        rw [List.sum_cons] at htotal
        exact ⟨_, sizes,
          ⟨first, hfirst, _, ⟨rfl, by omega⟩, declared, hdeclared, rfl, by omega⟩, hsizes,
          by omega, hlt⟩

theorem size?_eq_some_iff (m : Multipart) {n : Nat} :
    m.toBody.size? = some n ↔ m.declaredTotal? = some n ∧ n < 0x10000000000000000 := by
  have hsum := sizeFrom_add m.boundary (some 0) m.fields (ending m.boundary).length n
  simp only [declaredTotal?, Option.map_eq_some_iff]
  refine hsum.trans ⟨?_, ?_⟩
  · rintro ⟨_, sizes, hfirst, hsizes, htotal, hlt⟩
    obtain rfl := Option.some.inj hfirst
    exact ⟨⟨sizes, hsizes, by omega⟩, hlt⟩
  · rintro ⟨⟨sizes, hsizes, htotal⟩, hlt⟩
    exact ⟨0, sizes, rfl, hsizes, by omega, hlt⟩

end Multipart

/-! ### What is delivered -/

/-- A stream delivers as many bytes as it declares, without failing. Bytes in memory always do. -/
def PartContent.DeliversDeclared : PartContent → Prop
  | .bytes _ => True
  | .stream source size => source.IsFaultless ∧ size = some source.content.length

theorem PartContent.DeliversDeclared.size?_eq {c : PartContent} (h : c.DeliversDeclared) :
    c.toStream.IsFaultless ∧ c.size? = some c.toStream.content.length := by
  cases c with
  | stream source size => exact h
  | bytes data =>
      refine ⟨Stream.isFaultless_cons.2
        ⟨fun _ _ hfailure => (nomatch hfailure), Stream.isFaultless_nil⟩, ?_⟩
      rw [toStream, Stream.ofBytes, Stream.content_cons, Stream.content_nil, List.append_nil]
      rfl

namespace Multipart

theorem declaredSizes?_of_delivers {fields : List (String × Part)}
    (h : ∀ f ∈ fields, f.2.content.DeliversDeclared) :
    declaredSizes? fields = some (fields.map fun f => f.2.content.toStream.content.length) := by
  induction fields with
  | nil => rfl
  | cons f fields ih =>
      obtain ⟨hf, hfields⟩ := List.forall_mem_cons.1 h
      exact declaredSizes?_cons_eq_some_iff.2 ⟨_, _, hf.size?_eq.2, ih hfields, rfl⟩

theorem length_flatMap_writtenPart (boundary : Boundary) (fields : List (String × Part)) :
    (fields.flatMap (writtenPart boundary)).length = (fields.map (partFraming boundary)).sum
      + (fields.map fun f => f.2.content.toStream.content.length).sum := by
  induction fields with
  | nil => rfl
  | cons f fields ih =>
      simp only [List.flatMap_cons, List.length_append, ih, List.map_cons,
        List.sum_cons, writtenPart, partFraming]
      omega

/-- Parts that deliver what they declare are as long as they say. -/
theorem declaredTotal?_of_delivers {m : Multipart}
    (h : ∀ f ∈ m.fields, f.2.content.DeliversDeclared) :
    m.declaredTotal? = some m.written.length := by
  rw [declaredTotal?, declaredSizes?_of_delivers h, written, List.length_append,
    length_flatMap_writtenPart]
  rfl

end Multipart

/-! ### Words -/

/-- The sum of two words, unless it overflows. -/
def addWords (a b : UInt64) : Option UInt64 :=
  if a.toNat + b.toNat < 0x10000000000000000 then some (a + b) else none

theorem toNat_addWords (a b : UInt64) :
    (addWords a b).map UInt64.toNat = Multipart.addSizes a.toNat b.toNat := by
  by_cases hlt : a.toNat + b.toNat < 0x10000000000000000
  · rw [addWords, if_pos hlt, Multipart.addSizes, if_pos (by omega), Option.map_some,
      UInt64.toNat_add, Nat.mod_eq_of_lt hlt]
  · rw [addWords, if_neg hlt, Multipart.addSizes, if_neg (by omega)]
    rfl

theorem toNat_word {n : Nat} (h : n < 0x10000000000000000) : (UInt64.ofNat n).toNat = n :=
  UInt64.toNat_ofNat_of_lt' h

namespace Multipart

/-- The size of parts and their framing in words, added to what stands before them. The length of
the framing of one part is added up without a check. -/
def wordSizeFrom (boundary : Boundary) : Option UInt64 → List (String × Part) → Option UInt64
  | size, [] => size
  | size, f :: rest =>
    let total : Option UInt64 := do
      let framed ← addWords (← size)
        (UInt64.ofNat (opening boundary f.1 f.2).length + UInt64.ofNat closing.length)
      addWords framed (UInt64.ofNat (← f.2.content.size?))
    wordSizeFrom boundary total rest

/-- The size of the written form in words, if it is known. -/
def wordSize? (m : Multipart) : Option UInt64 := do
  addWords (← wordSizeFrom m.boundary (some 0) m.fields) (UInt64.ofNat (ending m.boundary).length)

theorem length_ending (boundary : Boundary) : (ending boundary).length = 38 := by
  have hbytes := Bytes.ofText_ofList_of_ascii (Bytes.ascii_of_ofText boundary.ascii)
  rw [String.ofList_toList] at hbytes
  -- Its digits are ASCII, so there is a byte for each.
  have hlength : (Bytes.ofText boundary.text).length = 32 := by
    rw [hbytes, List.length_map, String.length_toList, boundary.valid.1]
  have hhyphens : (Bytes.ofText "--").length = 2 := rfl
  simp only [ending, List.length_append, hlength, hhyphens, List.length_cons, List.length_nil]

/-- The opening of a part is a byte string in memory, and its declared size is a word. -/
def FitsMachine (boundary : Boundary) (field : String × Part) : Prop :=
  (opening boundary field.1 field.2).length < 0x8000000000000000
    ∧ ∀ n ∈ field.2.content.size?, n < 0x10000000000000000

theorem FitsMachine.toNat_framing {boundary : Boundary} {field : String × Part}
    (h : FitsMachine boundary field) :
    (UInt64.ofNat (opening boundary field.1 field.2).length + UInt64.ofNat closing.length).toNat =
      partFraming boundary field := by
  have hclosing : closing.length = 2 := rfl
  have hopening := h.1
  rw [UInt64.toNat_add, toNat_word (by omega), toNat_word (by omega), Nat.mod_eq_of_lt (by omega)]
  rfl

theorem toNat_wordSizeFrom {boundary : Boundary} {fields : List (String × Part)}
    (h : ∀ f ∈ fields, FitsMachine boundary f) (size : Option UInt64) :
    (wordSizeFrom boundary size fields).map UInt64.toNat =
      sizeFrom boundary (size.map UInt64.toNat) fields := by
  induction fields generalizing size with
  | nil => rfl
  | cons f fields ih =>
      obtain ⟨hf, hfields⟩ := List.forall_mem_cons.1 h
      rw [wordSizeFrom, sizeFrom_cons, ih hfields]
      refine congrArg (sizeFrom boundary · fields) ?_
      cases size with
      | none => rfl
      | some first =>
          have hframed := toNat_addWords first
            (UInt64.ofNat (opening boundary f.1 f.2).length + UInt64.ofNat closing.length)
          rw [hf.toNat_framing] at hframed
          simp only [Option.map_some, Option.bind_eq_bind, Option.bind_some, ← hframed]
          -- The framing was added, if the sum is a word; what the part declares comes on top of it.
          cases addWords first
            (UInt64.ofNat (opening boundary f.1 f.2).length + UInt64.ofNat closing.length) with
          | none => rfl
          | some framed =>
              simp only [Option.bind_some, Option.map_some]
              cases hdeclared : f.2.content.size? with
              | none => rfl
              | some declared =>
                  have hsum := toNat_addWords framed (UInt64.ofNat declared)
                  rwa [toNat_word (hf.2 declared hdeclared)] at hsum

theorem toNat_wordSize? {m : Multipart} (h : ∀ f ∈ m.fields, FitsMachine m.boundary f) :
    m.wordSize?.map UInt64.toNat = m.toBody.size? := by
  have hparts := toNat_wordSizeFrom h (some 0)
  have hending : (ending m.boundary).length < 0x10000000000000000 := by
    rw [length_ending]
    decide
  have hsize : m.toBody.size? = ((wordSizeFrom m.boundary (some 0) m.fields).map UInt64.toNat).bind
      fun total => addSizes total (ending m.boundary).length := by
    rw [hparts]
    rfl
  rw [hsize, wordSize?]
  cases wordSizeFrom m.boundary (some 0) m.fields with
  | none => rfl
  | some total =>
      have hsum := toNat_addWords total (UInt64.ofNat (ending m.boundary).length)
      rwa [toNat_word hending] at hsum

/-- **The declared size of a form is exact.** It is known if the size of every part is, and if the
total of the framing and the sizes is a number of 64 bits, and then it is that total. If the streams
deliver what they declare, reading the body to its end gives as many bytes. With words of 64 bits no
sum on the way overflows unnoticed: the size is the same. -/
theorem declared_size_is_exact (m : Multipart) :
    (∀ n, m.toBody.size? = some n ↔ m.declaredTotal? = some n ∧ n < 0x10000000000000000)
    ∧ (∀ n, m.toBody.size? = some n → (∀ f ∈ m.fields, f.2.content.DeliversDeclared) →
      m.toBody.Delivers m.written .finished ∧ m.written.length = n)
    ∧ ((∀ f ∈ m.fields, FitsMachine m.boundary f) →
      m.wordSize?.map UInt64.toNat = m.toBody.size?) := by
  refine ⟨fun n => m.size?_eq_some_iff, fun n hsize hparts => ?_, toNat_wordSize?⟩
  have htotal := (m.size?_eq_some_iff.1 hsize).1
  rw [declaredTotal?_of_delivers hparts] at htotal
  have hdelivers := m.toBody.delivers_yield
  rw [yield_of_readsThrough m fun f hmem => (hparts f hmem).size?_eq.1] at hdelivers
  exact ⟨hdelivers, Option.some.inj htotal⟩

/-- A form with a stream that declares what it delivers. -/
def frankForm : Multipart where
  boundary := ⟨"00112233445566778899aabbccddeeff", by decide⟩
  fields := [("a", .text "ä"),
    ("b", .stream [{ rest := Bytes.ofText "slow", pace := fun _ => some 0 }] (some 4))]

/-- A form with a stream that declares the greatest size that there is. -/
def boastfulForm : Multipart :=
  { frankForm
    with fields := [("b", .stream (.ofBytes (Bytes.ofText "tiny")) (some (0xffffffffffffffff)))] }

theorem frank_and_boastful_sizes :
    frankForm.toBody.size? = some 326
      ∧ (frankForm.toBody.Delivers frankForm.written .finished ∧ frankForm.written.length = 326)
      ∧ boastfulForm.toBody.size? = none ∧ boastfulForm.wordSize?.map UInt64.toNat = none := by
  have hsize : frankForm.toBody.size? = some 326 := by decide +kernel
  have hfrank : ∀ f ∈ frankForm.fields, f.2.content.DeliversDeclared := by
    refine List.forall_mem_cons.2 ⟨trivial, List.forall_mem_singleton.2 ⟨?_, rfl⟩⟩
    exact Stream.isFaultless_cons.2 ⟨fun _ _ hfailure => (nomatch hfailure), Stream.isFaultless_nil⟩
  have hboast : boastfulForm.toBody.size? = none := by decide +kernel
  have hfits : ∀ f ∈ boastfulForm.fields, FitsMachine boastfulForm.boundary f := by
    refine List.forall_mem_singleton.2 ⟨by decide +kernel, fun n hn => ?_⟩
    obtain rfl := Option.some.inj hn
    decide
  exact ⟨hsize, frankForm.declared_size_is_exact.2.1 326 hsize hfrank, hboast,
    (boastfulForm.declared_size_is_exact.2.2 hfits).trans hboast⟩

end Multipart

end ApiClient
