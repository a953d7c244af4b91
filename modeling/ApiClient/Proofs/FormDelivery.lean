import ApiClient.Form.Multipart
import ApiClient.Proofs.ReadSchedule

/-!
# ApiClient.Proofs.FormDelivery

What the body of a form delivers.

A form is a chain of many streams, so its yield is computed link by link. If no part fails it is the
written form. If one does, it is what was written of the parts in front of the first that fails, the
opening of that part, and the front of its content; nothing of what stands behind is there. Every
form is one of the two (`Multipart.isFaultless_or_fails`).

How the parts are paced and how large the buffers are is no part of a yield.
-/

namespace ApiClient

namespace Multipart

/-! ### Framed parts -/

/-- The content of the part can be read to its end. -/
def ReadsThrough (field : String × Part) : Prop := field.2.content.toStream.IsFaultless

/-- A part with its framing, if it can be read to its end. -/
def writtenPart (boundary : Boundary) (field : String × Part) : Bytes :=
  opening boundary field.1 field.2 ++ field.2.content.toStream.content ++ closing

/-- The parts of the form with the framing between and behind them. -/
def written (m : Multipart) : Bytes :=
  m.fields.flatMap (writtenPart m.boundary) ++ ending m.boundary

/-- A framed part yields its opening, what its content yields, and its closing. -/
theorem yield_partStream (boundary : Boundary) (field : String × Part) :
    (partStream boundary field).yield = (⟨opening boundary field.1 field.2, none⟩ : Yield).andThen
      (field.2.content.toStream.yield.andThen ⟨closing, none⟩) := by
  rw [partStream, Stream.yield_append, Stream.yield_append, Stream.yield_ofBytes,
    Stream.yield_ofBytes, Yield.andThen_assoc]

theorem yield_partStream_of_readsThrough (boundary : Boundary) {field : String × Part}
    (h : ReadsThrough field) :
    (partStream boundary field).yield = ⟨writtenPart boundary field, none⟩ := by
  rw [yield_partStream, Stream.IsFaultless.yield_eq h, writtenPart, List.append_assoc]
  rfl

/-- Parts that can be read to their ends come as they are written, and the rest follows. -/
theorem yield_flatMap_append (boundary : Boundary) {fields : List (String × Part)}
    (h : ∀ f ∈ fields, ReadsThrough f) (rest : Stream) :
    Stream.yield (fields.flatMap (partStream boundary) ++ rest) =
      (⟨fields.flatMap (writtenPart boundary), none⟩ : Yield).andThen rest.yield := by
  induction fields with
  | nil => rfl
  | cons f fields ih =>
      obtain ⟨hf, hfields⟩ := List.forall_mem_cons.1 h
      rw [List.flatMap_cons, List.append_assoc, Stream.yield_append, ih hfields,
        yield_partStream_of_readsThrough boundary hf, List.flatMap_cons]
      simp

/-! ### Forms -/

theorem yield_of_readsThrough (m : Multipart) (h : ∀ f ∈ m.fields, ReadsThrough f) :
    m.toBody.yield = ⟨m.written, none⟩ := by
  have hall := yield_flatMap_append m.boundary h (.ofBytes (ending m.boundary))
  rw [Stream.yield_ofBytes] at hall
  exact hall

theorem yield_of_failsAfter {m : Multipart} {earlier later : List (String × Part)} {name : String}
    {part : Part} {k : Nat} {e : IoError} (hfields : m.fields = earlier ++ (name, part) :: later)
    (hearlier : ∀ f ∈ earlier, ReadsThrough f) (hpart : part.content.toStream.FailsAfter k e) :
    m.toBody.yield = ⟨earlier.flatMap (writtenPart m.boundary) ++ opening m.boundary name part
      ++ part.content.toStream.content.take k, some e⟩ := by
  have hfailed : (partStream m.boundary (name, part)).yield =
      ⟨opening m.boundary name part ++ part.content.toStream.content.take k, some e⟩ := by
    rw [yield_partStream, hpart.yield_eq]
    rfl
  have hsplit : m.toStream = earlier.flatMap (partStream m.boundary)
      ++ (partStream m.boundary (name, part)
        ++ (later.flatMap (partStream m.boundary) ++ .ofBytes (ending m.boundary))) := by
    simp only [toStream, hfields, List.flatMap_append, List.flatMap_cons, List.append_assoc]
  rw [toBody, RequestBody.yield_stream, hsplit, yield_flatMap_append m.boundary hearlier,
    Stream.yield_append, hfailed]
  simp

/-- All parts of a form can be read to their ends, or one is the first that fails. -/
theorem isFaultless_or_fails (fields : List (String × Part)) :
    (∀ f ∈ fields, ReadsThrough f) ∨ ∃ earlier name part later k e,
      fields = earlier ++ (name, part) :: later ∧ (∀ f ∈ earlier, ReadsThrough f)
        ∧ part.content.toStream.FailsAfter k e := by
  induction fields with
  | nil => exact .inl (List.forall_mem_nil _)
  | cons f fields ih =>
      obtain ⟨name, part⟩ := f
      rcases part.content.toStream.isFaultless_or_failsAfter with hpart | ⟨k, e, hpart⟩
      · rcases ih with hfields | ⟨earlier, name', part', later, k, e, rfl, hearlier, hpart'⟩
        · exact .inl (List.forall_mem_cons.2 ⟨hpart, hfields⟩)
        · exact .inr ⟨(name, part) :: earlier, name', part', later, k, e, rfl,
            List.forall_mem_cons.2 ⟨hpart, hearlier⟩, hpart'⟩
      · exact .inr ⟨[], name, part, fields, k, e, rfl, List.forall_mem_nil _, hpart⟩

theorem toBytes_eq_result (m : Multipart) : m.toBytes = m.toBody.yield.result :=
  m.toStream.readAll_eq_result

/-- **Streaming loses nothing.** Whatever the paces of the parts and the sizes of the buffers are, a
form whose parts can all be read delivers the same bytes as it has in memory. If a part fails after
`k` bytes, everything in front of it comes, its opening and these `k` bytes, and then the failure;
in memory the form has this failure. One of both is the case. -/
theorem streaming_loses_nothing (m : Multipart) :
    ((∀ f ∈ m.fields, ReadsThrough f) →
      m.toBytes = .ok m.written ∧ m.toBody.Delivers m.written .finished)
    ∧ (∀ earlier name part later k e, m.fields = earlier ++ (name, part) :: later →
      (∀ f ∈ earlier, ReadsThrough f) → part.content.toStream.FailsAfter k e →
      m.toBytes = .error e
        ∧ m.toBody.Delivers
          (earlier.flatMap (writtenPart m.boundary) ++ opening m.boundary name part
            ++ part.content.toStream.content.take k) (.failed e))
    ∧ ((∀ f ∈ m.fields, ReadsThrough f) ∨ ∃ earlier name part later k e,
      m.fields = earlier ++ (name, part) :: later ∧ (∀ f ∈ earlier, ReadsThrough f)
        ∧ part.content.toStream.FailsAfter k e) := by
  have hdelivers := m.toBody.delivers_yield
  refine ⟨fun h => ?_, fun earlier name part later k e hfields hearlier hpart => ?_,
    isFaultless_or_fails m.fields⟩
  · rw [yield_of_readsThrough m h] at hdelivers
    refine ⟨?_, hdelivers⟩
    rw [toBytes_eq_result, yield_of_readsThrough m h]
    rfl
  · rw [yield_of_failsAfter hfields hearlier hpart] at hdelivers
    refine ⟨?_, hdelivers⟩
    rw [toBytes_eq_result, yield_of_failsAfter hfields hearlier hpart]
    rfl

/-- A part that comes byte by byte. -/
def slowPart : Part := .stream [{ rest := Bytes.ofText "slow", pace := fun _ => some 0 }] none

/-- A part that fails behind its first two bytes. -/
def brokenPart : Part :=
  .stream [{ rest := Bytes.ofText "lost", failure := some (2, ⟨.brokenPipe, "broken"⟩) }] (some 4)

/-- A form with a part that fails, between two others. -/
def brokenForm : Multipart where
  boundary := ⟨"fedcba9876543210fedcba9876543210", by decide⟩
  fields := [("a", slowPart), ("b", brokenPart), ("c", .text "c")]

/-- A form that is read byte by byte. -/
def slowForm : Multipart := { brokenForm with fields := [("a", slowPart)] }

theorem slow_and_broken_forms_delivered :
    (slowForm.toBytes = .ok slowForm.written ∧ slowForm.toBody.Delivers slowForm.written .finished)
    ∧ brokenForm.toBytes = .error ⟨.brokenPipe, "broken"⟩
    ∧ brokenForm.toBody.Delivers (writtenPart brokenForm.boundary ("a", slowPart)
      ++ opening brokenForm.boundary "b" brokenPart ++ Bytes.ofText "lo")
      (.failed ⟨.brokenPipe, "broken"⟩) := by
  have hslow : ∀ f ∈ [("a", slowPart)], ReadsThrough f :=
    List.forall_mem_singleton.2 (Stream.isFaultless_cons.2
      ⟨fun _ _ hfailure => (nomatch hfailure), Stream.isFaultless_nil⟩)
  have hbroken : brokenPart.content.toStream.FailsAfter 2 ⟨.brokenPipe, "broken"⟩ :=
    .first rfl (by decide) []
  refine ⟨slowForm.streaming_loses_nothing.1 hslow, ?_⟩
  exact brokenForm.streaming_loses_nothing.2.1 [("a", slowPart)] "b" brokenPart
    [("c", .text "c")] 2 _ rfl hslow hbroken

end Multipart

end ApiClient
