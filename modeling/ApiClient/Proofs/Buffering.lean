import ApiClient.Proofs.BufferedReading
import ApiClient.Proofs.PartialReading
import Mathlib.Algebra.GroupWithZero.Nat

/-!
# ApiClient.Proofs.Buffering

Which bytes of a response's body can be read again.

Behind a buffering the body is marked and in memory, and every use of it since leaves it so: going
back finds the same bytes, which reads then deliver from the first on, and buffering once more
changes nothing (`ResponseBody.Rereads`). Which bytes these are depends on where the body came from.
Of a stream they are those that were not read yet. Bytes that were in memory before are kept as they
are, with what was already read; the body only stands behind it until somebody goes back.
-/

namespace ApiClient.ResponseBody

/-! ### Bytes in memory -/

theorem readsAs_content : ReadsAs read content := fun _ _ => rfl

/-- A row of reads in memory delivers as many bytes as there is room for, or all that are left. -/
theorem readEach_bytes (sizes : List Nat) (data : Bytes) (position : Nat) (buffered : Bool) :
    (readEach read sizes ⟨.bytes data position, buffered⟩).1 =
      .ok ((data.drop position).take sizes.sum) := by
  induction sizes generalizing position with
  | nil => rfl
  | cons n sizes ih =>
      have hnext : data.drop (position + ((data.drop position).take n).length) =
          (data.drop position).drop n := by
        rw [← List.drop_drop, List.length_take, ← List.drop_eq_drop_min]
      simp only [readEach, read, BodyContent.read, ih, hnext, Except.map]
      rw [List.sum_cons, List.take_add]

/-- A body that can be read again and again, each time with these bytes. -/
structure Rereads (kept : Bytes) (b : ResponseBody) : Prop where
  /-- It is marked. -/
  isBuffered : b.isBuffered = true
  /-- The bytes are in memory. -/
  data?_eq : b.data? = some kept
  /-- Buffering it changes nothing. -/
  buffer_eq : b.buffer = (.ok (), b)
  /-- It goes back, and then any reads, and reading to the end, start with the first of the
  bytes. -/
  rewind_eq : ∃ start, b.rewind = (true, start) ∧ start.readAll.1 = .ok kept
    ∧ ∀ sizes : List Nat, (readEach read sizes start).1 = .ok (kept.take sizes.sum)

theorem rereads_bytes (kept : Bytes) (position : Nat) :
    Rereads kept ⟨.bytes kept position, true⟩ where
  isBuffered := rfl
  data?_eq := rfl
  buffer_eq := rfl
  rewind_eq := ⟨⟨.bytes kept 0, true⟩, rfl, rfl, fun sizes => readEach_bytes sizes kept 0 true⟩

/-- Uses move the position in the bytes. -/
theorem rereads_after (kept : Bytes) (position : Nat) (uses : List BodyUse) :
    Rereads kept (after ⟨.bytes kept position, true⟩ uses) := by
  obtain ⟨p, hp⟩ := after_bytes uses kept position true
  rw [hp]
  exact rereads_bytes kept p

/-! ### Bodies that are buffered -/

variable {data : Bytes} {b : ResponseBody} {position : Nat}

/-- Buffering takes the bytes behind the place from a stream, and all of them if they are in memory.
In both forms the body goes on where it stood. -/
theorem buffer_of_at (h : b.content.At data position) : ∃ kept p,
    b.buffer = (.ok (), ⟨.bytes kept p, true⟩)
      ∧ kept = data.drop (if b.data?.isSome then 0 else position)
      ∧ kept.drop p = data.drop position := by
  obtain ⟨content, marked⟩ := b
  cases h with
  | inMemory hposition => exact ⟨data, position, rfl, rfl, rfl⟩
  | stream hfaultless hcontent hposition =>
      refine ⟨data.drop position, 0, ?_, rfl, rfl⟩
      simp only [ResponseBody.buffer, hfaultless.readAll_eq, hcontent]

/-! ### What a buffering keeps -/

/-- A body that is made of some bytes can be buffered behind any reads. It goes on where the reads
stopped, and from then on it can be read again and again, whatever uses there are in between. What
is read again are the bytes that were not read before the buffering if the body was a stream. Of
bytes that were in memory all are read again, which are the same only if none was read before. -/
theorem buffering_keeps_rest (h : b.content.MadeOf data) (sizes : List Nat) :
    ∃ k left buffered, k ≤ data.length
      ∧ readEach ResponseBody.read sizes b = (.ok (data.take k), left)
      ∧ left.buffer = (.ok (), buffered)
      ∧ buffered.readAll.1 = .ok (data.drop k)
      ∧ (∀ uses : List BodyUse,
        Rereads (data.drop (if b.data?.isSome then 0 else k)) (buffered.after uses))
      ∧ (buffered.data? = some (data.drop k) ↔ b.data? = none ∨ k = 0) := by
  obtain ⟨k, left, hread, hleft, hform⟩ := readsAs_content.reads h sizes
  obtain ⟨kept, p, hbuffer, hkept, hrest⟩ := buffer_of_at hleft
  have hform : left.data? = b.data? := hform
  rw [hform] at hkept
  subst hkept
  refine ⟨k, left, _, hleft.le_length, hread, hbuffer, congrArg Except.ok hrest,
    fun uses => rereads_after _ p uses, ?_⟩
  rw [(rereads_bytes _ p).data?_eq, Option.some.injEq]
  cases hdata : b.data? with
  | none => simp
  | some whole =>
      rw [Option.isSome_some, if_pos rfl, List.drop_zero, eq_comm, drop_eq_self_iff hleft.le_length]
      simp

/-- A greeting that comes in pieces of at most four bytes. -/
def slowGreeting : ResponseBody :=
  .ofStream [{ rest := Bytes.ofText "Hello, world", pace := fun _ => some 3 }]

theorem slowGreeting_madeOf : slowGreeting.content.MadeOf (Bytes.ofText "Hello, world") :=
  .stream (Stream.isFaultless_of_failure_eq_none (by simp)) (by decide)

/-- Buffered behind its first seven bytes, the greeting is the world from then on. -/
theorem slow_greeting_buffered : slowGreeting.content.MadeOf (Bytes.ofText "Hello, world")
    ∧ ∃ left buffered,
      readEach ResponseBody.read [9, 3] slowGreeting = (.ok (Bytes.ofText "Hello, "), left)
      ∧ left.buffer = (.ok (), buffered)
      ∧ ∀ uses : List BodyUse, Rereads (Bytes.ofText "world") (buffered.after uses) := by
  obtain ⟨k, left, buffered, hk, hread, hbuffer, -, hrereads, -⟩ :=
    buffering_keeps_rest slowGreeting_madeOf [9, 3]
  have hfront : (Bytes.ofText "Hello, world").take k = Bytes.ofText "Hello, " :=
    (Except.ok.inj (congrArg Prod.fst hread)).symm
  obtain rfl : k = 7 := (List.length_take_of_le hk).symm.trans (congrArg List.length hfront)
  exact ⟨slowGreeting_madeOf, left, buffered, hread, hbuffer, hrereads⟩

/-- Not every buffering keeps what was not read alone: bytes that were in memory come back whole. -/
theorem read_bytes_come_back :
    ¬ ∀ (data : Bytes) (sizes : List Nat) (k : Nat) (left buffered : ResponseBody),
      k ≤ data.length →
      readEach ResponseBody.read sizes (ofBytes data) = (.ok (data.take k), left) →
      left.buffer = (.ok (), buffered) → buffered.data? = some (data.drop k) := by
  intro h
  have hworld : some (Bytes.ofText "Hello, world") = some (Bytes.ofText "world") :=
    h (Bytes.ofText "Hello, world") [7] 7 _ _ (by decide) rfl rfl
  exact absurd hworld (by decide)

end ApiClient.ResponseBody
