import ApiClient.Body.Request
import ApiClient.Proofs.StreamReading

/-!
# ApiClient.Proofs.PartialReading

Bodies of which a part was read.

The content of a body is bytes in memory or a stream, and in both forms it has a place in some bytes
(`BodyContent.At`). One read moves that place forward by what it delivers, and so does a row of
reads. That holds of every kind of body that is read as its content is (`ReadsAs`).

Of a request's body, what is left behind the reads can be taken in three ways. Reading to the end
and reading a body of its own to the end give the bytes behind the place, in memory and from a
stream alike. The body as bytes is the exception: a stream gives what is left, and bytes in memory
give all they are, so that there the reads in front do not count.
-/

namespace ApiClient

/-! ### Places in bytes -/

section Places

variable {data : Bytes} {position : Nat}

/-- What there is room for moves a place forward, and not beyond the end. -/
theorem place_le (h : position ≤ data.length) (n : Nat) :
    position + ((data.drop position).take n).length ≤ data.length := by
  rw [List.length_take, List.length_drop]
  omega

/-- Only behind the first place there are all of the bytes. -/
theorem drop_eq_self_iff (h : position ≤ data.length) :
    data.drop position = data ↔ position = 0 := by
  constructor
  · intro hdrop
    have hlength := congrArg List.length hdrop
    rw [List.length_drop] at hlength
    omega
  · rintro rfl
    rfl

end Places

/-! ### Rows of reads -/

section Rows

variable {β : Type} {read : Nat → β → ReadResult Bytes × β} {content : β → BodyContent}

/-- What reads into buffers of these sizes deliver together, up to the first failure. -/
def readEach (read : Nat → β → ReadResult Bytes × β) : List Nat → β → ReadResult Bytes × β
  | [], b => (.ok [], b)
  | n :: sizes, b =>
    match read n b with
    | (.error e, left) => (.error e, left)
    | (.ok piece, left) =>
      ((readEach read sizes left).1.map (piece ++ ·), (readEach read sizes left).2)

/-- Bodies of this kind are read as their contents are. -/
def ReadsAs (read : Nat → β → ReadResult Bytes × β) (content : β → BodyContent) : Prop :=
  ∀ n b, (content b).read n = ((read n b).1, content (read n b).2)

theorem ReadsAs.readEach_content (h : ReadsAs read content) (sizes : List Nat) (b : β) :
    readEach BodyContent.read sizes (content b) =
      ((readEach read sizes b).1, content (readEach read sizes b).2) := by
  induction sizes generalizing b with
  | nil => rfl
  | cons n sizes ih =>
      rw [readEach, readEach, h n b]
      rcases read n b with ⟨_ | piece, left⟩
      · rfl
      · dsimp only
        rw [ih left]

end Rows

namespace BodyContent

/-! ### Places in the bytes of a body -/

/-- The content consists of the given bytes and was not read yet. -/
inductive MadeOf (data : Bytes) : BodyContent → Prop where
  /-- The bytes in memory. -/
  | inMemory : MadeOf data (bytes data 0)
  /-- A stream over the bytes that does not fail. -/
  | stream {source : Stream} (hfaultless : source.IsFaultless) (hcontent : source.content = data) :
      MadeOf data (stream source)

/-- The content stands at a place in the given bytes. -/
inductive At (data : Bytes) : BodyContent → Nat → Prop where
  /-- In memory all of the bytes are there. -/
  | inMemory {position : Nat} (hposition : position ≤ data.length) :
      At data (bytes data position) position
  /-- Of a stream there are those behind the place. -/
  | stream {source : Stream} {position : Nat} (hfaultless : source.IsFaultless)
      (hcontent : source.content = data.drop position) (hposition : position ≤ data.length) :
      At data (stream source) position

variable {data : Bytes} {c : BodyContent} {position : Nat}

theorem MadeOf.at_start (h : MadeOf data c) : At data c 0 := by
  cases h with
  | inMemory => exact .inMemory (Nat.zero_le _)
  | stream hfaultless hcontent =>
      exact .stream hfaultless (by rw [hcontent, List.drop_zero]) (Nat.zero_le _)

theorem At.le_length (h : At data c position) : position ≤ data.length := by
  cases h <;> assumption

/-- A read moves the place forward by what it delivers, and leaves the form of the content. -/
theorem At.read (h : At data c position) (n : Nat) : ∃ k left,
    c.read n = (.ok ((data.drop position).take k), left) ∧ At data left (position + k)
      ∧ left.data? = c.data? := by
  cases h with
  | inMemory hposition =>
      refine ⟨((data.drop position).take n).length, _, ?_, .inMemory (place_le hposition n), rfl⟩
      rw [BodyContent.read, List.length_take, ← List.take_eq_take_min]
  | @stream source _ hfaultless hcontent hposition =>
      obtain ⟨k, left, hread, hleft, hrest, -, hlength, -⟩ := hfaultless.read_at hcontent n
      refine ⟨k, .stream left, ?_, .stream hleft hrest (by omega), rfl⟩
      rw [BodyContent.read, hread]

/-- A row of reads moves the place forward by what it delivers. -/
theorem At.reads (h : At data c position) (sizes : List Nat) : ∃ k left,
    readEach BodyContent.read sizes c = (.ok ((data.drop position).take k), left)
      ∧ At data left (position + k) ∧ left.data? = c.data? := by
  induction sizes generalizing c position with
  | nil => exact ⟨0, c, by rw [readEach, List.take_zero], h, rfl⟩
  | cons n sizes ih =>
      obtain ⟨k, next, hpiece, hnext, hform⟩ := h.read n
      obtain ⟨k', left, hpieces, hleft, hform'⟩ := ih hnext
      refine ⟨k + k', left, ?_, by rwa [← Nat.add_assoc], hform'.trans hform⟩
      simp only [readEach, hpiece, hpieces, Except.map]
      rw [List.take_add, List.drop_drop]

theorem At.readAll (h : At data c position) : c.readAll.1 = .ok (data.drop position) := by
  cases h with
  | inMemory hposition => rfl
  | stream hfaultless hcontent hposition =>
      rw [BodyContent.readAll, hfaultless.readAll_eq, hcontent]

end BodyContent

/-- Reads of a body that is made of some bytes deliver a front of these, and the body stands behind
it. -/
theorem ReadsAs.reads {β : Type} {read : Nat → β → ReadResult Bytes × β} {content : β → BodyContent}
    (h : ReadsAs read content) {data : Bytes} {b : β} (hb : (content b).MadeOf data)
    (sizes : List Nat) : ∃ k left, readEach read sizes b = (.ok (data.take k), left)
      ∧ (content left).At data k ∧ (content left).data? = (content b).data? := by
  obtain ⟨k, left, hread, hleft, hform⟩ := hb.at_start.reads sizes
  rw [h.readEach_content, Prod.mk.injEq] at hread
  obtain ⟨hdelivered, rfl⟩ := hread
  rw [Nat.zero_add] at hleft
  exact ⟨k, _, Prod.ext hdelivered rfl, hleft, hform⟩

namespace RequestBody

/-- The content of the body, without the size that was declared of it. -/
def content : RequestBody → BodyContent
  | bytes data position => .bytes data position
  | stream source _ => .stream source

theorem readsAs_content : ReadsAs read content := by
  intro n b
  cases b <;> rfl

variable {data : Bytes} {b : RequestBody} {position : Nat}

theorem data?_content (b : RequestBody) : b.content.data? = b.data? := by cases b <;> rfl

theorem readAll_content (b : RequestBody) : b.content.readAll.1 = b.readAll.1 := by
  cases b with
  | bytes data position => rfl
  | stream source size =>
      rw [content, BodyContent.readAll, Stream.readAll, RequestBody.readAll, drain]
      rcases source.drain with ⟨delivered, _ | e, left⟩ <;> rfl

/-- A body with bytes of its own has the content of the lent one. -/
theorem content_toOwned (b : RequestBody) : b.toOwned.content = b.content := by cases b <;> rfl

/-- The place matters to the body as bytes only if it is a stream. -/
theorem toBytes_of_at (h : b.content.At data position) :
    b.toBytes = .ok (data.drop (if b.data?.isSome then 0 else position)) := by
  cases b with
  | bytes =>
      cases h with
      | inMemory hposition => rfl
  | stream =>
      cases h with
      | stream hfaultless hcontent hposition =>
          rw [RequestBody.toBytes, hfaultless.readAll_eq, hcontent]
          rfl

/-! ### What is left of a body -/

/-- Of a body that is made of some bytes, reads deliver a front, and read to the end, as it is or
with bytes of its own, the body gives what is behind that front. Taken as bytes it gives the same if
it is a stream. In memory it gives all of the bytes, which is the same only if nothing was read. -/
theorem partial_reads_leave_rest (h : b.content.MadeOf data) (sizes : List Nat) :
    ∃ k left, k ≤ data.length
      ∧ readEach RequestBody.read sizes b = (.ok (data.take k), left)
      ∧ left.readAll.1 = .ok (data.drop k)
      ∧ left.toOwned.readAll.1 = .ok (data.drop k)
      ∧ left.toBytes = .ok (data.drop (if b.data?.isSome then 0 else k))
      ∧ (left.toBytes = .ok (data.drop k) ↔ b.data? = none ∨ k = 0) := by
  obtain ⟨k, left, hread, hleft, hform⟩ := readsAs_content.reads h sizes
  rw [data?_content, data?_content] at hform
  have hrest : left.readAll.1 = .ok (data.drop k) := left.readAll_content ▸ hleft.readAll
  have howned : left.toOwned.readAll.1 = .ok (data.drop k) := by
    rw [← readAll_content, content_toOwned]
    exact hleft.readAll
  have htoBytes := toBytes_of_at hleft
  rw [hform] at htoBytes
  refine ⟨k, left, hleft.le_length, hread, hrest, howned, htoBytes, ?_⟩
  rw [htoBytes, Except.ok.injEq]
  cases hdata : b.data? with
  | none => simp
  | some whole =>
      rw [Option.isSome_some, if_pos rfl, List.drop_zero, eq_comm, drop_eq_self_iff hleft.le_length]
      simp

/-- Six letters from two sources, of which the first gives one letter at a time, with a wrong
size. -/
def slowLetters : RequestBody :=
  .stream [{ rest := Bytes.ofText "abc", pace := fun _ => some 0 }, .ofBytes (Bytes.ofText "def")]
    (some 99)

theorem slowLetters_madeOf : slowLetters.content.MadeOf (Bytes.ofText "abcdef") :=
  .stream (Stream.isFaultless_of_failure_eq_none (by simp [Source.ofBytes])) (by decide)

/-- Behind reads of two letters the four others are left, however they are taken. -/
theorem slow_letters_left : slowLetters.content.MadeOf (Bytes.ofText "abcdef") ∧ ∃ left,
    readEach RequestBody.read [4, 0, 4] slowLetters = (.ok (Bytes.ofText "ab"), left)
      ∧ left.readAll.1 = .ok (Bytes.ofText "cdef")
      ∧ left.toOwned.readAll.1 = .ok (Bytes.ofText "cdef")
      ∧ left.toBytes = .ok (Bytes.ofText "cdef") := by
  obtain ⟨k, left, hk, hread, hrest, howned, hbytes, -⟩ :=
    partial_reads_leave_rest slowLetters_madeOf [4, 0, 4]
  have hfront : (Bytes.ofText "abcdef").take k = Bytes.ofText "ab" :=
    (Except.ok.inj (congrArg Prod.fst hread)).symm
  obtain rfl : k = 2 := (List.length_take_of_le hk).symm.trans (congrArg List.length hfront)
  exact ⟨slowLetters_madeOf, left, hread, hrest, howned, hbytes⟩

/-- Not every body in memory gives the bytes behind its reads when it is taken as bytes. -/
theorem taken_bytes_start_over :
    ¬ ∀ (data : Bytes) (sizes : List Nat) (k : Nat) (left : RequestBody), k ≤ data.length →
      readEach RequestBody.read sizes (ofBytes data) = (.ok (data.take k), left) →
      left.toBytes = .ok (data.drop k) := by
  intro h
  have hdef : Except.ok (Bytes.ofText "abcdef") = (.ok (Bytes.ofText "cdef") : ReadResult Bytes) :=
    h (Bytes.ofText "abcdef") [2] 2 _ (by decide) rfl
  exact absurd (Except.ok.inj hdef) (by decide)

end RequestBody

end ApiClient
