import ApiClient.Body.Source

/-!
# ApiClient.Proofs.StreamReading

Streams that are read without an error.

A source with a place at which it fails is read without an error all the same if its bytes end in
front of that place. Of a stream of such sources (`Stream.IsFaultless`) nothing matters but the
bytes that are still to come (`Stream.content`): one read cuts a piece off their front, and a read
to the end gives all of them. How long the piece is is up to the source. It fits the buffer, and it
is empty only at the end.
-/

namespace ApiClient

namespace Source

/-- The bytes end in front of the place from which on reading fails. -/
def IsFaultless (s : Source) : Prop :=
  ∀ place e, s.failure = some (place, e) → s.position + s.rest.length < place

variable {s : Source}

theorem IsFaultless.fault?_eq (h : s.IsFaultless) : s.fault? = none := by
  unfold fault?
  cases hfailure : s.failure with
  | none => rfl
  | some failure =>
      have hplace := h _ _ hfailure
      simp only [Option.bind_some, ite_eq_right_iff, reduceCtorEq]
      omega

theorem IsFaultless.remaining_eq (h : s.IsFaultless) : s.remaining = s.rest.length := by
  unfold remaining
  cases hfailure : s.failure with
  | none => rfl
  | some failure =>
      have hplace := h _ _ hfailure
      dsimp only
      omega

/-- What was read does not come closer to the failure than the bytes do. -/
theorem IsFaultless.advance (h : s.IsFaultless) {n : Nat} (hn : n ≤ s.rest.length) :
    (s.advance n).IsFaultless := by
  intro place e hfailure
  have hplace := h place e hfailure
  simp only [Source.advance, List.length_drop]
  omega

/-- Reading to the end succeeds for the sources without a fault, and for no others. -/
theorem drain_failure_eq_none_iff : s.drain.2.1 = none ↔ s.IsFaultless := by
  constructor
  · intro h place e hfailure
    simp only [drain, fault?, Source.advance, remaining, hfailure, Option.bind_some,
      ite_eq_right_iff, reduceCtorEq, imp_false] at h
    omega
  · intro h
    exact (h.advance (Nat.le_of_eq h.remaining_eq)).fault?_eq

theorem IsFaultless.drain_eq (h : s.IsFaultless) :
    s.drain = (s.rest, none, s.advance s.rest.length) := by
  have hnone := drain_failure_eq_none_iff.2 h
  unfold drain at hnone ⊢
  dsimp only at hnone ⊢
  rw [hnone, h.remaining_eq, List.take_length]

theorem stride_le (s : Source) (n : Nat) : s.stride n ≤ n := by
  unfold stride
  refine Nat.le_trans (Nat.min_le_right _ _) ?_
  split
  · exact Nat.min_le_left _ _
  · exact Nat.le_refl n

theorem IsFaultless.stride_le_length (h : s.IsFaultless) (n : Nat) :
    s.stride n ≤ s.rest.length := by
  rw [← h.remaining_eq]
  exact Nat.min_le_left _ _

/-- As long as there are bytes, a read that asks for some gets some. -/
theorem IsFaultless.stride_pos (h : s.IsFaultless) {n : Nat} (hn : 0 < n) (hrest : s.rest ≠ []) :
    0 < s.stride n := by
  have hlength := List.length_pos_iff.2 hrest
  unfold stride
  rw [h.remaining_eq]
  split <;> omega

theorem IsFaultless.read_eq (h : s.IsFaultless) (n : Nat) :
    s.read n = (.ok (s.rest.take (s.stride n)), s.advance (s.stride n)) := by
  unfold read
  rw [h.fault?_eq]

end Source

namespace Stream

/-- No source of the stream fails in front of its end. -/
def IsFaultless (s : Stream) : Prop := ∀ source ∈ s, source.IsFaultless

/-- The bytes that are still to come, if no source fails. -/
def content (s : Stream) : Bytes := s.flatMap Source.rest

theorem isFaultless_nil : IsFaultless [] := fun _ h => absurd h List.not_mem_nil

theorem isFaultless_cons {source : Source} {rest : Stream} :
    IsFaultless (source :: rest) ↔ source.IsFaultless ∧ IsFaultless rest :=
  List.forall_mem_cons

/-- Sources that have no place of failure have no fault. -/
theorem isFaultless_of_failure_eq_none {s : Stream} (h : ∀ source ∈ s, source.failure = none) :
    s.IsFaultless := by
  intro source hsource place e hfailure
  rw [h source hsource] at hfailure
  cases hfailure

theorem isFaultless_ofBytes (bytes : Bytes) : (ofBytes bytes).IsFaultless :=
  isFaultless_of_failure_eq_none (List.forall_mem_singleton.2 rfl)

@[simp] theorem content_nil : content [] = [] := rfl

@[simp] theorem content_cons (source : Source) (rest : Stream) :
    content (source :: rest) = source.rest ++ content rest := List.flatMap_cons

theorem content_ofBytes (bytes : Bytes) : (ofBytes bytes).content = bytes := List.append_nil bytes

theorem IsFaultless.drain_eq {s : Stream} (h : s.IsFaultless) :
    s.drain = (s.content, none, []) := by
  induction s with
  | nil => rfl
  | cons source rest ih =>
      obtain ⟨hsource, hrest⟩ := isFaultless_cons.1 h
      rw [drain, hsource.drain_eq]
      dsimp only
      rw [ih hrest, content_cons]

theorem IsFaultless.readAll_eq {s : Stream} (h : s.IsFaultless) :
    s.readAll = (.ok s.content, []) := by
  rw [readAll, h.drain_eq]

/-- Reading to the end succeeds for the streams without a fault, and gives what they hold. -/
theorem readAll_eq_ok_iff {s : Stream} {bytes : Bytes} :
    s.readAll.1 = .ok bytes ↔ s.IsFaultless ∧ s.content = bytes := by
  constructor
  · intro h
    have hfaultless : s.IsFaultless := by
      have hnone : s.drain.2.1 = none := by
        unfold readAll at h
        rcases hdrain : s.drain with ⟨delivered, _ | e, left⟩
        · rfl
        · rw [hdrain] at h
          cases h
      clear h
      induction s with
      | nil => exact isFaultless_nil
      | cons source rest ih =>
          rw [drain] at hnone
          rcases hsource : source.drain with ⟨delivered, _ | e, left⟩
          · rw [hsource] at hnone
            exact isFaultless_cons.2 ⟨Source.drain_failure_eq_none_iff.1 (by rw [hsource]),
              ih hnone⟩
          · rw [hsource] at hnone
            cases hnone
    rw [hfaultless.readAll_eq] at h
    exact ⟨hfaultless, Except.ok.inj h⟩
  · rintro ⟨hfaultless, rfl⟩
    rw [hfaultless.readAll_eq]

/-- One read cuts a piece off the front of what is still to come. -/
theorem IsFaultless.read_cuts {s : Stream} (h : s.IsFaultless) (n : Nat) :
    ∃ piece left, s.read n = (.ok piece, left) ∧ left.IsFaultless
      ∧ s.content = piece ++ left.content
      ∧ piece.length ≤ n ∧ (0 < n → s.content ≠ [] → piece ≠ []) := by
  induction s with
  | nil => exact ⟨[], [], rfl, isFaultless_nil, rfl, Nat.zero_le n, fun _ hne => absurd rfl hne⟩
  | cons source rest ih =>
      obtain ⟨hsource, hrest⟩ := isFaultless_cons.1 h
      have hadvanced := hsource.advance (hsource.stride_le_length n)
      have hcontent : content (source :: rest) =
          source.rest.take (source.stride n) ++
            content (source.advance (source.stride n) :: rest) := by
        simp only [content_cons, Source.advance, ← List.append_assoc, List.take_append_drop]
      have hlength : (source.rest.take (source.stride n)).length ≤ n :=
        Nat.le_trans (List.length_take_le _ _) (source.stride_le n)
      rw [read, hsource.read_eq]
      cases hpiece : source.rest.take (source.stride n) with
      | cons b piece =>
          rw [hpiece] at hcontent hlength
          exact ⟨b :: piece, _, rfl, isFaultless_cons.2 ⟨hadvanced, hrest⟩, hcontent, hlength,
            fun _ _ => List.cons_ne_nil b piece⟩
      | nil =>
          dsimp only
          by_cases hn : n = 0
          · rw [hpiece] at hcontent
            rw [if_pos hn]
            exact ⟨[], _, rfl, isFaultless_cons.2 ⟨hadvanced, hrest⟩, hcontent, Nat.zero_le n,
              fun hpos => absurd hn (Nat.ne_of_gt hpos)⟩
          · -- A source that gives nothing to a read that asks for something is exhausted.
            have hexhausted : source.rest = [] := by
              refine Decidable.byContradiction fun hne => ?_
              have hpos := hsource.stride_pos (Nat.pos_of_ne_zero hn) hne
              rcases List.take_eq_nil_iff.1 hpiece with hzero | hnil
              · omega
              · exact hne hnil
            rw [if_neg hn, content_cons, hexhausted, List.nil_append]
            exact ih hrest

/-- If the bytes to come are those behind a place, one read moves the place forward. -/
theorem IsFaultless.read_at {s : Stream} (h : s.IsFaultless) {data : Bytes} {position : Nat}
    (hcontent : s.content = data.drop position) (n : Nat) : ∃ k left,
      s.read n = (.ok ((data.drop position).take k), left) ∧ left.IsFaultless
        ∧ left.content = data.drop (position + k) ∧ k ≤ n ∧ k ≤ data.length - position
        ∧ (0 < n → position < data.length → 0 < k) := by
  obtain ⟨piece, left, hread, hleft, hcut, hfits, hmoves⟩ := h.read_cuts n
  rw [hcontent] at hcut hmoves
  have hlength : piece.length ≤ data.length - position := by
    have hsum := congrArg List.length hcut
    rw [List.length_drop, List.length_append] at hsum
    omega
  refine ⟨piece.length, left, ?_, hleft, ?_, hfits, hlength, ?_⟩
  · rw [hcut, List.take_left, hread]
  · rw [← List.drop_drop, hcut, List.drop_left]
  · intro hn hposition
    refine List.length_pos_iff.2 (hmoves hn fun hnil => ?_)
    rw [List.drop_eq_nil_iff] at hnil
    omega

end Stream

end ApiClient
