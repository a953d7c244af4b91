import ApiClient.Body.Request
import ApiClient.Proofs.StreamReading

/-!
# ApiClient.Proofs.ReadSchedule

What a body delivers into any row of buffers.

Reading to the end has a yield: the bytes that come, and the failure behind them if there is one.
One read that asks for something takes a piece off the front of the yield (`Yield.Step`), whatever
paces the sources of a stream have and wherever one of them ends. So a row of reads delivers the
yield from its front on, without a gap, and meets its end or its failure as soon as there are more
buffers than bytes (`RequestBody.delivers_yield`).

The yield of a chain is computed from those of its links. It is the content of a stream if no source
fails, and the front of the content up to the place of the failure otherwise (`Stream.FailsAfter`).
-/

namespace ApiClient

/-! ### Yields -/

/-- What reading to the end gives. -/
structure Yield where
  /-- The bytes that are delivered. -/
  bytes : Bytes
  /-- The failure behind them. -/
  failure : Option IoError

namespace Yield

/-- The yield without bytes and without a failure. -/
def nothing : Yield := ⟨[], none⟩

/-- The yield of a chain of two: a failure of the first hides the second. -/
def andThen (y z : Yield) : Yield :=
  match y.failure with
  | some e => ⟨y.bytes, some e⟩
  | none => ⟨y.bytes ++ z.bytes, z.failure⟩

/-- All bytes at once. A failure loses what was delivered before it. -/
def result (y : Yield) : ReadResult Bytes :=
  match y.failure with
  | some e => .error e
  | none => .ok y.bytes

/-- One read that asks for something: the yield in front of it, its result, and the yield behind
it. -/
inductive Step : Yield → ReadResult Bytes → Yield → Prop where
  /-- At the end there is nothing. -/
  | finished : Step nothing (.ok []) nothing
  /-- At the failure the read fails, and so does the next one. -/
  | failed (e : IoError) : Step ⟨[], some e⟩ (.error e) ⟨[], some e⟩
  /-- Anywhere else the read takes a piece off the front. -/
  | piece {front : Bytes} (hne : front ≠ []) (behind : Bytes) (failure : Option IoError) :
      Step ⟨front ++ behind, failure⟩ (.ok front) ⟨behind, failure⟩

@[simp] theorem nothing_andThen (y : Yield) : nothing.andThen y = y := rfl

@[simp] theorem ok_andThen (bytes : Bytes) (y : Yield) :
    (⟨bytes, none⟩ : Yield).andThen y = ⟨bytes ++ y.bytes, y.failure⟩ := rfl

@[simp] theorem failed_andThen (bytes : Bytes) (e : IoError) (y : Yield) :
    (⟨bytes, some e⟩ : Yield).andThen y = ⟨bytes, some e⟩ := rfl

theorem andThen_assoc (x y z : Yield) : (x.andThen y).andThen z = x.andThen (y.andThen z) := by
  obtain ⟨_, _ | e⟩ := x
  · obtain ⟨_, _ | e⟩ := y
    · simp
    · simp
  · rfl

end Yield

/-! ### Sources -/

namespace Source

/-- What the source still has to give. -/
def yield (s : Source) : Yield := ⟨s.drain.1, s.drain.2.1⟩

theorem IsFaultless.yield_eq {s : Source} (h : s.IsFaultless) : s.yield = ⟨s.rest, none⟩ := by
  rw [yield, h.drain_eq]

/-- At the place of its failure a source yields the failure alone. -/
theorem yield_of_fault {s : Source} {e : IoError} (h : s.fault? = some e) :
    s.yield = ⟨[], some e⟩ := by
  have hremaining : s.remaining = 0 := by
    unfold fault? at h
    unfold remaining
    cases hfailure : s.failure with
    | none => simp [hfailure] at h
    | some failure =>
        simp only [hfailure, Option.bind_some, Option.ite_none_right_eq_some] at h
        dsimp only
        omega
  unfold yield drain
  rw [hremaining]
  exact congrArg (Yield.mk []) h

/-- A source that fails within its bytes yields those in front of that place. -/
theorem yield_of_failure {s : Source} {place : Nat} {e : IoError}
    (hfailure : s.failure = some (place, e)) (hplace : place ≤ s.position + s.rest.length) :
    s.yield = ⟨s.rest.take (place - s.position), some e⟩ := by
  have hremaining : s.remaining = place - s.position := by
    unfold remaining
    rw [hfailure]
    dsimp only
    omega
  have hfault : (s.advance s.remaining).fault? = some e := by
    rw [hremaining]
    simp only [fault?, advance, hfailure, Option.bind_some]
    rw [if_pos (by omega)]
  unfold yield drain
  dsimp only
  rw [hfault, hremaining]

theorem isFaultless_or_failure (s : Source) : s.IsFaultless
    ∨ ∃ place e, s.failure = some (place, e) ∧ place ≤ s.position + s.rest.length := by
  cases hfailure : s.failure with
  | none => exact .inl fun _ _ h => by rw [hfailure] at h; cases h
  | some failure =>
      by_cases hplace : failure.1 ≤ s.position + s.rest.length
      · exact .inr ⟨failure.1, failure.2, rfl, hplace⟩
      · refine .inl fun place e h => ?_
        rw [hfailure] at h
        obtain rfl := Option.some.inj h
        exact Nat.lt_of_not_le hplace

/-- What a read delivers is the front of what is to come. -/
theorem drain_advance {s : Source} {n : Nat} (hn : n ≤ s.remaining) :
    s.yield = ⟨s.rest.take n ++ (s.advance n).yield.bytes, (s.advance n).yield.failure⟩ := by
  have hleft : (s.advance n).remaining = s.remaining - n := by
    simp only [remaining, advance, List.length_drop]
    cases s.failure with
    | none => rfl
    | some failure =>
        dsimp only
        omega
  have hbehind : (s.advance n).advance (s.remaining - n) = s.advance s.remaining := by
    simp only [advance, List.drop_drop]
    rw [show n + (s.remaining - n) = s.remaining by omega,
      show s.position + n + (s.remaining - n) = s.position + s.remaining by omega]
  have htake : s.rest.take s.remaining =
      s.rest.take n ++ (s.advance n).rest.take (s.remaining - n) := by
    rw [advance, ← List.take_add, show n + (s.remaining - n) = s.remaining by omega]
  unfold yield drain
  dsimp only
  rw [hleft, hbehind, htake]

theorem remaining_le_length (s : Source) : s.remaining ≤ s.rest.length := by
  unfold remaining
  cases s.failure with
  | none => exact Nat.le_refl _
  | some failure => exact Nat.min_le_left _ _

/-- **One read of a source.** -/
theorem read_step (s : Source) {n : Nat} (hn : 0 < n) :
    s.yield.Step (s.read n).1 (s.read n).2.yield := by
  unfold read
  cases hfault : s.fault? with
  | some e =>
      rw [yield_of_fault hfault]
      exact .failed e
  | none =>
      have hstride : s.stride n ≤ s.remaining := Nat.min_le_left _ _
      have hcut := drain_advance hstride
      dsimp only
      by_cases hzero : s.remaining = 0
      · -- Nothing remains, and that is the end and not the place of the failure.
        have hnone : s.stride n = 0 := by omega
        have hyield : s.yield = .nothing := by
          unfold yield drain
          rw [hzero]
          exact congrArg (Yield.mk []) hfault
        have hleft : (s.advance 0).yield = .nothing := hyield
        rw [hnone, hyield, hleft]
        exact .finished
      · have hlength := s.remaining_le_length
        have hpos : 0 < s.stride n := by
          unfold stride
          split <;> omega
        rw [hcut]
        refine .piece (fun hnil => ?_) _ _
        rcases List.take_eq_nil_iff.1 hnil with h | h
        · omega
        · rw [h] at hlength
          exact hzero (Nat.le_zero.1 hlength)

end Source

/-! ### Streams -/

namespace Stream

/-- What the stream still has to give. -/
def yield (s : Stream) : Yield := ⟨s.drain.1, s.drain.2.1⟩

theorem yield_cons (source : Source) (rest : Stream) :
    yield (source :: rest) = source.yield.andThen rest.yield := by
  simp only [yield, drain, Source.yield]
  rcases source.drain with ⟨bytes, _ | e, left⟩
  · rfl
  · rfl

theorem yield_append (s t : Stream) : yield (s ++ t) = s.yield.andThen t.yield := by
  induction s with
  | nil => rfl
  | cons source rest ih => rw [List.cons_append, yield_cons, yield_cons, ih, Yield.andThen_assoc]

theorem readAll_eq_result (s : Stream) : s.readAll.1 = s.yield.result := by
  unfold readAll Yield.result yield
  rcases s.drain with ⟨bytes, _ | e, left⟩
  · rfl
  · rfl

theorem IsFaultless.yield_eq {s : Stream} (h : s.IsFaultless) : s.yield = ⟨s.content, none⟩ := by
  rw [yield, h.drain_eq]

theorem yield_ofBytes (bytes : Bytes) : (ofBytes bytes).yield = ⟨bytes, none⟩ := by
  have hfaultless : IsFaultless (ofBytes bytes) :=
    isFaultless_cons.2 ⟨fun _ _ hfailure => (nomatch hfailure), isFaultless_nil⟩
  rw [hfaultless.yield_eq]
  exact congrArg (Yield.mk · none) (List.append_nil bytes)

/-- Reads deliver the first `k` bytes of the stream, and fail there. -/
inductive FailsAfter : Stream → Nat → IoError → Prop where
  /-- The first source fails within its bytes. -/
  | first {source : Source} {place : Nat} {e : IoError}
      (hfailure : source.failure = some (place, e))
      (hplace : place ≤ source.position + source.rest.length) (rest : Stream) :
      FailsAfter (source :: rest) (place - source.position) e
  /-- The first source is read to its end, and the rest fails. -/
  | later {source : Source} {rest : Stream} {k : Nat} {e : IoError} (hsource : source.IsFaultless)
      (h : FailsAfter rest k e) : FailsAfter (source :: rest) (source.rest.length + k) e

theorem FailsAfter.yield_eq {s : Stream} {k : Nat} {e : IoError} (h : s.FailsAfter k e) :
    s.yield = ⟨s.content.take k, some e⟩ := by
  induction h with
  | first hfailure hplace rest =>
      rw [yield_cons, Source.yield_of_failure hfailure hplace, Yield.failed_andThen, content_cons,
        List.take_append_of_le_length (by omega)]
  | @later source rest k e hsource _ ih =>
      rw [yield_cons, hsource.yield_eq, Yield.ok_andThen, ih, content_cons,
        List.take_length_add_append]

theorem isFaultless_or_failsAfter (s : Stream) : s.IsFaultless ∨ ∃ k e, s.FailsAfter k e := by
  induction s with
  | nil => exact .inl isFaultless_nil
  | cons source rest ih =>
      rcases source.isFaultless_or_failure with hsource | ⟨place, e, hfailure, hplace⟩
      · rcases ih with hrest | ⟨k, e, h⟩
        · exact .inl (isFaultless_cons.2 ⟨hsource, hrest⟩)
        · exact .inr ⟨_, e, .later hsource h⟩
      · exact .inr ⟨_, e, .first hfailure hplace rest⟩

/-- **One read of a stream.** Sources that are exhausted are left behind. -/
theorem read_step (s : Stream) {n : Nat} (hn : 0 < n) :
    s.yield.Step (s.read n).1 (s.read n).2.yield := by
  induction s with
  | nil => exact .finished
  | cons source rest ih =>
      have hsource := source.read_step hn
      rw [yield_cons, read]
      rcases hread : source.read n with ⟨result, left⟩
      rw [hread] at hsource
      dsimp only at hsource
      generalize hbefore : source.yield = before at hsource
      generalize hbehind : left.yield = behind at hsource
      -- A source at its end passes the read on; otherwise its own step is that of the stream.
      cases hsource with
      | finished => simpa only [Yield.nothing_andThen, Nat.ne_of_gt hn, if_false] using ih
      | failed e =>
          dsimp only
          rw [yield_cons, hbehind]
          exact .failed e
      | @piece front hne more failure =>
          obtain ⟨b, front, rfl⟩ := List.exists_cons_of_ne_nil hne
          dsimp only
          rw [yield_cons, hbehind]
          cases failure with
          | none =>
              rw [Yield.ok_andThen, Yield.ok_andThen, List.append_assoc]
              exact .piece hne _ _
          | some e => exact .piece hne _ _

end Stream

/-! ### Bodies of requests -/

/-- How a row of reads stops. -/
inductive Halt where
  /-- The buffers were used up first. -/
  | unfinished
  /-- A read met the end. -/
  | finished
  /-- A read failed. -/
  | failed (e : IoError)

/-- How reads of a yield stop if there are buffers enough. -/
def Yield.halt (y : Yield) : Halt :=
  match y.failure with
  | some e => .failed e
  | none => .finished

namespace RequestBody

/-- What the body still has to give. -/
def yield (b : RequestBody) : Yield := ⟨b.drain.1, b.drain.2.1⟩

theorem yield_stream (source : Stream) (size : Option Nat) :
    (stream source size).yield = source.yield :=
  rfl

/-- **One read of a body.** -/
theorem read_step (b : RequestBody) {n : Nat} (hn : 0 < n) :
    b.yield.Step (b.read n).1 (b.read n).2.yield := by
  cases b with
  | stream source size => exact source.read_step hn
  | bytes data position =>
      have hbehind : ((bytes data position).read n).2.yield =
          ⟨(data.drop position).drop ((data.drop position).take n).length, none⟩ := by
        rw [List.drop_drop]
        rfl
      have hbefore : (bytes data position).yield = ⟨data.drop position, none⟩ := rfl
      rw [hbehind, hbefore]
      by_cases hend : data.drop position = []
      · simp only [read, hend, List.take_nil, List.drop_nil]
        exact .finished
      · have hcut : data.drop position =
            (data.drop position).take n ++
              (data.drop position).drop ((data.drop position).take n).length := by
          rw [List.length_take, ← List.drop_eq_drop_min, List.take_append_drop]
        have hpiece : (data.drop position).take n ≠ [] := by
          simp only [ne_eq, List.take_eq_nil_iff, hend, or_false]
          omega
        have hstep := Yield.Step.piece hpiece
          ((data.drop position).drop ((data.drop position).take n).length) none
        rwa [← hcut] at hstep

/-- What reads into a row of buffers deliver up to the end or a failure, and how they stop. -/
def readRow : List Nat → RequestBody → Bytes × Halt
  | [], _ => ([], .unfinished)
  | n :: buffers, b =>
    match b.read n with
    | (.error e, _) => ([], .failed e)
    | (.ok [], _) => ([], .finished)
    | (.ok piece, left) => (piece ++ (readRow buffers left).1, (readRow buffers left).2)

/-- Into every row of buffers that can hold something the body delivers these bytes in their order,
and then stops in this way. A row that is too short has a byte at least for each of its buffers. -/
def Delivers (b : RequestBody) (bytes : Bytes) (halt : Halt) : Prop :=
  ∀ buffers : List Nat, (∀ n ∈ buffers, 0 < n) → b.readRow buffers = (bytes, halt)
    ∨ (b.readRow buffers).2 = .unfinished ∧ (b.readRow buffers).1 <+: bytes
      ∧ buffers.length ≤ (b.readRow buffers).1.length

/-- **A row of reads delivers what the body yields.** -/
theorem delivers_yield (b : RequestBody) : b.Delivers b.yield.bytes b.yield.halt := by
  intro buffers hpos
  induction buffers generalizing b with
  | nil => exact .inr ⟨rfl, List.nil_prefix, Nat.le_refl 0⟩
  | cons n buffers ih =>
      obtain ⟨hn, hbuffers⟩ := List.forall_mem_cons.1 hpos
      have hstep := b.read_step hn
      rw [readRow]
      rcases hread : b.read n with ⟨result, left⟩
      rw [hread] at hstep
      dsimp only at hstep
      have hrest := ih left hbuffers
      generalize b.yield = before at hstep
      generalize left.yield = behind at hstep hrest
      cases hstep with
      | finished => exact .inl rfl
      | failed e => exact .inl rfl
      | @piece front hne more failure =>
          obtain ⟨c, front, rfl⟩ := List.exists_cons_of_ne_nil hne
          dsimp only
          rcases hrest with hall | ⟨hhalt, hprefix, hlength⟩
          · rw [hall]
            exact .inl rfl
          · refine .inr ⟨hhalt, (List.prefix_append_right_inj _).2 hprefix, ?_⟩
            simp only [List.length_cons, List.length_append]
            omega

end RequestBody

end ApiClient
