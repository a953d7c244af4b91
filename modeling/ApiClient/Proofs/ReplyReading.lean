import ApiClient.Proofs.BufferedReading
import ApiClient.Proofs.StreamReading

/-!
# ApiClient.Proofs.ReplyReading

What the uses of one reply see, one after the other.

A reply is a tape: some bytes, a position in them, and whether the position can go back. `Reading`
is the run of a tape. A use sees a piece of the tape and moves the position; on a tape that was
buffered, going back and reading the whole body start from the beginning, and on any other tape they
stay where they are. `ResponseBody.Holds` ties a body to a tape. The body may be a stream or bytes
in memory, and a body that was not buffered is tied to the bytes that are still to come in either
form, so that the two forms have the same runs.

That a buffered body is in memory is no accident of a reply: there is no other way to mark a body
(`ResponseBody.Made`).
-/

namespace ApiClient

/-! ### The bodies that there can be -/

namespace ResponseBody

/-- A body that starts as a stream or as bytes, behind uses and bufferings. -/
inductive Made : ResponseBody → Prop where
  /-- The body of a stream. -/
  | ofStream (source : Stream) : Made (.ofStream source)
  /-- The body of given bytes. -/
  | ofBytes (data : Bytes) : Made (.ofBytes data)
  /-- What a use leaves. -/
  | used {b : ResponseBody} (use : BodyUse) (h : Made b) : Made (use.apply b)
  /-- What buffering leaves, whether it succeeds or not. -/
  | buffered {b : ResponseBody} (h : Made b) : Made b.buffer.2

theorem isBuffered_apply (use : BodyUse) (b : ResponseBody) :
    (use.apply b).isBuffered = b.isBuffered := by
  obtain ⟨_ | _, _⟩ := b <;> cases use <;> rfl

/-- Only a body in memory is marked as buffered. -/
theorem Made.isRepeatable {b : ResponseBody} (h : b.Made) (hbuffered : b.isBuffered = true) :
    b.IsRepeatable := by
  induction h with
  | ofStream source => cases hbuffered
  | ofBytes data => cases hbuffered
  | @used b use _ ih =>
      have hb := ih (by rwa [isBuffered_apply] at hbuffered)
      obtain ⟨content, marked⟩ := b
      cases content with
      | stream source => cases hb.2
      | bytes data position => cases use <;> exact ⟨hb.1, rfl⟩
  | @buffered b _ ih =>
      obtain ⟨content, marked⟩ := b
      cases content with
      | bytes data position => exact ⟨rfl, rfl⟩
      | stream source =>
          unfold buffer at hbuffered ⊢
          rcases h : source.readAll with ⟨_ | bytes, left⟩
          · -- The mark would be an old one, and a stream has none.
            simp only [h] at hbuffered
            exact absurd (ih hbuffered).2 Bool.false_ne_true
          · simp only [h]
            exact ⟨rfl, rfl⟩

end ResponseBody

/-! ### Uses of a reply -/

/-- One use of a reply. -/
inductive ReplyUse where
  /-- Going back to the start of the body. -/
  | rewind
  /-- A read of the body into a buffer of `n` bytes. -/
  | read (n : Nat)
  /-- Reading the whole body. -/
  | readBytes
  /-- Reading the whole body as text. -/
  | readText
  /-- Decoding the whole body. -/
  | decode (target : Expectation)

/-- What a use gives. -/
inductive Given where
  /-- Whether the position went back. -/
  | rewound (done : Bool)
  /-- The bytes of one read. -/
  | piece (result : ReadResult Bytes)
  /-- The whole body. -/
  | bytes (result : Except ClientError Bytes)
  /-- The whole body as text. -/
  | text (result : Except ClientError String)
  /-- What the whole body decodes into. -/
  | value (result : Except ClientError (Option Json))

namespace ReplyUse

/-- Uses a reply. -/
def run : ReplyUse → Reply → Given × Reply
  | rewind, r => (.rewound r.rewind.1, r.rewind.2)
  | read n, r => (.piece (r.response.body.read n).1, r.withBody (r.response.body.read n).2)
  | readBytes, r => (.bytes r.readBytes.1, r.readBytes.2)
  | readText, r => (.text r.readText.1, r.readText.2)
  | decode target, r => (.value (r.decode target).1, (r.decode target).2)

/-- Whether the use is for the whole body. -/
def IsWhole : ReplyUse → Prop
  | rewind | read _ => False
  | readBytes | readText | decode _ => True

/-- What the use gives if the bytes `seen` are what it sees of the body. -/
def shows (r : Reply) (seen : Bytes) : ReplyUse → Given
  | rewind => .rewound r.isBuffered
  | read _ => .piece (.ok seen)
  | readBytes => .bytes (.ok seen)
  | readText => .text (match Utf8.decode? seen with
    | some text => .ok text
    | none => .error (.ofIo .invalidText))
  | decode target => .value (Reply.decodeBytes r.codecs r.mediaType? target seen)

/-- On the tape `tape`, of which everything can be read `again` or not, the use sees a piece at one
position and moves to another. How much a single read sees is open, but it sees something unless it
asks for nothing or stands at the end. -/
inductive Sees (again : Bool) (tape : Bytes) : ReplyUse → Nat → Bytes → Nat → Prop where
  /-- Going back. -/
  | rewind (position : Nat) : Sees again tape rewind position [] (if again then 0 else position)
  /-- One read, of `k` bytes. -/
  | read {n k position : Nat} (hfits : k ≤ n) (hthere : k ≤ tape.length - position)
      (hmoves : 0 < n → position < tape.length → 0 < k) :
      Sees again tape (read n) position ((tape.drop position).take k) (position + k)
  /-- Reading all. -/
  | whole {use : ReplyUse} (h : use.IsWhole) (position : Nat) :
      Sees again tape use position (tape.drop (if again then 0 else position)) tape.length

end ReplyUse

/-- What uses see on a tape, one after the other, between two positions. -/
inductive Reading (again : Bool) (tape : Bytes) :
    List ReplyUse → Nat → List Bytes → Nat → Prop where
  /-- Nothing is used. -/
  | nil (position : Nat) : Reading again tape [] position [] position
  /-- A use goes on from where the one before it stopped. -/
  | cons {use : ReplyUse} {uses : List ReplyUse} {start next stop : Nat} {seen : Bytes}
      {pieces : List Bytes} (hsees : use.Sees again tape start seen next)
      (hrest : Reading again tape uses next pieces stop) :
      Reading again tape (use :: uses) start (seen :: pieces) stop

namespace Reply

/-- Uses a reply again and again. -/
def run (r : Reply) : List ReplyUse → List Given × Reply
  | [] => ([], r)
  | use :: rest => ((use.run r).1 :: ((use.run r).2.run rest).1, ((use.run r).2.run rest).2)

end Reply

namespace Reading

variable {again : Bool} {tape : Bytes} {uses : List ReplyUse} {start stop : Nat}
  {pieces : List Bytes}

theorem length_eq (h : Reading again tape uses start pieces stop) :
    pieces.length = uses.length := by
  induction h with
  | nil => rfl
  | cons _ _ ih => simp [ih]

/-- If nobody goes back, the pieces are the tape from the first position to the last, without a gap
and without an overlap. -/
theorem flatten_eq (h : Reading again tape uses start pieces stop)
    (hforward : again = false ∨ ∀ use ∈ uses, ∃ n, use = .read n) :
    tape.drop start = pieces.flatten ++ tape.drop stop := by
  induction h with
  | nil => rfl
  | @cons use uses start next stop seen pieces hsees _ ih =>
      have hrest :=
        ih (hforward.imp id fun hreads use hmem => hreads use (List.mem_cons_of_mem _ hmem))
      have hpiece : tape.drop start = seen ++ tape.drop next := by
        cases hsees with
        | read _ _ _ =>
            rw [← List.drop_drop]
            exact (List.take_append_drop _ _).symm
        | rewind _ =>
            obtain rfl | hreads := hforward
            · rfl
            · obtain ⟨n, hn⟩ := hreads .rewind List.mem_cons_self
              cases hn
        | whole hwhole _ =>
            obtain rfl | hreads := hforward
            · simp
            · obtain ⟨n, rfl⟩ := hreads use List.mem_cons_self
              exact hwhole.elim
      rw [hpiece, hrest, List.flatten_cons, List.append_assoc]

/-- Behind a use for the whole body nothing is left, as long as nobody goes back. -/
theorem drop_eq_nil (h : Reading false tape uses start pieces stop) {use : ReplyUse}
    (hmem : use ∈ uses) (hwhole : use.IsWhole) : tape.drop stop = [] := by
  -- From the end on the position stays there.
  have hend : ∀ {uses start pieces stop}, Reading false tape uses start pieces stop →
      tape.length ≤ start → tape.length ≤ stop := by
    intro uses start pieces stop h hstart
    have hflatten := h.flatten_eq (.inl rfl)
    rw [List.drop_eq_nil_of_le hstart] at hflatten
    exact List.drop_eq_nil_iff.1 (List.append_eq_nil_iff.1 hflatten.symm).2
  refine List.drop_eq_nil_of_le ?_
  induction h with
  | nil => exact absurd hmem List.not_mem_nil
  | cons hsees hrest ih =>
      rcases List.mem_cons.1 hmem with rfl | hmem
      · cases hsees with
        | rewind => exact hwhole.elim
        | read => exact hwhole.elim
        | whole => exact hend hrest (Nat.le_refl _)
      · exact ih hmem

/-- On a tape that can be read again, every use for the whole body sees all of it. -/
theorem eq_of_isWhole (h : Reading true tape uses start pieces stop) {use : ReplyUse} {seen : Bytes}
    (hmem : (use, seen) ∈ uses.zip pieces) (hwhole : use.IsWhole) : seen = tape := by
  induction h with
  | nil => exact absurd hmem List.not_mem_nil
  | cons hsees _ ih =>
      rw [List.zip_cons_cons, List.mem_cons] at hmem
      rcases hmem with heq | hmem
      · obtain ⟨rfl, rfl⟩ := Prod.mk.inj heq
        cases hsees with
        | rewind => exact hwhole.elim
        | read => exact hwhole.elim
        | whole => rfl
      · exact ih hmem

end Reading

/-! ### Bodies as tapes -/

namespace ResponseBody

/-- The body stands at a position of a tape. Bytes in memory are the tape itself if the position may
go back; otherwise it is enough that the same bytes are still to come. -/
def Holds (b : ResponseBody) (tape : Bytes) (position : Nat) : Prop :=
  match b.content with
  | .bytes data p => data.drop p = tape.drop position ∧ (b.isBuffered = true → data = tape)
  | .stream source =>
    b.isBuffered = false ∧ source.IsFaultless ∧ source.content = tape.drop position

variable {b : ResponseBody} {tape : Bytes} {position : Nat}

theorem Holds.read (h : b.Holds tape position) (n : Nat) : ∃ k left,
    b.read n = (.ok ((tape.drop position).take k), left) ∧ left.isBuffered = b.isBuffered
      ∧ left.Holds tape (position + k) ∧ k ≤ n ∧ k ≤ tape.length - position
      ∧ (0 < n → position < tape.length → 0 < k) := by
  obtain ⟨content, buffered⟩ := b
  cases content with
  | bytes data p =>
      obtain ⟨hrest, hdata⟩ := h
      refine ⟨min n (tape.length - position),
        ⟨.bytes data (p + ((data.drop p).take n).length), buffered⟩,
        ?_, rfl, ⟨?_, hdata⟩, Nat.min_le_left _ _, Nat.min_le_right _ _, by omega⟩
      · simp only [ResponseBody.read, BodyContent.read, hrest]
        rw [← List.length_drop, ← List.take_eq_take_min]
      · rw [← List.drop_drop, ← List.drop_drop, hrest, List.length_take, List.length_drop]
  | stream source =>
      obtain ⟨hbuffered, hfaultless, hcontent⟩ := h
      obtain ⟨k, left, hread, hleft, hrest, hfits, hlength, hmoves⟩ := hfaultless.read_at hcontent n
      refine ⟨k, ⟨.stream left, buffered⟩, ?_, rfl, ⟨hbuffered, hleft, hrest⟩, hfits,
        hlength, hmoves⟩
      simp only [ResponseBody.read, BodyContent.read, hread]

theorem Holds.readAll (h : b.Holds tape position) : ∃ left,
    b.readAll = (.ok (tape.drop position), left) ∧ left.isBuffered = b.isBuffered
      ∧ left.Holds tape tape.length := by
  obtain ⟨content, buffered⟩ := b
  cases content with
  | bytes data p =>
      obtain ⟨hrest, hdata⟩ := h
      refine ⟨⟨.bytes data data.length, buffered⟩, ?_, rfl, ?_, hdata⟩
      · simp only [ResponseBody.readAll, BodyContent.readAll, hrest]
      · rw [List.drop_length, List.drop_length]
  | stream source =>
      obtain ⟨hbuffered, hfaultless, hcontent⟩ := h
      refine ⟨⟨.stream [], buffered⟩, ?_, rfl, hbuffered, Stream.isFaultless_nil, ?_⟩
      · simp only [ResponseBody.readAll, BodyContent.readAll, hfaultless.readAll_eq, hcontent]
      · rw [List.drop_length, Stream.content_nil]

/-- A buffered body goes back. -/
theorem Holds.rewind (h : b.Holds tape position) (hbuffered : b.isBuffered = true) : ∃ left,
    b.rewind = (true, left) ∧ left.isBuffered = true ∧ left.Holds tape 0 := by
  obtain ⟨content, buffered⟩ := b
  cases content with
  | bytes data p =>
      refine ⟨⟨.bytes data 0, buffered⟩, rfl, hbuffered, ?_, h.2⟩
      rw [h.2 hbuffered]
  | stream source => exact absurd (h.1.symm.trans hbuffered) Bool.false_ne_true

end ResponseBody

/-! ### Uses of a reply as uses of a tape -/

namespace Reply

variable {r : Reply} {tape : Bytes} {position : Nat}

/-- A reply that was not buffered does not go back, and stays as it is. -/
theorem rewind_of_not_isBuffered (h : r.isBuffered = false) : r.rewind = (false, r) := by
  rw [rewind, if_neg (by simp [h])]

/-- In front of a use for the whole body the position is at the start, if it can go there. -/
theorem rewind_holds (h : r.response.body.Holds tape position) :
    r.rewind.1 = r.isBuffered ∧ ∃ body, r.rewind.2 = r.withBody body
      ∧ body.isBuffered = r.isBuffered
      ∧ body.Holds tape (if r.isBuffered then 0 else position) := by
  cases hbuffered : r.isBuffered with
  | false =>
      rw [rewind_of_not_isBuffered hbuffered]
      exact ⟨rfl, r.response.body, rfl, hbuffered, h⟩
  | true =>
      obtain ⟨left, hrewind, hmark, hholds⟩ := h.rewind hbuffered
      rw [rewind, if_pos hbuffered, hrewind]
      exact ⟨rfl, left, rfl, hmark, hholds⟩

/-- Reading the whole body sees the tape from where the position went. -/
theorem readBytes_holds (h : r.response.body.Holds tape position) : ∃ body,
    r.readBytes = (.ok (tape.drop (if r.isBuffered then 0 else position)), r.withBody body)
      ∧ body.isBuffered = r.isBuffered ∧ body.Holds tape tape.length := by
  obtain ⟨-, start, hstart, hmark, hholds⟩ := rewind_holds h
  obtain ⟨left, hread, hleft, hend⟩ := hholds.readAll
  refine ⟨left, ?_, hleft.trans hmark, hend⟩
  simp only [readBytes, hstart, withBody, hread]
  rfl

theorem readText_holds (h : r.response.body.Holds tape position) : ∃ body,
    r.readText = (match Utf8.decode? (tape.drop (if r.isBuffered then 0 else position)) with
        | some text => .ok text
        | none => .error (.ofIo .invalidText), r.withBody body)
      ∧ body.isBuffered = r.isBuffered ∧ body.Holds tape tape.length := by
  obtain ⟨-, start, hstart, hmark, hholds⟩ := rewind_holds h
  obtain ⟨left, hread, hleft, hend⟩ := hholds.readAll
  refine ⟨left, ?_, hleft.trans hmark, hend⟩
  simp only [readText, hstart, withBody, ResponseBody.readText, hread]
  cases Utf8.decode? (tape.drop (if r.isBuffered then 0 else position)) with
  | none => rfl
  | some text => rfl

end Reply

/-- Every use of a reply is a use of its tape, and changes the body and nothing else. -/
theorem ReplyUse.run_sees {r : Reply} {tape : Bytes} {position : Nat} (use : ReplyUse)
    (h : r.response.body.Holds tape position) : ∃ seen next body,
      use.Sees r.isBuffered tape position seen next
        ∧ use.run r = (use.shows r seen, r.withBody body)
        ∧ body.isBuffered = r.isBuffered ∧ body.Holds tape next := by
  cases use with
  | rewind =>
      obtain ⟨hdone, body, hbody, hmark, hholds⟩ := Reply.rewind_holds h
      refine ⟨[], _, body, .rewind position, ?_, hmark, hholds⟩
      rw [run, hdone, hbody, shows]
  | read n =>
      obtain ⟨k, body, hread, hmark, hholds, hfits, hthere, hmoves⟩ := h.read n
      refine ⟨_, _, body, .read hfits hthere hmoves, ?_, hmark, hholds⟩
      rw [run, hread, shows]
  | readBytes =>
      obtain ⟨body, hread, hmark, hholds⟩ := Reply.readBytes_holds h
      refine ⟨_, _, body, .whole (show IsWhole .readBytes from trivial) position, ?_, hmark, hholds⟩
      rw [run, hread, shows]
  | readText =>
      obtain ⟨body, hread, hmark, hholds⟩ := Reply.readText_holds h
      refine ⟨_, _, body, .whole (show IsWhole .readText from trivial) position, ?_, hmark, hholds⟩
      rw [run, hread, shows]
  | decode target =>
      obtain ⟨body, hread, hmark, hholds⟩ := Reply.readBytes_holds h
      have hdecode : r.decode target =
          (Reply.decodeBytes r.codecs r.mediaType? target
            (tape.drop (if r.isBuffered then 0 else position)), r.withBody body) := by
        rw [Reply.decode, hread]
        rfl
      refine ⟨_, _, body, .whole (show IsWhole (.decode target) from trivial) position, ?_,
        hmark, hholds⟩
      rw [run, hdecode, shows]

/-! ### Runs -/

/-- What a use shows depends on the reply for the mark of the body, the codecs and the headers
alone. -/
theorem ReplyUse.shows_withBody {r : Reply} {body : ResponseBody}
    (hmark : body.isBuffered = r.isBuffered) (seen : Bytes) (use : ReplyUse) :
    use.shows (r.withBody body) seen = use.shows r seen := by
  cases use with
  | rewind => exact congrArg Given.rewound hmark
  | _ => rfl

theorem ReplyUse.zipWith_shows_reads (r : Reply) {sizes : List Nat} {seen : List Bytes}
    (h : seen.length = sizes.length) :
    List.zipWith (fun use seen => ReplyUse.shows r seen use) (sizes.map .read) seen =
      seen.map (fun piece => .piece (.ok piece)) := by
  induction sizes generalizing seen with
  | nil => rw [List.length_eq_zero_iff.1 h]; rfl
  | cons n sizes ih =>
      obtain _ | ⟨piece, seen⟩ := seen
      · cases h
      · exact congrArg (Given.piece (.ok piece) :: ·) (ih (Nat.succ.inj h))

namespace Reply

variable {r : Reply} {tape : Bytes} {position : Nat}

/-- Every run of uses is a reading of the tape. -/
theorem run_reads (uses : List ReplyUse) (h : r.response.body.Holds tape position) : ∃ pieces stop,
    Reading r.isBuffered tape uses position pieces stop
      ∧ (r.run uses).1 = List.zipWith (fun use seen => use.shows r seen) uses pieces
      ∧ (r.run uses).2.isBuffered = r.isBuffered
      ∧ (r.run uses).2.response.body.Holds tape stop := by
  -- The reply changes with each use, but its mark, and what uses show of it, stay.
  induction uses generalizing r position with
  | nil => exact ⟨[], position, .nil position, rfl, rfl, h⟩
  | cons use rest ih =>
      obtain ⟨seen, next, body, hsees, hrun, hmark, hholds⟩ := use.run_sees h
      obtain ⟨pieces, stop, hreading, hanswers, hmarks, hend⟩ := ih (r := r.withBody body) hholds
      rw [show (r.withBody body).isBuffered = r.isBuffered from hmark] at hreading hmarks
      simp only [run, hrun, hanswers]
      refine ⟨seen :: pieces, stop, .cons hsees hreading, ?_, hmarks, hend⟩
      simp only [List.zipWith_cons_cons, ReplyUse.shows_withBody hmark]

theorem run_append (first second : List ReplyUse) : r.run (first ++ second) =
    ((r.run first).1 ++ ((r.run first).2.run second).1, ((r.run first).2.run second).2) := by
  induction first generalizing r with
  | nil => rfl
  | cons use rest ih => simp only [List.cons_append, run, ih]

end Reply

/-! ### The tape of a body -/

namespace ResponseBody

variable {b : ResponseBody} {content : Bytes}

/-- A body that was not buffered is at the start of what is left of it. -/
theorem holds_of_readAll (hread : b.readAll.1 = .ok content) (hbuffered : b.isBuffered = false) :
    b.Holds content 0 := by
  obtain ⟨source | ⟨data, position⟩, mark⟩ := b
  · obtain ⟨hfaultless, hcontent⟩ := Stream.readAll_eq_ok_iff.1 hread
    exact ⟨hbuffered, hfaultless, hcontent⟩
  · exact ⟨Except.ok.inj hread, fun h => absurd (hbuffered.symm.trans h) Bool.false_ne_true⟩

/-- A buffered body is somewhere in its bytes. -/
theorem Made.exists_holds (hmade : b.Made) (hbuffered : b.isBuffered = true) :
    ∃ data position, b.data? = some data ∧ b.Holds data position := by
  have hdata := (hmade.isRepeatable hbuffered).2
  obtain ⟨source | ⟨data, position⟩, mark⟩ := b
  · cases hdata
  · exact ⟨data, position, rfl, rfl, fun _ => rfl⟩

end ResponseBody

/-- How the uses of a reply whose body reads without an error see that body. One that was not
buffered they take in consecutive pieces, of which the last may still be to come; each use sees its
own piece, going back does nothing, and behind a use for the whole body there is nothing. Of one
that was buffered each use for the whole body sees all of it, and single reads go through it from
the start once somebody went back. -/
theorem Reply.uses_see_body (r : Reply) (content : Bytes) (uses : List ReplyUse)
    (hmade : r.response.body.Made) (hread : r.response.body.readAll.1 = .ok content) :
    (r.isBuffered = false →
      ∃ pieces left, pieces.length = uses.length
        ∧ content = pieces.flatten ++ left
        ∧ (r.run uses).1 = List.zipWith (fun use seen => use.shows r seen) uses pieces
        ∧ (∃ stop, Reading false content uses 0 pieces stop)
        ∧ (r.run uses).2.response.body.readAll.1 = .ok left
        ∧ (r.run uses).2.rewind = (false, (r.run uses).2)
        ∧ ((∃ use ∈ uses, use.IsWhole) → left = []))
      ∧ (r.isBuffered = true →
        ∃ data pieces, r.response.body.data? = some data ∧ pieces.length = uses.length
          ∧ (r.run uses).1 = List.zipWith (fun use seen => use.shows r seen) uses pieces
          ∧ (∃ start stop, Reading true data uses start pieces stop)
          ∧ (∀ use seen, (use, seen) ∈ uses.zip pieces → use.IsWhole → seen = data)
          ∧ ∀ sizes : List Nat, ∃ seen left, seen.length = sizes.length
            ∧ (r.run (uses ++ .rewind :: sizes.map .read)).1 =
              (r.run uses).1 ++ .rewound true :: seen.map (fun piece => .piece (.ok piece))
            ∧ data = seen.flatten ++ left
            ∧ ∃ stop, Reading true data (sizes.map .read) 0 seen stop) := by
  constructor
  · intro hbuffered
    have hholds := ResponseBody.holds_of_readAll hread hbuffered
    obtain ⟨pieces, stop, hreading, hanswers, hmark, hend⟩ := run_reads uses hholds
    rw [hbuffered] at hreading
    obtain ⟨_, hleft, -, -⟩ := hend.readAll
    refine ⟨pieces, content.drop stop, hreading.length_eq, hreading.flatten_eq (.inl rfl), hanswers,
      ⟨stop, hreading⟩, by rw [hleft], rewind_of_not_isBuffered (hmark.trans hbuffered), ?_⟩
    rintro ⟨use, hmem, hwhole⟩
    exact hreading.drop_eq_nil hmem hwhole
  · intro hbuffered
    obtain ⟨data, position, hdata, hholds⟩ := hmade.exists_holds hbuffered
    obtain ⟨pieces, stop, hreading, hanswers, hmark, hend⟩ := run_reads uses hholds
    rw [hbuffered] at hreading
    refine ⟨data, pieces, hdata, hreading.length_eq, hanswers, ⟨position, stop, hreading⟩,
      fun _ _ hmem hwhole => hreading.eq_of_isWhole hmem hwhole, fun sizes => ?_⟩
    -- Behind the way back the single reads are a run of their own, from the start of the same tape.
    obtain ⟨hdone, body, hbody, hkept, hback⟩ := rewind_holds hend
    rw [hmark, hbuffered, if_pos rfl] at hback
    rw [hmark, hbuffered] at hdone hkept
    obtain ⟨seen, stop', hreads, hshown, -, -⟩ :=
      run_reads (r := (r.run uses).2.withBody body) (sizes.map .read) hback
    rw [show ((r.run uses).2.withBody body).isBuffered = true from hkept] at hreads
    have hlength := hreads.length_eq
    rw [List.length_map] at hlength
    refine ⟨seen, data.drop stop', hlength, ?_, hreads.flatten_eq (.inr ?_), stop', hreads⟩
    · simp only [run_append, run, ReplyUse.run, hdone, hbody, hshown,
        ReplyUse.zipWith_shows_reads _ hlength]
    · intro use hmem
      obtain ⟨n, -, rfl⟩ := List.mem_map.1 hmem
      exact ⟨n, rfl⟩

/-- A reply that was buffered behind a read of its first byte. -/
def Reply.halfRead : Reply where
  response := {
    body := ((BodyUse.read 1).apply (.ofStream [{ rest := Bytes.ofText "abc" }])).buffer.2 }
  codecs := []

/-- What was read before the buffering does not come back, and everything else does. -/
theorem half_read_body_seen : ∃ piece, (Reply.halfRead.run [.read 1, .readBytes]).1 =
    [.piece (.ok piece), .bytes (.ok (Bytes.ofText "bc"))] := by
  obtain ⟨-, hbuffered⟩ := Reply.uses_see_body .halfRead (Bytes.ofText "bc") [.read 1, .readBytes]
    (.buffered (.used _ (.ofStream _))) rfl
  obtain ⟨data, pieces, hdata, hlength, hanswers, -, hwhole, -⟩ := hbuffered rfl
  obtain ⟨piece, seen, rfl⟩ := List.length_eq_two.1 hlength
  have hseen : seen = data := hwhole .readBytes seen (by simp) trivial
  have hcontent : data = Bytes.ofText "bc" := (Option.some.inj hdata).symm
  refine ⟨piece, ?_⟩
  rw [hanswers, hseen, hcontent]
  rfl

end ApiClient
