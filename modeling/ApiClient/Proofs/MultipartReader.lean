import ApiClient.Http.MediaType
import ApiClient.Proofs.AsciiText
import Mathlib.Data.List.Basic

/-!
# ApiClient.Proofs.MultipartReader

A reader of multipart bodies, as RFC 2046 describes them.

A body is a preamble, parts with a delimiter ahead of each, a closing delimiter and an epilogue. A
delimiter is a line end, two hyphens and the boundary; the one at the very start of a body needs no
line end. Bodies are cut at the delimiters first, wherever one stands: a line end may belong to the
line before it and to a delimiter. What is found between two delimiters is a head of header lines,
an empty line and a content. A line that starts with a blank belongs to the one before it, and what
has no empty line is all head.

`write` is the other direction. It says which bytes stand for a list of parts, and `read_write` that
reading them gives the parts again, if they are well-formed: their header lines are single lines
with a name, no content holds the delimiter, and neither a content nor a header line starts with two
hyphens and the boundary.
-/

namespace ApiClient.Mime

/-! ### Marks

A mark whose first byte stands nowhere else in it cannot overlap itself. So it is found where it was
written, whatever part of it the text before it ends with. -/

theorem dropInfix?_append {b : UInt8} {tail text : Bytes} (hfresh : b ∉ tail)
    (hfree : ¬ b :: tail <:+: text) (rest : Bytes) :
    (text ++ (b :: tail) ++ rest).dropInfix? (b :: tail) = some (text, rest) := by
  rw [List.dropInfix?_eq_some_iff]
  refine ⟨⟨b :: tail, rfl, beq_self_eq_true _⟩, ?_⟩
  -- The mark stands behind the text; it remains that no earlier place has one.
  intro before mark behind hsplit hmark
  obtain rfl : mark = b :: tail := eq_of_beq hmark
  rw [List.append_assoc, List.append_assoc] at hsplit
  rcases List.append_eq_append_iff.1 hsplit with ⟨more, rfl, -⟩ | ⟨more, rfl, hmore⟩
  · rw [List.length_append]
    exact Nat.le_add_right _ _
  · cases more with
    | nil => exact Nat.le_of_eq (by rw [List.append_nil])
    | cons c more =>
        -- The mark starts inside the text, so the text holds all of it, or the mark behind the
        -- text starts inside this one.
        obtain ⟨rfl, hinside⟩ := List.cons.inj hmore
        exfalso
        rcases List.append_eq_append_iff.1 hinside with ⟨left, rfl, -⟩ | ⟨left, rfl, hleft⟩
        · exact hfree ⟨before, left, by simp⟩
        · cases left with
          | nil => exact hfree ⟨before, [], by simp⟩
          | cons d left =>
              obtain ⟨rfl, -⟩ := List.cons.inj hleft
              exact hfresh (List.mem_append_right _ List.mem_cons_self)

theorem length_of_dropInfix? {mark bytes before behind : Bytes}
    (h : bytes.dropInfix? mark = some (before, behind)) :
    bytes.length = before.length + mark.length + behind.length := by
  obtain ⟨⟨found, rfl, hfound⟩, -⟩ := List.dropInfix?_eq_some_iff.1 h
  rw [eq_of_beq hfound, List.length_append, List.length_append]

/-! ### Lines -/

/-- The end of a line. -/
def lineEnd : Bytes := [0x0d, 0x0a]

/-- The bytes stand in a single line. -/
def Unbroken (bytes : Bytes) : Prop := ¬ lineEnd <:+: bytes

theorem unbroken_of_not_mem {b : UInt8} {bytes : Bytes} (hb : b ∈ lineEnd) (h : b ∉ bytes) :
    Unbroken bytes := fun hbreak => h (hbreak.subset hb)

theorem unbroken_nil : Unbroken [] := by simp [Unbroken, lineEnd]

/-- A line goes on unless a carriage return comes first and a line feed next. -/
theorem Unbroken.append {front back : Bytes} (hfront : Unbroken front) (hback : Unbroken back)
    (hseam : 0x0d ∉ front ∨ back.head? ≠ some 0x0a) : Unbroken (front ++ back) := by
  intro hbreak
  rcases List.infix_append_iff_ne_nil.1 hbreak
    with h | h | ⟨first, second, hne, hne', hsplit, hf, hb⟩
  · exact hfront h
  · exact hback h
  · -- The line end has two bytes, so one stands on either side of the seam.
    cases first with
    | nil => exact hne rfl
    | cons c first =>
        obtain ⟨rfl, hback⟩ := List.cons.inj hsplit
        cases first with
        | nil =>
            obtain rfl : [0x0a] = second := hback
            obtain ⟨rest, rfl⟩ := hb
            rcases hseam with hnone | hhead
            · exact hnone (hf.subset List.mem_cons_self)
            · exact hhead rfl
        | cons d first =>
            obtain ⟨-, hnone⟩ := List.cons.inj hback
            exact hne' (List.append_eq_nil_iff.1 hnone.symm).2

theorem Unbroken.behind {front back : Bytes} (hfront : 0x0d ∉ front) (hback : Unbroken back) :
    Unbroken (front ++ back) :=
  (unbroken_of_not_mem (by decide) hfront).append hback (Or.inl hfront)

/-- The lines of a head up to the empty one, and what stands behind that. -/
def readLines (bytes : Bytes) : Option (List Bytes × Bytes) :=
  match _hcut : bytes.dropInfix? lineEnd with
  | none => none
  | some ([], behind) => some ([], behind)
  | some (b :: line, behind) =>
    (readLines behind).map fun (lines, rest) => ((b :: line) :: lines, rest)
termination_by bytes.length
decreasing_by
  have := length_of_dropInfix? _hcut
  simp only [List.length_cons] at this
  omega

theorem dropInfix?_lineEnd {line : Bytes} (h : Unbroken line) (rest : Bytes) :
    (line ++ lineEnd ++ rest).dropInfix? lineEnd = some (line, rest) :=
  dropInfix?_append (by decide) h rest

theorem readLines_of_empty {bytes behind : Bytes}
    (hcut : bytes.dropInfix? lineEnd = some ([], behind)) :
    readLines bytes = some ([], behind) := by
  rw [readLines]
  split <;> simp_all

theorem readLines_of_line {bytes line behind : Bytes} (hne : line ≠ [])
    (hcut : bytes.dropInfix? lineEnd = some (line, behind)) :
    readLines bytes = (readLines behind).map fun (lines, rest) => (line :: lines, rest) := by
  rw [readLines]
  split <;> simp_all

/-- Lines are read up to the first empty one. -/
theorem readLines_lines (lines : List Bytes) (h : ∀ line ∈ lines, line ≠ [] ∧ Unbroken line)
    (rest : Bytes) :
    readLines (lines.flatMap (· ++ lineEnd) ++ lineEnd ++ rest) = some (lines, rest) := by
  induction lines with
  | nil => exact readLines_of_empty (dropInfix?_lineEnd unbroken_nil rest)
  | cons line lines ih =>
      obtain ⟨hne, hunbroken⟩ := h line List.mem_cons_self
      have hmore := ih fun line hmem => h line (List.mem_cons_of_mem _ hmem)
      have hcut := dropInfix?_lineEnd hunbroken (lines.flatMap (· ++ lineEnd) ++ lineEnd ++ rest)
      simp only [List.flatMap_cons, List.append_assoc] at hmore hcut ⊢
      rw [readLines_of_line hne hcut, hmore]
      rfl

/-! ### Header lines -/

/-- Whether a line goes on with the line before it. -/
def continues (line : Bytes) : Bool := line.head?.any Ascii.isLineBlank

/-- Puts the lines together that one header line was broken into. -/
def unfoldLines : List Bytes → List Bytes
  | [] => []
  | line :: lines =>
    match unfoldLines lines with
    | [] => [line]
    | next :: rest => if continues next then (line ++ next) :: rest else line :: next :: rest

theorem unfoldLines_eq_self {lines : List Bytes} (h : ∀ line ∈ lines, continues line = false) :
    unfoldLines lines = lines := by
  induction lines with
  | nil => rfl
  | cons line lines ih =>
      have hrest := ih fun line hmem => h line (List.mem_cons_of_mem _ hmem)
      rw [unfoldLines, hrest]
      cases lines with
      | nil => rfl
      | cons next rest =>
          have hnext := h next (List.mem_cons_of_mem _ List.mem_cons_self)
          simp [hnext]

/-- A byte of the name of a header line. -/
def isNameByte (b : UInt8) : Bool := 0x20 < b && b < 0x7f && b != 0x3a

/-- The name and the body of a header line. -/
def readField (line : Bytes) : Option (Bytes × Bytes) := do
  let (name, body) ← line.dropInfix? [0x3a]
  guard (!name.isEmpty && name.all isNameByte)
  return (name, body)

/-- The header line with the given name and body. -/
def fieldLine (field : Bytes × Bytes) : Bytes := field.1 ++ [0x3a] ++ field.2

/-- The bytes can name a header line. -/
def IsName (name : Bytes) : Prop := name ≠ [] ∧ name.all isNameByte = true

instance (name : Bytes) : Decidable (IsName name) := inferInstanceAs (Decidable (_ ∧ _))

theorem readField_fieldLine {field : Bytes × Bytes} (h : IsName field.1) :
    readField (fieldLine field) = some field := by
  have hfree : ¬ [0x3a] <:+: field.1 := by
    intro hcolon
    have hbyte := List.all_eq_true.1 h.2 0x3a (hcolon.subset List.mem_cons_self)
    exact absurd hbyte (by decide)
  have hcut := dropInfix?_append (b := 0x3a) List.not_mem_nil hfree field.2
  have hempty : field.1.isEmpty = false := List.isEmpty_eq_false_iff.2 h.1
  rw [readField, fieldLine, hcut]
  dsimp only [Option.bind_eq_bind, Option.bind_some]
  rw [hempty, h.2]
  rfl

theorem mapM_readField (fields : List (Bytes × Bytes)) (h : ∀ field ∈ fields, IsName field.1) :
    (fields.map fieldLine).mapM readField = some fields := by
  induction fields with
  | nil => rfl
  | cons field rest ih =>
      rw [List.map_cons, List.mapM_cons, readField_fieldLine (h field List.mem_cons_self),
        ih fun field hmem => h field (List.mem_cons_of_mem _ hmem)]
      rfl

theorem fieldLine_ne_nil (field : Bytes × Bytes) : fieldLine field ≠ [] := by
  simp [fieldLine]

theorem continues_fieldLine {field : Bytes × Bytes} (h : IsName field.1) :
    continues (fieldLine field) = false := by
  obtain ⟨hne, hall⟩ := h
  cases hname : field.1 with
  | nil => exact absurd hname hne
  | cons b name =>
      rw [hname, List.all_cons, Bool.and_eq_true] at hall
      have hb : Ascii.isLineBlank b = false := by
        rw [Bool.eq_false_iff]
        intro hblank
        simp only [Ascii.isLineBlank, Bool.or_eq_true, beq_iff_eq] at hblank
        rcases hblank with rfl | rfl <;> exact absurd hall.1 (by decide)
      simp [continues, fieldLine, hname, hb]

/-! ### Parts -/

/-- Two hyphens and the boundary. -/
def dashed (boundary : Bytes) : Bytes := [0x2d, 0x2d] ++ boundary

/-- The mark between two parts: a line end, two hyphens and the boundary. -/
def delimiter (boundary : Bytes) : Bytes := lineEnd ++ dashed boundary

/-- A part of a body. -/
structure Enclosed where
  /-- The names and the bodies of its header lines. -/
  fields : List (Bytes × Bytes)
  /-- Its content. -/
  content : Bytes
deriving DecidableEq

/-- The part with the given text. A text without an empty line is all head. -/
def readEnclosed (text : Bytes) : Option Enclosed := do
  let (lines, content) ← (readLines text).or (readLines (text ++ lineEnd))
  let fields ← (unfoldLines lines).mapM readField
  return ⟨fields, content⟩

/-- The part behind a delimiter, and what stands behind the next one. The line end of the first
delimiter's line may be that of the next delimiter, so it is looked for from there on. -/
def readPart (boundary bytes : Bytes) : Option (Enclosed × Bytes) := do
  let (padding, rest) ← bytes.dropInfix? lineEnd
  guard (padding.all Ascii.isLineBlank)
  let (text, rest) ← (lineEnd ++ rest).dropInfix? (delimiter boundary)
  let part ← readEnclosed (text.drop lineEnd.length)
  return (part, rest)

theorem length_lt_of_readPart {boundary bytes rest : Bytes} {part : Enclosed}
    (h : readPart boundary bytes = some (part, rest)) : rest.length < bytes.length := by
  obtain ⟨⟨padding, behind⟩, hcut, h⟩ := Option.bind_eq_some_iff.1 h
  obtain ⟨-, -, h⟩ := Option.bind_eq_some_iff.1 h
  obtain ⟨⟨text, left⟩, hnext, h⟩ := Option.bind_eq_some_iff.1 h
  obtain ⟨found, -, h⟩ := Option.bind_eq_some_iff.1 h
  obtain rfl : left = rest := (Prod.mk.inj (Option.some.inj h)).2
  -- The next delimiter may take back the line end, but it is longer than that.
  have hfirst := length_of_dropInfix? hcut
  have hsecond := length_of_dropInfix? hnext
  simp only [delimiter, dashed, lineEnd, List.length_append, List.length_cons, List.length_nil]
    at hfirst hsecond
  omega

/-- The parts behind a delimiter, up to the closing one. -/
def readParts (boundary bytes : Bytes) : Option (List Enclosed) :=
  if [0x2d, 0x2d].isPrefixOf bytes then some []
  else match _hpart : readPart boundary bytes with
    | none => none
    | some (part, rest) => (readParts boundary rest).map (part :: ·)
termination_by bytes.length
decreasing_by exact length_lt_of_readPart _hpart

theorem readParts_of_part {boundary bytes rest : Bytes} {part : Enclosed}
    (hopen : [0x2d, 0x2d].isPrefixOf bytes = false)
    (hpart : readPart boundary bytes = some (part, rest)) :
    readParts boundary bytes = (readParts boundary rest).map (part :: ·) := by
  rw [readParts, if_neg (ne_true_of_eq_false hopen)]
  split <;> simp_all

/-- The parts of a body. -/
def read (boundary body : Bytes) : Option (List Enclosed) := do
  let (_, rest) ← (lineEnd ++ body).dropInfix? (delimiter boundary)
  readParts boundary rest

/-! ### The boundary -/

/-- The text up to the closing quote, and what stands behind that. -/
def readQuoted : Bytes → Option (Bytes × Bytes)
  | [] => none
  | 0x22 :: rest => some ([], rest)
  | 0x5c :: b :: rest => (readQuoted rest).map fun (value, rest) => (b :: value, rest)
  | b :: rest => (readQuoted rest).map fun (value, rest) => (b :: value, rest)

/-- The value of a parameter, and what stands behind it. -/
def readValue : Bytes → Option (Bytes × Bytes)
  | 0x22 :: rest => readQuoted rest
  | bytes =>
    let (value, rest) := bytes.span MediaType.isToken
    if value.isEmpty then none else some (value, rest)

/-- The name and the value of a parameter, with the semicolon ahead of it, and what stands
behind. -/
def readParameter (bytes : Bytes) : Option ((Bytes × Bytes) × Bytes) := do
  let rest ← (bytes.dropWhile Ascii.isLineBlank).dropPrefix? [0x3b]
  let (name, rest) := (rest.dropWhile Ascii.isLineBlank).span MediaType.isToken
  let (value, rest) ← readValue (← rest.dropPrefix? [0x3d])
  return ((Bytes.toLower name, value), rest)

/-- The parameters of a media type, up to the first that cannot be read. Each round takes a
semicolon, so as many rounds suffice as there are bytes. -/
def readParameters : Nat → Bytes → List (Bytes × Bytes)
  | 0, _ => []
  | rounds + 1, bytes =>
    match readParameter bytes with
    | some (parameter, rest) => parameter :: readParameters rounds rest
    | none => []

/-- The boundary that a media type names. -/
def boundary? (m : MediaType) : Option Bytes :=
  let parameters := Bytes.ofText m.parameters
  (readParameters parameters.length parameters).lookup (Bytes.ofText "boundary")

/-- The parts of a body of the given media type. -/
def parts? (m : MediaType) (body : Bytes) : Option (List Enclosed) := do read (← boundary? m) body

theorem readValue_token {value : Bytes} (hne : value ≠ [])
    (htoken : value.all MediaType.isToken = true) : readValue value = some (value, []) := by
  cases value with
  | nil => exact absurd rfl hne
  | cons b rest =>
      have hb : b ≠ 0x22 := by
        rintro rfl
        rw [List.all_cons, Bool.and_eq_true] at htoken
        exact absurd htoken.1 (by decide)
      unfold readValue
      split
      · next h => exact absurd (List.cons.inj h).1 hb
      · rw [span_of_all htoken]
        rfl

/-- The parameter that names a boundary. -/
def boundaryParameter (boundary : Bytes) : Bytes := Bytes.ofText "boundary" ++ 0x3d :: boundary

theorem span_boundaryParameter (boundary : Bytes) :
    (boundaryParameter boundary).span MediaType.isToken =
      (Bytes.ofText "boundary", 0x3d :: boundary) :=
  span_append_cons (by decide) (by decide) boundary

theorem readParameter_boundary {boundary : Bytes} (hne : boundary ≠ [])
    (htoken : boundary.all MediaType.isToken = true) :
    readParameter (0x3b :: 0x20 :: boundaryParameter boundary) =
      some ((Bytes.ofText "boundary", boundary), []) := by
  have hmark : ∀ (b : UInt8) (rest : Bytes), (b :: rest).dropPrefix? [b] = some rest := by
    intro b rest
    simp [List.dropPrefix?]
  have hsemicolon : ∀ rest : Bytes, (0x3b :: rest).dropWhile Ascii.isLineBlank = 0x3b :: rest :=
    fun _ => rfl
  have hblank : (0x20 :: boundaryParameter boundary).dropWhile Ascii.isLineBlank =
      boundaryParameter boundary :=
    rfl
  have hlower : Bytes.toLower (Bytes.ofText "boundary") = Bytes.ofText "boundary" := by decide
  simp only [readParameter, hsemicolon, hblank, span_boundaryParameter, hmark,
    readValue_token hne htoken, Option.bind_eq_bind, Option.bind_some, hlower]
  rfl

theorem boundary?_of_token {m : MediaType} {boundary : Bytes} (hne : boundary ≠ [])
    (htoken : boundary.all MediaType.isToken = true)
    (hparameters : Bytes.ofText m.parameters = 0x3b :: 0x20 :: boundaryParameter boundary) :
    boundary? m = some boundary := by
  rw [boundary?, hparameters, List.length_cons, readParameters, readParameter_boundary hne htoken]
  exact List.lookup_cons_self

/-! ### Writing -/

/-- The bytes of a part, from the end of the delimiter's line to the next delimiter. -/
def Enclosed.text (p : Enclosed) : Bytes :=
  lineEnd ++ ((p.fields.map fieldLine).flatMap (· ++ lineEnd) ++ lineEnd ++ p.content)

/-- The bytes behind a delimiter that stand for parts and the closing delimiter. -/
def writeParts (boundary : Bytes) : List Enclosed → Bytes
  | [] => [0x2d, 0x2d] ++ lineEnd
  | p :: rest => p.text ++ delimiter boundary ++ writeParts boundary rest

/-- The body with the given parts, without a preamble and with nothing but a line end behind
them. -/
def write (boundary : Bytes) (parts : List Enclosed) : Bytes :=
  [0x2d, 0x2d] ++ boundary ++ writeParts boundary parts

/-- A part that can be told from the framing around it. -/
structure Enclosed.WellFormed (boundary : Bytes) (p : Enclosed) : Prop where
  /-- Every header line has a name. -/
  names : ∀ field ∈ p.fields, IsName field.1
  /-- Every header line is a single line. -/
  lines : ∀ field ∈ p.fields, Unbroken (fieldLine field)
  /-- No header line starts as the line of a delimiter does. -/
  heads : ∀ field ∈ p.fields, ¬ dashed boundary <+: fieldLine field
  /-- The content does not start as the line of a delimiter does. -/
  start : ¬ dashed boundary <+: p.content
  /-- The content holds no delimiter. -/
  content : ¬ delimiter boundary <:+: p.content

/-! ### Where a delimiter can stand -/

/-- A mark at the start of a text does not reach over a byte that it lacks. -/
theorem isPrefix_of_append {mark text rest : Bytes} {b : UInt8} (hb : b ∉ mark)
    (h : mark <+: text ++ b :: rest) : mark <+: text := by
  obtain ⟨behind, hsplit⟩ := h
  rcases List.append_eq_append_iff.1 hsplit with ⟨more, rfl, -⟩ | ⟨more, rfl, hmore⟩
  · exact List.prefix_append mark more
  · cases more with
    | nil => simp
    | cons c more =>
        obtain ⟨rfl, -⟩ := List.cons.inj hmore
        exact absurd (List.mem_append_right text List.mem_cons_self) hb

/-- Behind a line end, a delimiter takes the line end itself or stands further on. -/
theorem delimiter_behind_lineEnd {boundary text : Bytes}
    (h : delimiter boundary <:+: lineEnd ++ text) :
    dashed boundary <+: text ∨ delimiter boundary <:+: text := by
  rcases List.infix_cons_iff.1 h with hfront | hlater
  · exact Or.inl (List.prefix_append_right_inj lineEnd |>.1 hfront)
  · rcases List.infix_cons_iff.1 hlater with ⟨behind, hsplit⟩ | hlater
    · -- A delimiter does not start with a line feed.
      exact absurd (List.cons.inj hsplit).1 (by decide)
    · exact Or.inr hlater

/-- A delimiter does not start within a line. -/
theorem delimiter_behind_line {boundary line rest : Bytes} (hline : Unbroken line)
    (h : delimiter boundary <:+: line ++ lineEnd ++ rest) :
    delimiter boundary <:+: lineEnd ++ rest := by
  obtain ⟨before, behind, hsplit⟩ := h
  -- It starts with a line end, and the first of these is the one behind the line.
  have hfirst := (List.dropInfix?_eq_some_iff.1 (dropInfix?_lineEnd hline rest)).2 before lineEnd
    (dashed boundary ++ behind) (by rw [← hsplit]; simp [delimiter]) (beq_self_eq_true _)
  rw [List.append_assoc, List.append_assoc] at hsplit
  rcases List.append_eq_append_iff.1 hsplit with ⟨more, rfl, hmore⟩ | ⟨more, rfl, hmore⟩
  · rw [List.length_append] at hfirst
    obtain rfl : more = [] := List.eq_nil_of_length_eq_zero (by omega)
    exact ⟨[], behind, by simpa using hmore⟩
  · exact ⟨more, behind, by rw [hmore, List.append_assoc]⟩

/-- A line that does not start as that of a delimiter can stand between two line ends. -/
theorem no_delimiter_line {boundary line rest : Bytes} (hboundary : 0x0d ∉ boundary)
    (hline : Unbroken line) (hstart : ¬ dashed boundary <+: line)
    (hrest : ¬ delimiter boundary <:+: lineEnd ++ rest) :
    ¬ delimiter boundary <:+: lineEnd ++ (line ++ lineEnd ++ rest) := by
  intro hinside
  rcases delimiter_behind_lineEnd hinside with hfront | hlater
  · rw [List.append_assoc] at hfront
    exact hstart (isPrefix_of_append (by simpa [dashed] using hboundary) hfront)
  · exact hrest (delimiter_behind_line hline hlater)

theorem no_delimiter_lines {boundary rest : Bytes} (hboundary : 0x0d ∉ boundary)
    (lines : List Bytes) (hlines : ∀ line ∈ lines, Unbroken line ∧ ¬ dashed boundary <+: line)
    (hrest : ¬ delimiter boundary <:+: lineEnd ++ rest) :
    ¬ delimiter boundary <:+: lineEnd ++ (lines.flatMap (· ++ lineEnd) ++ rest) := by
  induction lines with
  | nil => exact hrest
  | cons line lines ih =>
      obtain ⟨hunbroken, hstart⟩ := hlines line List.mem_cons_self
      have hmore := ih fun line hmem => hlines line (List.mem_cons_of_mem _ hmem)
      rw [List.flatMap_cons, List.append_assoc]
      exact no_delimiter_line hboundary hunbroken hstart hmore

/-- A well-formed part has no delimiter, not even where its header lines or its content start. -/
theorem Enclosed.WellFormed.no_delimiter {boundary : Bytes} (hboundary : 0x0d ∉ boundary)
    {p : Enclosed} (h : p.WellFormed boundary) : ¬ delimiter boundary <:+: p.text := by
  have hlines : ∀ line ∈ p.fields.map fieldLine, Unbroken line ∧ ¬ dashed boundary <+: line := by
    intro line hmem
    obtain ⟨field, hfield, rfl⟩ := List.mem_map.1 hmem
    exact ⟨h.lines field hfield, h.heads field hfield⟩
  have hcontent : ¬ delimiter boundary <:+: lineEnd ++ p.content := by
    intro hinside
    exact (delimiter_behind_lineEnd hinside).elim h.start h.content
  -- The empty line is a line as the others.
  have hempty := no_delimiter_line hboundary unbroken_nil (by simp [dashed]) hcontent
  rw [Enclosed.text, List.append_assoc]
  exact no_delimiter_lines hboundary _ hlines hempty

/-! ### Reading what was written -/

theorem dropInfix?_delimiter {boundary text : Bytes} (hboundary : 0x0d ∉ boundary)
    (h : ¬ delimiter boundary <:+: text) (rest : Bytes) :
    (text ++ delimiter boundary ++ rest).dropInfix? (delimiter boundary) = some (text, rest) := by
  refine dropInfix?_append ?_ h rest
  simp [dashed, hboundary]

theorem readEnclosed_text {boundary : Bytes} {p : Enclosed} (h : p.WellFormed boundary) :
    readEnclosed (p.text.drop lineEnd.length) = some p := by
  have hlines : ∀ line ∈ p.fields.map fieldLine, line ≠ [] ∧ Unbroken line := by
    intro line hmem
    obtain ⟨field, hfield, rfl⟩ := List.mem_map.1 hmem
    exact ⟨fieldLine_ne_nil field, h.lines field hfield⟩
  have hunfold : unfoldLines (p.fields.map fieldLine) = p.fields.map fieldLine := by
    refine unfoldLines_eq_self fun line hmem => ?_
    obtain ⟨field, hfield, rfl⟩ := List.mem_map.1 hmem
    exact continues_fieldLine (h.names field hfield)
  rw [Enclosed.text, List.drop_left, readEnclosed, readLines_lines _ hlines]
  refine Option.bind_eq_some_iff.2 ⟨_, rfl, ?_⟩
  exact Option.bind_eq_some_iff.2
    ⟨p.fields, (congrArg _ hunfold).trans (mapM_readField p.fields h.names), rfl⟩

theorem readPart_text {boundary : Bytes} (hboundary : 0x0d ∉ boundary) {p : Enclosed}
    (h : p.WellFormed boundary) (rest : Bytes) :
    readPart boundary (p.text ++ delimiter boundary ++ rest) = some (p, rest) := by
  -- The text starts with the line end of the delimiter's line; the next delimiter could share it.
  obtain ⟨body, hbody⟩ : ∃ body, p.text = lineEnd ++ body := ⟨_, rfl⟩
  have hpadding := dropInfix?_lineEnd unbroken_nil (body ++ delimiter boundary ++ rest)
  have hnext := dropInfix?_delimiter hboundary (h.no_delimiter hboundary) rest
  have hpart := readEnclosed_text h
  simp only [hbody, List.append_assoc, List.nil_append] at hpadding hnext hpart ⊢
  refine Option.bind_eq_some_iff.2 ⟨_, hpadding, ?_⟩
  refine Option.bind_eq_some_iff.2 ⟨(), rfl, ?_⟩
  refine Option.bind_eq_some_iff.2 ⟨_, hnext, ?_⟩
  exact Option.bind_eq_some_iff.2 ⟨p, hpart, rfl⟩

theorem readParts_writeParts {boundary : Bytes} (hboundary : 0x0d ∉ boundary)
    (parts : List Enclosed) (h : ∀ p ∈ parts, p.WellFormed boundary) :
    readParts boundary (writeParts boundary parts) = some parts := by
  induction parts with
  | nil => rw [readParts]; rfl
  | cons p rest ih =>
      have hpart := readPart_text hboundary (h p List.mem_cons_self) (writeParts boundary rest)
      have hrest := ih fun p hmem => h p (List.mem_cons_of_mem _ hmem)
      rw [writeParts, readParts_of_part rfl hpart, hrest]
      rfl

/-- **Reading undoes writing**, for parts that can be told from the framing around them. -/
theorem read_write {boundary : Bytes} (hboundary : 0x0d ∉ boundary) (parts : List Enclosed)
    (h : ∀ p ∈ parts, p.WellFormed boundary) :
    read boundary (write boundary parts) = some parts := by
  have hnowhere : ¬ delimiter boundary <:+: [] := by simp [delimiter, lineEnd]
  have hstart := dropInfix?_delimiter hboundary hnowhere (writeParts boundary parts)
  rw [List.nil_append] at hstart
  -- With a line end in front, the delimiter at the start is one like the others.
  have hopen : lineEnd ++ write boundary parts =
      delimiter boundary ++ writeParts boundary parts := by
    simp only [write, delimiter, dashed, List.append_assoc]
  rw [read, hopen, hstart]
  exact readParts_writeParts hboundary parts h

end ApiClient.Mime
