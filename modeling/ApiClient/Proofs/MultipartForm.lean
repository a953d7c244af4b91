import ApiClient.Form.Multipart
import ApiClient.Proofs.AsciiText
import ApiClient.Proofs.MultipartReader
import ApiClient.Proofs.Results
import ApiClient.Proofs.Utf8Text

/-!
# ApiClient.Proofs.MultipartForm

Multipart forms as readers see them.

`Part.enclosed` is what a reader should find of a part: its header lines and what its stream
delivers. The written form of these parts is what a form writes (`Multipart.toBytes_eq`). None of
the schemes that escape names, file names and header values lets a line end through, so the parts
can be told from their framing (`Part.wellFormed_of_enclosed`), and a reader that knows the media
type of the form gets them back.

The boundary is compared with the start of every line. So this takes that no line of a content
starts with two hyphens and the boundary, the first one included, and no header name that the
metadata brings along; `Multipart.boundary_at_start_misread` shows what is read otherwise.
-/

namespace ApiClient

open Mime

/-! ### Streams -/

namespace Stream

theorem readAll_ofBytes (bytes : Bytes) : (ofBytes bytes).readAll.1 = .ok bytes := by
  simp [readAll, ofBytes, drain, Source.drain, Source.ofBytes, Source.remaining, Source.fault?,
    Source.advance]

/-- A chain delivers what its first source does and then what the rest does, unless one of them
fails. -/
theorem readAll_cons (source : Source) (rest : Stream) :
    (readAll (source :: rest)).1 = match source.drain with
      | (_, some e, _) => .error e
      | (bytes, none, _) => rest.readAll.1.map (bytes ++ ·) := by
  unfold readAll
  rw [drain]
  rcases source.drain with ⟨bytes, _ | e, left⟩
  · dsimp only
    rcases rest.drain with ⟨more, _ | e, left⟩ <;> rfl
  · rfl

/-- A chain delivers what its first part does and then what the rest does, unless one of them
fails. -/
theorem readAll_append (s t : Stream) :
    (s ++ t).readAll.1 = s.readAll.1.bind fun bytes => t.readAll.1.map (bytes ++ ·) := by
  induction s with
  | nil =>
      show t.readAll.1 = t.readAll.1.map ([] ++ ·)
      cases t.readAll.1 with
      | error e => rfl
      | ok bytes => rfl
  | cons source rest ih =>
      rw [List.cons_append, readAll_cons, readAll_cons, ih]
      rcases source.drain with ⟨bytes, _ | e, left⟩
      · dsimp only
        cases (readAll rest).1 with
        | error e => rfl
        | ok more =>
            simp only [Except.bind, Except.map]
            cases t.readAll.1 with
            | error e => rfl
            | ok last => simp
      · rfl

end Stream

/-! ### Names, file names and values -/

theorem HeaderName.isName (n : HeaderName) : IsName (Bytes.ofText n.text) := by
  have hbytes : ∀ k : Fin 256, isByte (UInt8.ofNat k) = true →
      isNameByte (UInt8.ofNat k) = true := by
    decide +kernel
  exact ⟨Bytes.ofText_ne_nil n.valid.1, all_mono hbytes n.valid.2⟩

theorem HeaderValue.unbroken {bytes : Bytes} (h : bytes.all isByte = true) : Unbroken bytes := by
  refine unbroken_of_not_mem (b := 0x0a) (by decide) fun hmem => ?_
  exact absurd (List.all_eq_true.1 h _ hmem) (by decide)

namespace Part

theorem visible_of_keepsInName {b : UInt8} (h : keepsInName b = true) : 0x20 < b ∧ b < 0x7f := by
  simp only [keepsInName, Bool.and_eq_true, decide_eq_true_eq] at h
  exact h.1

/-- Whatever a name holds, its percent-encoded form is visible. -/
theorem visible_of_mem_encode {bytes : Bytes} {c : Char}
    (hmem : c ∈ Percent.encode keepsInName bytes) : 0x20 < c.toNat ∧ c.toNat < 0x7f := by
  have hdigit : ∀ n < 16, 0x20 < Ascii.hexDigit n ∧ Ascii.hexDigit n < 0x7f := by decide
  have hchar : ∀ {d : UInt8}, 0x20 < d ∧ d < 0x7f →
      0x20 < (Percent.asciiChar d).toNat ∧ (Percent.asciiChar d).toNat < 0x7f := by
    intro d hd
    rw [Percent.toNat_asciiChar (UInt8.lt_trans hd.2 (by decide))]
    exact hd
  exact Percent.forall_mem_encode (p := fun c => 0x20 < c.toNat ∧ c.toNat < 0x7f)
    (fun b hb => hchar (visible_of_keepsInName hb)) (by decide) (fun n hn => hchar (hdigit n hn))
    bytes c hmem

theorem visible_nameParameter (name : String) : ∀ b ∈ nameParameter name, 0x20 < b := by
  have hfixed : ∀ s : Bytes, s.all (0x20 < ·) = true → ∀ b ∈ s, 0x20 < b := by
    intro s hall b hmem
    exact of_decide_eq_true (List.all_eq_true.1 hall b hmem)
  rw [nameParameter]
  split
  · next hkeeps =>
      have hraw : ∀ b ∈ Bytes.ofText name, 0x20 < b := by
        intro b hmem
        exact (visible_of_keepsInName (List.all_eq_true.1 hkeeps b hmem)).1
      exact List.forall_mem_append.2 ⟨List.forall_mem_append.2 ⟨hfixed _ (by decide), hraw⟩,
        hfixed _ (by decide)⟩
  · have hencoded : ∀ b ∈ Bytes.ofText (Percent.encodeText keepsInName name), 0x20 < b := by
      intro b hmem
      rw [Percent.encodeText, Bytes.ofText_ofList_of_ascii fun c hc =>
        Nat.lt_trans (visible_of_mem_encode hc).2 (by decide)] at hmem
      obtain ⟨c, hc, rfl⟩ := List.mem_map.1 hmem
      obtain ⟨hlow, hhigh⟩ := visible_of_mem_encode hc
      show 0x20 < c.toNat % 256
      omega
    exact List.forall_mem_append.2 ⟨hfixed _ (by decide), hencoded⟩

/-- An escaped file name is a single line, and starts with no line feed. -/
theorem unbroken_escape (bytes : Bytes) : Unbroken (bytes.flatMap escapeFileByte)
    ∧ (bytes.flatMap escapeFileByte).head? ≠ some 0x0a := by
  -- By induction with both: a line feed that starts the rest would complete a carriage return.
  induction bytes with
  | nil => exact ⟨unbroken_nil, by simp⟩
  | cons b rest ih =>
      obtain ⟨hrest, hhead⟩ := ih
      rw [List.flatMap_cons, escapeFileByte]
      split
      · refine ⟨Unbroken.append ?_ hrest (Or.inr hhead), by simp⟩
        -- A backslash and one byte cannot be a line end, whichever of its two bytes this is.
        by_cases hb : b = 0x0d
        · exact unbroken_of_not_mem (b := 0x0a) (by decide) (by rw [hb]; decide)
        · exact unbroken_of_not_mem (b := 0x0d) (by decide) (by simp [Ne.symm hb])
      · next hplain =>
          have hlf : b ≠ 0x0a := by rintro rfl; exact hplain (by decide)
          have hline : Unbroken [b] :=
            unbroken_of_not_mem (b := 0x0a) (by decide) (by simp [Ne.symm hlf])
          exact ⟨hline.append hrest (Or.inr hhead), by simp [hlf]⟩

theorem unbroken_fileNameParameter (fileName : String) : Unbroken (fileNameParameter fileName) := by
  have hquote : Unbroken (Bytes.ofText "\"") :=
    unbroken_of_not_mem (b := 0x0a) (by decide) (by decide)
  have hname := (unbroken_escape (Bytes.ofText fileName)).1.append hquote (Or.inr (by decide))
  have hfront : (0x0d : UInt8) ∉ Bytes.ofText "filename=\"" := by decide
  rw [fileNameParameter, List.append_assoc]
  exact hname.behind hfront

theorem unbroken_disposition (name : String) (p : Part) : Unbroken (disposition name p) := by
  have hname : (0x0d : UInt8) ∉ nameParameter name := by
    intro hmem
    exact absurd (visible_nameParameter name _ hmem) (by decide)
  have hfront : (0x0d : UInt8) ∉ Bytes.ofText "form-data; " ++ nameParameter name :=
    List.not_mem_append (by decide) hname
  -- The file name alone may hold a carriage return, so it comes last.
  have hseparator : (0x0d : UInt8) ∉ Bytes.ofText "; " := by decide
  rw [disposition]
  refine Unbroken.behind hfront ?_
  cases p.metadata.fileName with
  | none => exact unbroken_nil
  | some fileName => exact (unbroken_fileNameParameter fileName).behind hseparator

/-- Every header line of a part has a name and is a single line, whatever the part and its name
are. -/
theorem headerLines_unbroken (name : String) (p : Part) : ∀ line ∈ p.headerLines name,
    IsName (Bytes.ofText line.1) ∧ Unbroken line.2 := by
  intro line hmem
  have hdisposition : IsName (Bytes.ofText "Content-Disposition") := by decide
  have htype : IsName (Bytes.ofText "Content-Type") := by decide
  have hlength : IsName (Bytes.ofText "Content-Length") := by decide
  rw [headerLines, List.append_assoc] at hmem
  -- One case for each line that the writer knows by name, and one for those of the metadata.
  rcases List.mem_append.1 hmem with hmem | hmem
  · rcases List.mem_cons.1 hmem with rfl | hmem
    · exact ⟨hdisposition, unbroken_disposition name p⟩
    · obtain rfl := List.mem_singleton.1 hmem
      refine ⟨htype, HeaderValue.unbroken ?_⟩
      unfold mediaTypeBytes
      cases p.metadata.headers.get? .contentType with
      | some value => exact value.valid
      | none => exact p.valid
  · rcases List.mem_append.1 hmem with hmem | hmem
    · obtain ⟨n, -, rfl⟩ := Option.map_eq_some_iff.1 (Option.mem_toList.1 hmem)
      refine ⟨hlength, unbroken_of_not_mem (b := 0x0a) (by decide) fun hmem => ?_⟩
      exact absurd (Bytes.isDigit_of_mem_ofText_toString hmem) (by decide)
    · obtain ⟨⟨n, value⟩, -, rfl⟩ := List.mem_map.1 hmem
      exact ⟨n.isName, HeaderValue.unbroken value.valid⟩

/-- A header line as a reader sees it: the space behind the colon belongs to the body. -/
def field (name : String) (value : Bytes) : Bytes × Bytes := (Bytes.ofText name, 0x20 :: value)

/-- The header lines that a reader should find: what the part is, its media type, its size if that
is known, and the other headers of its metadata in their order. -/
def fields (name : String) (p : Part) : List (Bytes × Bytes) :=
  [field "Content-Disposition" (p.disposition name),
    field "Content-Type" (((p.metadata.headers.get? .contentType).map HeaderValue.bytes).getD
      (Bytes.ofText p.defaultMediaType))]
    ++ (match p.content.size? with
      | some n => [field "Content-Length" (Bytes.ofText (toString n))]
      | none => [])
    ++ (p.metadata.headers.lines.filter (·.1 ≠ .contentType)).map fun l => field l.1.text l.2.bytes

/-- What a reader should find of a part: its header lines, and what its stream delivers. -/
def enclosed (name : String) (p : Part) : ReadResult Enclosed :=
  p.content.toStream.readAll.1.map fun content => { fields := p.fields name, content }

theorem fields_eq (name : String) (p : Part) :
    p.fields name = (p.headerLines name).map fun line => field line.1 line.2 := by
  have htype : p.mediaTypeBytes =
      ((p.metadata.headers.get? .contentType).map HeaderValue.bytes).getD
      (Bytes.ofText p.defaultMediaType) := by
    unfold mediaTypeBytes
    cases p.metadata.headers.get? .contentType with
    | some value => rfl
    | none => rfl
  rw [fields, headerLines, ← htype, List.map_append, List.map_append, List.map_map]
  cases p.content.size? with
  | some n => rfl
  | none => rfl

theorem enclosed_of_bytes {p : Part} {data : Bytes} (h : p.content = .bytes data) (name : String) :
    p.enclosed name = .ok { fields := p.fields name, content := data } := by
  rw [enclosed, h]
  exact congrArg (Except.map _) (Stream.readAll_ofBytes data)

/-- A text that does not start with a hyphen does not start as the line of a delimiter. -/
theorem not_dashed_of_head {boundary text : Bytes} (h : text.head? ≠ some 0x2d) :
    ¬ dashed boundary <+: text := by
  rintro ⟨rest, rfl⟩
  exact h rfl

/-- No header line starts as the line of a delimiter if no name of the metadata does. -/
theorem headerLines_not_dashed (name : String) {p : Part} {boundary : Bytes}
    (hnames : ∀ line ∈ p.metadata.headers.lines, ¬ dashed boundary <+: Bytes.ofText line.1.text) :
    ∀ line ∈ p.headerLines name, ¬ dashed boundary <+: Bytes.ofText line.1 := by
  intro line hmem
  have hdisposition : (Bytes.ofText "Content-Disposition").head? ≠ some 0x2d := by decide
  have htype : (Bytes.ofText "Content-Type").head? ≠ some 0x2d := by decide
  have hlength : (Bytes.ofText "Content-Length").head? ≠ some 0x2d := by decide
  rw [headerLines, List.append_assoc] at hmem
  rcases List.mem_append.1 hmem with hmem | hmem
  · rcases List.mem_cons.1 hmem with rfl | hmem
    · exact not_dashed_of_head hdisposition
    · obtain rfl := List.mem_singleton.1 hmem
      exact not_dashed_of_head htype
  · rcases List.mem_append.1 hmem with hmem | hmem
    · obtain ⟨n, -, rfl⟩ := Option.map_eq_some_iff.1 (Option.mem_toList.1 hmem)
      exact not_dashed_of_head hlength
    · obtain ⟨line, hline, rfl⟩ := List.mem_map.1 hmem
      exact hnames line (List.mem_filter.1 hline).1

/-- What is found of a part can be told from the framing if no line of it reads as a delimiter. -/
theorem wellFormed_of_enclosed {name : String} {p : Part} {boundary : Bytes} {part : Enclosed}
    (h : p.enclosed name = .ok part) (hboundary : 0x3a ∉ boundary)
    (hnames : ∀ line ∈ p.metadata.headers.lines, ¬ dashed boundary <+: Bytes.ofText line.1.text)
    (hstart : ¬ dashed boundary <+: part.content)
    (hcontent : ¬ delimiter boundary <:+: part.content) : part.WellFormed boundary := by
  have hlines := p.headerLines_unbroken name
  have hheads := headerLines_not_dashed name hnames
  unfold enclosed at h
  cases hread : p.content.toStream.readAll.1 with
  | error e => rw [hread] at h; cases h
  | ok content =>
      rw [hread] at h
      obtain rfl := Except.ok.inj h
      -- Each field comes from a header line, so it has what all of them have.
      have hfields : ∀ field ∈ p.fields name, ∃ line ∈ p.headerLines name,
          field = Part.field line.1 line.2 := by
        intro field hmem
        rw [fields_eq] at hmem
        obtain ⟨line, hline, rfl⟩ := List.mem_map.1 hmem
        exact ⟨line, hline, rfl⟩
      refine ⟨?_, ?_, ?_, hstart, hcontent⟩
      · intro field hmem
        obtain ⟨line, hline, rfl⟩ := hfields field hmem
        exact (hlines line hline).1
      · intro field hmem
        obtain ⟨line, hline, rfl⟩ := hfields field hmem
        obtain ⟨hname, hvalue⟩ := hlines line hline
        have hcr : (0x0d : UInt8) ∉ Bytes.ofText line.1 := by
          intro hmem
          exact absurd (List.all_eq_true.1 hname.2 _ hmem) (by decide)
        have hfront : (0x0d : UInt8) ∉ Bytes.ofText line.1 ++ [0x3a] ++ [0x20] :=
          List.not_mem_append (List.not_mem_append hcr (by decide)) (by decide)
        have hline := hvalue.behind hfront
        rwa [List.append_assoc] at hline
      · intro field hmem hdashed
        obtain ⟨line, hline, rfl⟩ := hfields field hmem
        rw [fieldLine, List.append_assoc] at hdashed
        -- A boundary has no colon, so the name in front of the colon would start so too.
        exact hheads line hline (isPrefix_of_append (by simpa [dashed] using hboundary) hdashed)

end Part

/-! ### The boundary -/

namespace Boundary

/-- The boundary in bytes. -/
def bytes (b : Boundary) : Bytes := Bytes.ofText b.text

theorem ne_nil (b : Boundary) : b.bytes ≠ [] := by
  refine Bytes.ofText_ne_nil ?_
  intro hempty
  have hlength := b.valid.1
  rw [hempty] at hlength
  exact absurd hlength (by decide)

theorem isToken (b : Boundary) : b.bytes.all MediaType.isToken = true := by
  have hdigits : ∀ k : Fin 256, Ascii.isHexDigit (UInt8.ofNat k) = true →
      MediaType.isToken (UInt8.ofNat k) = true := by decide +kernel
  exact all_mono hdigits b.valid.2

theorem ascii (b : Boundary) : ∀ byte ∈ b.bytes, byte < 0x80 := by
  have hdigits : ∀ k : Fin 256, Ascii.isHexDigit (UInt8.ofNat k) = true →
      decide (UInt8.ofNat k < 0x80) = true := by decide +kernel
  have hall : b.bytes.all (· < 0x80) = true := all_mono hdigits b.valid.2
  intro byte hmem
  exact of_decide_eq_true (List.all_eq_true.1 hall byte hmem)

/-- A boundary has no carriage return, so a delimiter has none but its first byte. -/
theorem cr_not_mem (b : Boundary) : 0x0d ∉ b.bytes := by
  intro hmem
  exact absurd (List.all_eq_true.1 b.valid.2 _ hmem) (by decide)

theorem colon_not_mem (b : Boundary) : 0x3a ∉ b.bytes := by
  intro hmem
  exact absurd (List.all_eq_true.1 b.valid.2 _ hmem) (by decide)

end Boundary

/-! ### The media type

The media type of a form is made of its name and its boundary. Its text is what a header shows, and
the parser of media types reads the same media type in that text. -/

namespace MediaType

/-- A text with a type, a subtype and readable parameters is a media type. -/
theorem parse_of_span {s : String} {topLevel sub behind parameters kept : Bytes}
    (htop : (Bytes.ofText s).span isToken = (topLevel, 0x2f :: behind))
    (htopne : topLevel.isEmpty = false)
    (hsub : behind.span isToken = (sub, 0x3b :: parameters)) (hsubne : sub.isEmpty = false)
    (hkept : readParameters parameters.length (topLevel.length + 1 + sub.length + 1) parameters =
      .ok kept) : parse s = .ok (ofNames topLevel sub kept) := by
  rw [parse, htop]
  show (if topLevel.isEmpty then _ else _) = _
  rw [htopne, if_neg Bool.false_ne_true, hsub]
  show (if 0x3b == (0x3b : UInt8) && !sub.isEmpty then _ else _) = _
  rw [hsubne, if_pos (by decide), hkept]
  rfl

theorem splitValue_boundary (b : Boundary) (position : Nat) :
    splitValue false position b.bytes = .ok (b.bytes, []) := by
  have hquote : ∀ quoted, b.bytes = 0x22 :: quoted → False := by
    intro quoted heq
    have htoken := b.isToken
    rw [heq, List.all_cons, Bool.and_eq_true] at htoken
    exact absurd htoken.1 (by decide)
  rw [splitValue.eq_2 _ _ _ hquote, span_of_all b.isToken]
  rfl

theorem splitParameter_boundary (b : Boundary) (position : Nat) :
    splitParameter position (boundaryParameter b.bytes) = .ok (boundaryParameter b.bytes, []) := by
  have hcharset : (Bytes.toLower (Bytes.ofText "boundary") == Bytes.ofText "charset") = false := by
    decide
  rw [splitParameter, span_boundaryParameter]
  show (do
    let back ← splitValue (Bytes.toLower (Bytes.ofText "boundary") == Bytes.ofText "charset")
      (position + (Bytes.ofText "boundary").length + 1) b.bytes
    .ok (Bytes.toLower (Bytes.ofText "boundary") ++ 0x3d :: back.1, back.2)) = _
  rw [hcharset, splitValue_boundary]
  rfl

/-- A blank and the parameter that names a boundary are kept as they are. -/
theorem readParameters_boundary (b : Boundary) (position : Nat) :
    readParameters (0x20 :: boundaryParameter b.bytes).length position
      (0x20 :: boundaryParameter b.bytes) = .ok (0x20 :: boundaryParameter b.bytes) := by
  -- There are rounds enough for the blank, the parameter and the end behind it.
  have hrounds : (0x20 :: boundaryParameter b.bytes).length = b.bytes.length + 7 + 3 := by
    have hname : (Bytes.ofText "boundary").length = 8 := by decide
    rw [boundaryParameter, List.length_cons, List.length_append, List.length_cons, hname]
    omega
  have hparameter :
      readParameters (b.bytes.length + 7 + 2) (position + 1) (boundaryParameter b.bytes) =
        .ok (boundaryParameter b.bytes) := by
    show (do
      let back ← splitParameter (position + 1) (boundaryParameter b.bytes)
      .ok (back.1 ++
        (← readParameters (b.bytes.length + 7 + 1) (position + 1 + back.1.length) back.2))) = _
    rw [splitParameter_boundary]
    exact congrArg Except.ok (List.append_nil _)
  rw [hrounds, readParameters, if_pos (by decide), hparameter]
  rfl

theorem ofNames_boundary (b : Boundary) :
    ofNames (Bytes.ofText "multipart") (Bytes.ofText "form-data")
      (0x20 :: boundaryParameter b.bytes) =
        { formData with parameters := "; boundary=" ++ b.text } := by
  have hparameters : Utf8.decodeLossy (0x3b :: 0x20 :: boundaryParameter b.bytes) =
      "; boundary=" ++ b.text := by
    have hread := Utf8.decodeLossy_ofText ("; boundary=" ++ b.text)
    rwa [Bytes.ofText_append] at hread
  have hblanks : (0x20 :: boundaryParameter b.bytes).all (· == 0x20) = false := rfl
  have htop : lowerText (Bytes.ofText "multipart") = "multipart" := by decide
  have hsub : lowerText (Bytes.ofText "form-data") = "form-data" := by decide
  unfold ofNames
  rw [hblanks, htop, hsub]
  -- The subtype has no suffix, so nothing stands in front of its last plus.
  show (if ([] : Bytes).isEmpty then MediaType.mk "multipart" "form-data" none
    (Utf8.decodeLossy (0x3b :: 0x20 :: boundaryParameter b.bytes)) else _) = _
  rw [if_pos List.isEmpty_nil, hparameters]
  rfl

end MediaType

namespace Multipart

/-- The text of the media type stands for the media type. -/
theorem parse?_mediaType (m : Multipart) :
    MediaType.parse? m.mediaType.text = some m.mediaType := by
  have hshown : m.mediaType.text =
      "multipart/form-data" ++ ("; boundary=" ++ m.boundary.text) := rfl
  have htop : (Bytes.ofText m.mediaType.text).span MediaType.isToken = (Bytes.ofText "multipart",
      0x2f ::
        (Bytes.ofText "form-data" ++ 0x3b :: 0x20 :: boundaryParameter m.boundary.bytes)) := by
    rw [hshown, Bytes.ofText_append, Bytes.ofText_append]
    show (Bytes.ofText "multipart" ++ 0x2f ::
      (Bytes.ofText "form-data" ++ 0x3b :: 0x20 :: boundaryParameter m.boundary.bytes)).span _ = _
    exact span_append_cons (by decide) (by decide) _
  have hsub : (Bytes.ofText "form-data" ++ 0x3b :: 0x20 :: boundaryParameter m.boundary.bytes).span
      MediaType.isToken =
        (Bytes.ofText "form-data", 0x3b :: 0x20 :: boundaryParameter m.boundary.bytes) :=
    span_append_cons (by decide) (by decide) _
  have hkept := MediaType.readParameters_boundary m.boundary
    ((Bytes.ofText "multipart").length + 1 + (Bytes.ofText "form-data").length + 1)
  rw [MediaType.parse?, MediaType.parse_of_span htop (by decide) hsub (by decide) hkept,
    MediaType.ofNames_boundary]
  rfl

theorem boundary?_mediaType (m : Multipart) : boundary? m.mediaType = some m.boundary.bytes :=
  boundary?_of_token m.boundary.ne_nil m.boundary.isToken (Bytes.ofText_append _ _)

end Multipart

/-! ### The written form -/

theorem intercalate_lineEnd {lines : List Bytes} (h : lines ≠ []) :
    lineEnd.intercalate lines ++ lineEnd = lines.flatMap (· ++ lineEnd) := by
  induction lines with
  | nil => exact absurd rfl h
  | cons line rest ih =>
      cases rest with
      | nil => simp [List.intercalate]
      | cons next rest =>
          have hrest := ih (List.cons_ne_nil _ _)
          rw [List.flatMap_cons, ← hrest]
          simp [List.intercalate]

namespace Multipart

theorem partStream_readAll (boundary : Boundary) (name : String) (p : Part) :
    (partStream boundary (name, p)).readAll.1 = (p.enclosed name).map fun part =>
      [0x2d, 0x2d] ++ boundary.bytes ++ part.text ++ lineEnd := by
  -- The head is written with line ends between its lines and read with one behind each.
  have hhead : p.head name ++ lineEnd = ((p.fields name).map fieldLine).flatMap (· ++ lineEnd) := by
    have hlines : (p.fields name).map fieldLine = (p.headerLines name).map Part.lineBytes := by
      rw [p.fields_eq, List.map_map]
      refine List.map_congr_left fun line _ => ?_
      simp only [Function.comp_apply, fieldLine, Part.lineBytes, List.append_assoc]
      rfl
    rw [hlines, ← intercalate_lineEnd (by simp [Part.headerLines])]
    rfl
  rw [partStream, Stream.readAll_append, Stream.readAll_append, Stream.readAll_ofBytes,
    Stream.readAll_ofBytes, Part.enclosed]
  cases p.content.toStream.readAll.1 with
  | error e => rfl
  | ok content =>
      refine congrArg Except.ok ?_
      have hopening : opening boundary name p = Bytes.ofText "--" ++ Bytes.ofText boundary.text
          ++ lineEnd ++ (p.head name ++ lineEnd) ++ lineEnd := by
        rw [opening]
        simp only [List.append_assoc]
        rfl
      rw [hopening, hhead]
      simp only [Enclosed.text, List.append_assoc]
      rfl

/-- What a reader should find of a form: what it should find of its parts, in order. -/
def enclosed (m : Multipart) : ReadResult (List Enclosed) := m.fields.mapM fun f => f.2.enclosed f.1

/-- A form writes what a reader should find of it, and fails if a stream of it does. -/
theorem toBytes_eq (m : Multipart) :
    m.toBytes = m.enclosed.map (write m.boundary.bytes) := by
  obtain ⟨boundary, fields⟩ := m
  unfold toBytes toStream enclosed
  dsimp only
  induction fields with
  | nil =>
      rw [List.flatMap_nil, List.nil_append, Stream.readAll_ofBytes]
      refine congrArg Except.ok ?_
      simp only [ending, write, List.append_assoc]
      rfl
  | cons f rest ih =>
      obtain ⟨name, p⟩ := f
      rw [List.flatMap_cons, List.append_assoc, Stream.readAll_append, partStream_readAll, ih,
        List.mapM_cons]
      -- The line end behind the content and the next delimiter are the reader's delimiter.
      cases p.enclosed name with
      | error e => rfl
      | ok part =>
          cases rest.mapM fun f => f.2.enclosed f.1 with
          | error e => rfl
          | ok parts =>
              refine congrArg Except.ok ?_
              simp only [write, writeParts, delimiter, dashed, List.append_assoc]

/-! ### Reading the written form -/

theorem wellFormed_of_enclosed (m : Multipart) {parts : List Enclosed}
    (hparts : m.enclosed = .ok parts)
    (hnames : ∀ f ∈ m.fields, ∀ line ∈ f.2.metadata.headers.lines,
      ¬ dashed m.boundary.bytes <+: Bytes.ofText line.1.text)
    (hstart : ∀ part ∈ parts, ¬ dashed m.boundary.bytes <+: part.content)
    (hfree : ∀ part ∈ parts, ¬ delimiter m.boundary.bytes <:+: part.content) :
    ∀ part ∈ parts, part.WellFormed m.boundary.bytes := by
  intro part hmem
  obtain ⟨f, hf, hpart⟩ := exists_of_mem_mapM hparts hmem
  exact Part.wellFormed_of_enclosed hpart m.boundary.colon_not_mem (hnames f hf) (hstart part hmem)
    (hfree part hmem)

/-- **Reading a written form.** A reader that takes the boundary from the text of the media type
finds the parts of the form in order, each with its header lines and its content, if no content
holds the delimiter, and no content and no header name of the metadata starts with two hyphens and
the boundary. -/
theorem reading_finds_every_part (m : Multipart) {parts : List Enclosed}
    (hparts : m.enclosed = .ok parts)
    (hnames : ∀ f ∈ m.fields, ∀ line ∈ f.2.metadata.headers.lines,
      ¬ dashed m.boundary.bytes <+: Bytes.ofText line.1.text)
    (hstart : ∀ part ∈ parts, ¬ dashed m.boundary.bytes <+: part.content)
    (hfree : ∀ part ∈ parts, ¬ delimiter m.boundary.bytes <:+: part.content) :
    MediaType.parse? m.mediaType.text = some m.mediaType
      ∧ ∃ body, m.toBytes = .ok body ∧ m.toBody.toBytes = .ok body
        ∧ parts? m.mediaType body = some parts := by
  have hbody : m.toBytes = .ok (write m.boundary.bytes parts) := by rw [toBytes_eq, hparts]; rfl
  refine ⟨m.parse?_mediaType, write m.boundary.bytes parts, hbody, hbody, ?_⟩
  rw [parts?, boundary?_mediaType]
  exact read_write m.boundary.cr_not_mem parts (m.wellFormed_of_enclosed hparts hnames hstart hfree)

/-- A form of one part. -/
def ofPart (name : String) (part : Part) : Multipart :=
  addPart { boundary := ⟨"0123456789abcdef0123456789abcdef", by decide⟩ } name part

theorem enclosed_ofPart (name : String) (part : Part) {data : Bytes}
    (h : part.content = .bytes data) :
    (ofPart name part).enclosed = .ok [⟨part.fields name, data⟩] := by
  have hpart := Part.enclosed_of_bytes h name
  rw [enclosed, ofPart, addPart, List.nil_append, List.mapM_cons, hpart]
  rfl

theorem toBytes_ofPart (name : String) (part : Part) {data : Bytes}
    (h : part.content = .bytes data) : (ofPart name part).toBytes =
      .ok (write (ofPart name part).boundary.bytes [⟨part.fields name, data⟩]) := by
  rw [toBytes_eq, enclosed_ofPart name part h]
  rfl

/-- A part whose content ends as a delimiter starts. It has line ends in its file name, and a header
that starts as a delimiter does. -/
def note : Part :=
  let name : HeaderName := ⟨"--0123", by decide⟩
  { Part.text "text\r\n--0123" with
    metadata := { headers := HeaderMap.ofLines [(name, ⟨[0x31], by decide⟩)],
                  fileName := some "\r\n\r\n" } }

/-- A form of one part, with a line end in its name. -/
def sample : Multipart := ofPart "a\r\nb" note

theorem reading_finds_part_of_sample :
    sample.enclosed = .ok [⟨note.fields "a\r\nb", Bytes.ofText "text\r\n--0123"⟩]
      ∧ (∀ f ∈ sample.fields, ∀ line ∈ f.2.metadata.headers.lines,
        ¬ dashed sample.boundary.bytes <+: Bytes.ofText line.1.text)
      ∧ ¬ dashed sample.boundary.bytes <+: Bytes.ofText "text\r\n--0123"
      ∧ ¬ delimiter sample.boundary.bytes <:+: Bytes.ofText "text\r\n--0123"
      ∧ ∃ body, sample.toBytes = .ok body ∧ parts? sample.mediaType body =
        some [⟨note.fields "a\r\nb", Bytes.ofText "text\r\n--0123"⟩] := by
  have hparts := enclosed_ofPart "a\r\nb" note rfl
  have hnames : ∀ f ∈ sample.fields, ∀ line ∈ f.2.metadata.headers.lines,
      ¬ dashed sample.boundary.bytes <+: Bytes.ofText line.1.text := by
    intro f hf line hline
    obtain rfl := List.mem_singleton.1 hf
    obtain rfl := List.mem_singleton.1 hline
    exact fun hdashed => absurd hdashed.length_le (by decide)
  have hstart : ¬ dashed sample.boundary.bytes <+: Bytes.ofText "text\r\n--0123" :=
    Part.not_dashed_of_head (by decide)
  have hcontent : ¬ delimiter sample.boundary.bytes <:+: Bytes.ofText "text\r\n--0123" :=
    fun hinside => absurd hinside.length_le (by decide)
  obtain ⟨-, body, hbody, -, hread⟩ := sample.reading_finds_every_part hparts hnames
    (List.forall_mem_singleton.2 hstart) (List.forall_mem_singleton.2 hcontent)
  exact ⟨hparts, hnames, hstart, hcontent, body, hbody, hread⟩

/-- A part with a content that starts with two hyphens and the boundary. -/
def forging : Part := Part.text "--0123456789abcdef0123456789abcdef\r\n\r\nforged"

/-- A part with a header whose name is two hyphens and the boundary. -/
def marked : Part :=
  let name : HeaderName := ⟨"--0123456789abcdef0123456789abcdef", by decide⟩
  { Part.text "x" with metadata := { headers := HeaderMap.ofLines [(name, ⟨[0x31], by decide⟩)] } }

/-- A content that starts with two hyphens and the boundary, and has no line end in front of any, is
read as the part behind a delimiter. A header name that does so cuts the head off. -/
theorem boundary_at_start_misread :
    ((ofPart "a" forging).enclosed = .ok [⟨forging.fields "a",
        Bytes.ofText "--0123456789abcdef0123456789abcdef\r\n\r\nforged"⟩]
      ∧ ¬ delimiter (ofPart "a" forging).boundary.bytes <:+:
        Bytes.ofText "--0123456789abcdef0123456789abcdef\r\n\r\nforged"
      ∧ ∃ body, (ofPart "a" forging).toBytes = .ok body
        ∧ parts? (ofPart "a" forging).mediaType body =
          some [⟨forging.fields "a", []⟩, ⟨[], Bytes.ofText "forged"⟩])
    ∧ (ofPart "a" marked).enclosed = .ok [⟨marked.fields "a", Bytes.ofText "x"⟩]
      ∧ ¬ delimiter (ofPart "a" marked).boundary.bytes <:+: Bytes.ofText "x"
      ∧ ∃ body, (ofPart "a" marked).toBytes = .ok body
        ∧ parts? (ofPart "a" marked).mediaType body = none := by
  refine ⟨⟨enclosed_ofPart "a" forging rfl, ?_, _, toBytes_ofPart "a" forging rfl, ?_⟩,
    enclosed_ofPart "a" marked rfl, ?_, _, toBytes_ofPart "a" marked rfl, ?_⟩ <;> decide +kernel

end Multipart

end ApiClient
