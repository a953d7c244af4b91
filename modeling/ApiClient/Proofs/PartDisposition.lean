import ApiClient.Proofs.MultipartForm

/-!
# ApiClient.Proofs.PartDisposition

Reading the line that says what a part is.

The line names a kind and then parameters, each behind a semicolon. A value between quotes goes up
to the next quote, and a backslash in it stands for the byte behind it. Any other value goes up to
the next semicolon. A parameter whose name ends in an asterisk is extended: its value is a character
set, a language and percent-encoded bytes, with apostrophes between them.

A file name is escaped as this reader expects. The name of the part is written as it is if it needs
no percent-encoding, and percent-encoded otherwise, and neither form escapes everything that it
must: between quotes a backslash is lost, and without them a semicolon ends the value.
`Part.IsReadable` says which names have neither, and it is these names exactly that are read back
(`Part.disposition_reads_back`).
-/

namespace ApiClient

open Mime

/-! ### The reader -/

/-- What a part is, by its line. -/
structure Disposition where
  /-- The kind of content. -/
  kind : Bytes
  /-- The name of the part. -/
  name : Option Bytes
  /-- The name of the file that the part is. -/
  fileName : Option Bytes
deriving DecidableEq

namespace Disposition

/-- What stands behind a mark. -/
def behind? (mark : UInt8) : Bytes → Option Bytes
  | [] => none
  | b :: rest => if b = mark then some rest else none

/-- An extended value: a character set, a language and percent-encoded bytes. -/
def readExtended (value : Bytes) : Option Bytes := do
  let (charset, rest) := value.span (· != 0x27)
  guard (Bytes.toLower charset == Bytes.ofText "utf-8")
  let (_, rest) := (← behind? 0x27 rest).span (· != 0x27)
  return Percent.decode (← behind? 0x27 rest)

/-- The value of a parameter, and what stands behind it. -/
def readValue (extended : Bool) (bytes : Bytes) : Option (Bytes × Bytes) :=
  let (value, rest) := bytes.span (· != 0x3b)
  if extended then (readExtended value).map fun value => (value, rest)
  else match behind? 0x22 bytes with
    | some quoted => readQuoted quoted
    | none => some (value, rest)

/-- The name and the value of a parameter, and what stands behind it. The asterisk of an extended
parameter is no part of its name. -/
def readParameter (bytes : Bytes) : Option ((Bytes × Bytes) × Bytes) := do
  let (name, rest) := (bytes.dropWhile Ascii.isLineBlank).span (· != 0x3d)
  let extended := name.getLast? == some 0x2a
  let (value, rest) ← readValue extended (← behind? 0x3d rest)
  return ((if extended then name.dropLast else name, value), rest)

theorem length_lt_of_behind? {mark : UInt8} {bytes rest : Bytes}
    (h : behind? mark bytes = some rest) :
    rest.length < bytes.length := by
  cases bytes with
  | nil => cases h
  | cons b behind =>
      rw [behind?] at h
      split at h
      · obtain rfl := Option.some.inj h
        exact Nat.lt_succ_self _
      · cases h

theorem length_span_le (p : UInt8 → Bool) (bytes : Bytes) :
    (bytes.span p).2.length ≤ bytes.length := by
  rw [List.span_eq_takeWhile_dropWhile]
  exact (List.dropWhile_sublist p).length_le

/-- A byte in front of a value that was read. -/
theorem exists_of_map_cons {b : UInt8} {read : Option (Bytes × Bytes)} {value rest : Bytes}
    (h : (read.map fun (value, behind) => (b :: value, behind)) = some (value, rest)) :
    ∃ more, read = some (more, rest) ∧ value = b :: more := by
  obtain ⟨⟨more, left⟩, hread, heq⟩ := Option.map_eq_some_iff.1 h
  obtain ⟨rfl, rfl⟩ := Prod.mk.inj heq
  exact ⟨more, hread, rfl⟩

theorem length_lt_of_readQuoted {bytes value rest : Bytes}
    (h : readQuoted bytes = some (value, rest)) :
    rest.length < bytes.length := by
  fun_induction readQuoted bytes generalizing value with
  | case1 => cases h
  | case2 behind =>
      obtain ⟨-, rfl⟩ := Prod.mk.inj (Option.some.inj h)
      exact Nat.lt_succ_self _
  | case3 b behind ih =>
      obtain ⟨more, hmore, -⟩ := exists_of_map_cons h
      have := ih hmore
      simp only [List.length_cons]
      omega
  | case4 b behind _ _ ih =>
      obtain ⟨more, hmore, -⟩ := exists_of_map_cons h
      have := ih hmore
      simp only [List.length_cons]
      omega

theorem length_le_of_readValue {extended : Bool} {bytes value rest : Bytes}
    (h : readValue extended bytes = some (value, rest)) : rest.length ≤ bytes.length := by
  have hspan := length_span_le (· != 0x3b) bytes
  unfold readValue at h
  dsimp only at h
  split at h
  · obtain ⟨_, -, heq⟩ := Option.map_eq_some_iff.1 h
    obtain ⟨-, rfl⟩ := Prod.mk.inj heq
    exact hspan
  · split at h
    · next quoted hquoted =>
        exact Nat.le_of_lt (Nat.lt_trans (length_lt_of_readQuoted h) (length_lt_of_behind? hquoted))
    · obtain ⟨-, rfl⟩ := Prod.mk.inj (Option.some.inj h)
      exact hspan

theorem length_le_of_readParameter {bytes rest : Bytes} {parameter : Bytes × Bytes}
    (h : readParameter bytes = some (parameter, rest)) : rest.length ≤ bytes.length := by
  obtain ⟨behind, hbehind, h⟩ := Option.bind_eq_some_iff.1 h
  obtain ⟨⟨value, left⟩, hvalue, h⟩ := Option.bind_eq_some_iff.1 h
  obtain ⟨-, rfl⟩ := Prod.mk.inj (Option.some.inj h)
  have hblanks := (List.dropWhile_sublist Ascii.isLineBlank (l := bytes)).length_le
  have hspan := length_span_le (· != 0x3d) (bytes.dropWhile Ascii.isLineBlank)
  have hmark : behind.length < ((bytes.dropWhile Ascii.isLineBlank).span (· != 0x3d)).2.length :=
    length_lt_of_behind? hbehind
  have := length_le_of_readValue hvalue
  omega

/-- The parameters, with a semicolon in front of each. -/
def readParameters (bytes : Bytes) : Option (List (Bytes × Bytes)) :=
  match _hmark : behind? 0x3b bytes with
  | none => if bytes.isEmpty then some [] else none
  | some rest =>
    match _hparameter : readParameter rest with
    | none => none
    | some (parameter, behind) => (readParameters behind).map (parameter :: ·)
termination_by bytes.length
decreasing_by
  have := length_lt_of_behind? _hmark
  have := length_le_of_readParameter _hparameter
  omega

/-- What the parameters say about a part of a kind. -/
def ofParameters (kind : Bytes) (parameters : List (Bytes × Bytes)) : Disposition where
  kind
  name := parameters.lookup (Bytes.ofText "name")
  fileName := parameters.lookup (Bytes.ofText "filename")

/-- What a part is, by the body of its line. -/
def read (body : Bytes) : Option Disposition :=
  let (kind, rest) := (body.dropWhile Ascii.isLineBlank).span (· != 0x3b)
  (readParameters rest).map (ofParameters kind)

/-- What a part is, by its header line of that name. -/
def readLine (line : Bytes) : Option Disposition := do
  let (name, body) ← readField line
  guard (Bytes.toLower name == Bytes.ofText "content-disposition")
  read body

/-! ### Steps of the reader -/

theorem readParameters_nil : readParameters [] = some [] := by
  rw [readParameters]
  rfl

theorem readParameters_cons (bytes : Bytes) :
    readParameters (0x3b :: bytes) = (readParameter bytes).bind fun (parameter, behind) =>
      (readParameters behind).map (parameter :: ·) := by
  rw [readParameters]
  split
  · next h => cases h
  · next rest h =>
      obtain rfl : bytes = rest := Option.some.inj h
      split
      · next h => rw [h]; rfl
      · next h => rw [h]; rfl

/-- The bytes can name a parameter that is not extended. -/
def IsPlainName (name : Bytes) : Prop :=
  name.all (fun b => !Ascii.isLineBlank b && b != 0x3d) = true ∧ name.getLast? ≠ some 0x2a

instance (name : Bytes) : Decidable (IsPlainName name) := inferInstanceAs (Decidable (_ ∧ _))

/-- A word behind a blank goes up to its mark. -/
theorem span_word {mark : UInt8} (hmark : Ascii.isLineBlank mark = false) {word : Bytes}
    (h : word.all (fun b => !Ascii.isLineBlank b && b != mark) = true) (rest : Bytes) :
    ((0x20 :: (word ++ mark :: rest)).dropWhile Ascii.isLineBlank).span (· != mark) =
      (word, mark :: rest) := by
  have hword : ∀ b ∈ word, Ascii.isLineBlank b = false ∧ (b != mark) = true := by
    intro b hmem
    have hb := List.all_eq_true.1 h b hmem
    rwa [Bool.and_eq_true, Bool.not_eq_true'] at hb
  have hblanks : (0x20 :: (word ++ mark :: rest)).dropWhile Ascii.isLineBlank =
      word ++ mark :: rest := by
    rw [List.dropWhile_cons_of_pos (by decide)]
    cases word with
    | nil => exact List.dropWhile_cons_of_neg (ne_true_of_eq_false hmark)
    | cons b word =>
        exact List.dropWhile_cons_of_neg (ne_true_of_eq_false (hword b List.mem_cons_self).1)
  rw [hblanks]
  exact span_append (fun b hmem => (hword b hmem).2) (by simp)

theorem readParameter_quoted {name : Bytes} (h : IsPlainName name) (rest : Bytes) :
    readParameter (0x20 :: (name ++ 0x3d :: 0x22 :: rest)) =
      (readQuoted rest).map fun (value, behind) => ((name, value), behind) := by
  have hextended : (name.getLast? == some 0x2a) = false := beq_eq_false_iff_ne.2 h.2
  rw [readParameter, span_word (by decide) h.1]
  simp only [behind?, if_true, Option.bind_eq_bind, Option.bind_some, hextended, readValue,
    Bool.false_eq_true, if_false]
  cases readQuoted rest with
  | none => rfl
  | some back => rfl

theorem readParameter_extended {name value rest : Bytes} (h : IsPlainName name)
    (hvalue : 0x3b ∉ value) (hrest : ∀ b ∈ rest.head?, b = 0x3b) :
    readParameter (0x20 :: (name ++ 0x2a :: 0x3d :: (value ++ rest))) =
      (readExtended value).map fun value => ((name, value), rest) := by
  have hall : (name ++ [0x2a]).all (fun b => !Ascii.isLineBlank b && b != 0x3d) = true := by
    rw [List.all_append, h.1]
    rfl
  have hname := span_word (by decide : Ascii.isLineBlank 0x3d = false) hall (value ++ rest)
  rw [List.append_assoc, List.singleton_append] at hname
  have hextended : ((name ++ [0x2a]).getLast? == some 0x2a) = true := by simp
  have hspan : (value ++ rest).span (· != 0x3b) = (value, rest) := by
    refine span_append (fun b hmem => ?_) fun b hmem => ?_
    · exact bne_iff_ne.2 fun heq => hvalue (heq ▸ hmem)
    · rw [hrest b hmem]
      rfl
  rw [readParameter, hname]
  simp only [behind?, if_true, Option.bind_eq_bind, Option.bind_some, hextended, readValue, hspan,
    List.dropLast_concat]
  cases readExtended value with
  | none => rfl
  | some value => rfl

theorem readExtended_utf8 (encoded : Bytes) :
    readExtended (Bytes.ofText "utf-8''" ++ encoded) = some (Percent.decode encoded) := by
  have hcharset : (Bytes.ofText "utf-8''" ++ encoded).span (· != 0x27) =
      (Bytes.ofText "utf-8", 0x27 :: 0x27 :: encoded) :=
    span_append_cons (by decide : (Bytes.ofText "utf-8").all _ = true) (by decide) (0x27 :: encoded)
  have hlanguage : (0x27 :: encoded).span (· != 0x27) = ([], 0x27 :: encoded) :=
    span_append_cons (by decide : ([] : Bytes).all _ = true) (by decide) encoded
  have hutf8 : (Bytes.toLower (Bytes.ofText "utf-8") == Bytes.ofText "utf-8") = true := by decide
  rw [readExtended, hcharset]
  dsimp only
  rw [hutf8]
  show (behind? 0x27 ((0x27 :: encoded).span (· != 0x27)).2).bind
    (fun rest => some (Percent.decode rest)) = _
  rw [hlanguage]
  rfl

theorem read_kind {kind : Bytes} (h : kind.all (fun b => !Ascii.isLineBlank b && b != 0x3b) = true)
    (rest : Bytes) :
    read (0x20 :: (kind ++ 0x3b :: rest)) = (readParameter rest).bind fun (first, behind) =>
      (readParameters behind).map fun more => ofParameters kind (first :: more) := by
  have hspan := span_word (by decide : Ascii.isLineBlank 0x3b = false) h rest
  unfold read
  rw [hspan]
  dsimp only
  rw [readParameters_cons]
  cases readParameter rest with
  | none => rfl
  | some back =>
      simp only [Option.bind_some, Option.map_map]
      rfl

end Disposition

/-! ### Quoted values -/

namespace Mime

theorem readQuoted_plain {b : UInt8} (hquote : b ≠ 0x22) (hbackslash : b ≠ 0x5c) (rest : Bytes) :
    readQuoted (b :: rest) = (readQuoted rest).map fun (value, behind) => (b :: value, behind) :=
  readQuoted.eq_4 b rest hquote fun _ _ h => absurd h hbackslash

theorem readQuoted_escaped (bytes rest : Bytes) :
    readQuoted (bytes.flatMap Part.escapeFileByte ++ 0x22 :: rest) = some (bytes, rest) := by
  induction bytes with
  | nil => rfl
  | cons b bytes ih =>
      rw [List.flatMap_cons, Part.escapeFileByte]
      split
      · show readQuoted (0x5c :: b :: (bytes.flatMap Part.escapeFileByte ++ 0x22 :: rest)) = _
        rw [readQuoted, ih]
        rfl
      · next hplain =>
          simp only [Bool.or_eq_true, beq_iff_eq, not_or] at hplain
          rw [List.singleton_append, List.cons_append,
            readQuoted_plain hplain.1.1.2 hplain.1.1.1, ih]
          rfl

/-- Bytes without a quote and without a backslash are read as they are. -/
theorem readQuoted_of_plain {bytes : Bytes} (hquote : 0x22 ∉ bytes) (hbackslash : 0x5c ∉ bytes)
    (rest : Bytes) : readQuoted (bytes ++ 0x22 :: rest) = some (bytes, rest) := by
  induction bytes with
  | nil => rfl
  | cons b bytes ih =>
      simp only [List.mem_cons, not_or] at hquote hbackslash
      rw [List.cons_append, readQuoted_plain (Ne.symm hquote.1) (Ne.symm hbackslash.1),
        ih hquote.2 hbackslash.2]
      rfl

/-- A backslash is lost. What is read is shorter by it, or goes on behind the closing quote. -/
theorem readQuoted_loses (bytes : Bytes) (hquote : 0x22 ∉ bytes) {rest value behind : Bytes}
    (h : readQuoted (bytes ++ 0x22 :: rest) = some (value, behind)) :
    0x22 ∈ value ∨ value.length ≤ bytes.length ∧ (0x5c ∈ bytes → value.length < bytes.length) := by
  match bytes with
  | [] =>
      obtain ⟨rfl, -⟩ := Prod.mk.inj (Option.some.inj h)
      exact .inr ⟨Nat.le_refl _, fun hmem => absurd hmem List.not_mem_nil⟩
  | [b] =>
      by_cases hb : b = 0x5c
      · -- The closing quote belongs to the backslash.
        obtain rfl := hb
        obtain ⟨more, -, rfl⟩ := Disposition.exists_of_map_cons h
        exact .inl List.mem_cons_self
      · have hquote : b ≠ 0x22 := fun heq => hquote (heq ▸ List.mem_cons_self)
        rw [List.singleton_append, readQuoted_plain hquote hb] at h
        obtain ⟨rfl, -⟩ := Prod.mk.inj (Option.some.inj h)
        exact .inr ⟨Nat.le_refl _, fun hmem => absurd (List.mem_singleton.1 hmem).symm hb⟩
  | b :: c :: bytes =>
      have hquotes : b ≠ 0x22 ∧ c ≠ 0x22 ∧ 0x22 ∉ bytes := by
        simpa [eq_comm] using hquote
      by_cases hb : b = 0x5c
      · obtain rfl := hb
        obtain ⟨more, hmore, rfl⟩ := Disposition.exists_of_map_cons h
        rcases readQuoted_loses bytes hquotes.2.2 hmore with hmem | ⟨hlength, -⟩
        · exact .inl (List.mem_cons_of_mem _ hmem)
        · simp only [List.length_cons]
          exact .inr ⟨by omega, fun _ => by omega⟩
      · rw [List.cons_append, readQuoted_plain hquotes.1 hb] at h
        obtain ⟨more, hmore, rfl⟩ := Disposition.exists_of_map_cons h
        rcases readQuoted_loses (c :: bytes) (List.not_mem_cons_of_ne_of_not_mem
          (Ne.symm hquotes.2.1) hquotes.2.2) hmore with hmem | ⟨hlength, hless⟩
        · exact .inl (List.mem_cons_of_mem _ hmem)
        · simp only [List.length_cons] at hlength hless ⊢
          refine .inr ⟨by omega, fun hmem => ?_⟩
          have := hless ((List.mem_cons.1 hmem).resolve_left (Ne.symm hb))
          omega

end Mime

/-! ### The line of a part -/

namespace Part

/-- What stands behind the name of a part. -/
def fileNameSuffix (fileName : Option String) : Bytes :=
  match fileName with
  | some fileName => Bytes.ofText "; " ++ fileNameParameter fileName
  | none => []

theorem head?_fileNameSuffix (fileName : Option String) :
    ∀ b ∈ (fileNameSuffix fileName).head?, b = 0x3b := by
  cases fileName with
  | none => exact fun b hb => absurd hb (by simp [fileNameSuffix])
  | some fileName => exact fun b hb => (Option.some.inj hb).symm

/-- Whatever a file name holds, it is read back. -/
theorem readParameters_fileNameSuffix (fileName : Option String) :
    Disposition.readParameters (fileNameSuffix fileName) =
      some (fileName.map fun f => (Bytes.ofText "filename", Bytes.ofText f)).toList := by
  cases fileName with
  | none => exact Disposition.readParameters_nil
  | some fileName =>
      have hsuffix : fileNameSuffix (some fileName) =
          0x3b :: 0x20 :: (Bytes.ofText "filename" ++ 0x3d :: 0x22 ::
            ((Bytes.ofText fileName).flatMap escapeFileByte ++ 0x22 :: [])) := by
        simp only [fileNameSuffix, fileNameParameter, List.append_assoc]
        rfl
      rw [hsuffix, Disposition.readParameters_cons, Disposition.readParameter_quoted (by decide),
        readQuoted_escaped]
      simp only [Option.map_some, Option.bind_some, Disposition.readParameters_nil]
      rfl

/-- What the line of a part should say. -/
def described (name : String) (p : Part) : Disposition where
  kind := Bytes.ofText "form-data"
  name := some (Bytes.ofText name)
  fileName := p.metadata.fileName.map Bytes.ofText

/-- The name of a part has no byte that its form does not escape: no backslash if it is written
between quotes, and no semicolon if it is percent-encoded. -/
def IsReadable (name : String) : Prop :=
  if (Bytes.ofText name).all keepsInName = true then 0x5c ∉ Bytes.ofText name
  else 0x3b ∉ Bytes.ofText name

/-- The line of a part is read as its kind, the parameter with its name, and what stands behind
that. -/
theorem readLine_disposition (name : String) (p : Part) :
    Disposition.readLine (lineBytes ("Content-Disposition", p.disposition name)) =
      (Disposition.readParameter
        (0x20 :: (nameParameter name ++ fileNameSuffix p.metadata.fileName))).bind
        fun (first, behind) => (Disposition.readParameters behind).map fun more =>
          Disposition.ofParameters (Bytes.ofText "form-data") (first :: more) := by
  have hline : lineBytes ("Content-Disposition", p.disposition name) =
      fieldLine (field "Content-Disposition" (p.disposition name)) := by
    simp only [lineBytes, fieldLine, field, List.append_assoc]
    rfl
  have hbody : 0x20 :: p.disposition name = 0x20 :: (Bytes.ofText "form-data" ++ 0x3b ::
      0x20 :: (nameParameter name ++ fileNameSuffix p.metadata.fileName)) := by
    simp only [disposition, List.append_assoc]
    rfl
  have hname : (Bytes.toLower (Bytes.ofText "Content-Disposition") ==
      Bytes.ofText "content-disposition") = true := by decide
  rw [hline, Disposition.readLine, readField_fieldLine (by decide : IsName (Bytes.ofText _)), field]
  dsimp only [Option.bind_eq_bind, Option.bind_some]
  rw [hname, hbody]
  exact Disposition.read_kind (by decide) _

/-- If the first parameter is the name and the file name follows, the line says both. -/
theorem readLine_of_name {name : String} {p : Part} {value : Bytes}
    (h : Disposition.readParameter
      (0x20 :: (nameParameter name ++ fileNameSuffix p.metadata.fileName)) =
        some ((Bytes.ofText "name", value), fileNameSuffix p.metadata.fileName)) :
    Disposition.readLine (lineBytes ("Content-Disposition", p.disposition name)) =
      some { p.described name with name := some value } := by
  rw [readLine_disposition, h]
  simp only [Option.bind_some, readParameters_fileNameSuffix, Option.map_some, described]
  cases p.metadata.fileName with
  | none => rfl
  | some fileName => rfl

/-- The line names a part as its first parameter does. -/
theorem name_of_readLine {name : String} {p : Part} {value behind : Bytes} {d : Disposition}
    (h : Disposition.readParameter
      (0x20 :: (nameParameter name ++ fileNameSuffix p.metadata.fileName)) =
        some ((Bytes.ofText "name", value), behind))
    (hline : Disposition.readLine (lineBytes ("Content-Disposition", p.disposition name)) =
      some d) :
    d.name = some value := by
  rw [readLine_disposition, h, Option.bind_some] at hline
  obtain ⟨more, -, rfl⟩ := Option.map_eq_some_iff.1 hline
  rfl

/-! ### Names between quotes -/

theorem readParameter_quotedName {name : String} (h : (Bytes.ofText name).all keepsInName = true)
    (rest : Bytes) : Disposition.readParameter (0x20 :: (nameParameter name ++ rest)) =
      (readQuoted (Bytes.ofText name ++ 0x22 :: rest)).map fun (value, behind) =>
        ((Bytes.ofText "name", value), behind) := by
  have hparameter : nameParameter name ++ rest =
      Bytes.ofText "name" ++ 0x3d :: 0x22 :: (Bytes.ofText name ++ 0x22 :: rest) := by
    rw [nameParameter, if_pos h]
    simp only [List.append_assoc]
    rfl
  rw [hparameter, Disposition.readParameter_quoted (by decide)]

theorem quote_not_mem {name : String} (h : (Bytes.ofText name).all keepsInName = true) :
    0x22 ∉ Bytes.ofText name := by
  intro hmem
  exact absurd (List.all_eq_true.1 h _ hmem) (by decide)

theorem reads_back_quoted {name : String} (h : (Bytes.ofText name).all keepsInName = true)
    (p : Part) :
    Disposition.readLine (lineBytes ("Content-Disposition", p.disposition name)) =
      some (p.described name) ↔
      0x5c ∉ Bytes.ofText name := by
  have hparameter := readParameter_quotedName h (fileNameSuffix p.metadata.fileName)
  constructor
  · intro hline hbackslash
    cases hquoted :
      readQuoted (Bytes.ofText name ++ 0x22 :: fileNameSuffix p.metadata.fileName) with
    | none =>
        rw [readLine_disposition, hparameter, hquoted] at hline
        cases hline
    | some back =>
        obtain ⟨value, behind⟩ := back
        rw [hquoted] at hparameter
        have hvalue : Bytes.ofText name = value :=
          Option.some.inj (name_of_readLine hparameter hline)
        rcases readQuoted_loses _ (quote_not_mem h) hquoted with hmem | ⟨-, hless⟩
        · rw [← hvalue] at hmem
          exact quote_not_mem h hmem
        · have hlength := hless hbackslash
          rw [hvalue] at hlength
          exact Nat.lt_irrefl _ hlength
  · intro hbackslash
    rw [readQuoted_of_plain (quote_not_mem h) hbackslash] at hparameter
    exact readLine_of_name hparameter

/-! ### Percent-encoded names -/

/-- A byte string as it stands in an extended value. -/
def encodedName (bytes : Bytes) : Bytes := (Percent.encode keepsInName bytes).map Ascii.byte

theorem decode_encodedName (bytes : Bytes) : Percent.decode (encodedName bytes) = bytes :=
  Percent.decode_encode
    (fun _ hkeeps => UInt8.lt_trans (visible_of_keepsInName hkeeps).2 (by decide))
    (by decide) bytes

theorem encodedName_append (a b : Bytes) :
    encodedName (a ++ b) = encodedName a ++ encodedName b := by
  rw [encodedName, Percent.encode_append, List.map_append]
  rfl

/-- A semicolon stands for itself, and for nothing else. -/
theorem semicolon_mem_encodedName {bytes : Bytes} : 0x3b ∈ encodedName bytes ↔ 0x3b ∈ bytes := by
  have htriplet : ∀ b : UInt8, 0x3b ∉ (Percent.triplet b).map Ascii.byte :=
    forall_byte (by decide +kernel)
  have hbyte : ∀ b : UInt8, 0x3b ∈ (Percent.encodeByte keepsInName b).map Ascii.byte ↔
      0x3b = b := by
    intro b
    rw [Percent.encodeByte]
    split
    · next hkeeps =>
        rw [List.map_singleton, Percent.byte_asciiChar
          (UInt8.lt_trans (visible_of_keepsInName hkeeps).2 (by decide)), List.mem_singleton]
    · next hdrops =>
        refine ⟨fun hmem => absurd hmem (htriplet b), ?_⟩
        rintro rfl
        exact absurd rfl hdrops
  induction bytes with
  | nil => simp [encodedName]
  | cons b bytes ih =>
      have hcons : encodedName (b :: bytes) =
          (Percent.encodeByte keepsInName b).map Ascii.byte ++ encodedName bytes := by
        rw [encodedName, Percent.encode_cons, List.map_append]
        rfl
      simp only [hcons, List.mem_append, List.mem_cons, hbyte, ih]

/-- A percent-encoded name goes up to its first semicolon. -/
theorem readParameter_extendedName {name : String}
    (h : ¬ (Bytes.ofText name).all keepsInName = true) {front behind : Bytes}
    (hname : Bytes.ofText name = front ++ behind) (hfront : 0x3b ∉ front)
    (hbehind : ∀ b ∈ behind.head?, b = 0x3b) {rest : Bytes} (hrest : ∀ b ∈ rest.head?, b = 0x3b) :
    Disposition.readParameter (0x20 :: (nameParameter name ++ rest)) =
      some ((Bytes.ofText "name", front), encodedName behind ++ rest) := by
  have hencoded : Bytes.ofText (Percent.encodeText keepsInName name) =
      encodedName front ++ encodedName behind := by
    rw [Percent.encodeText, Bytes.ofText_ofList_of_ascii fun c hc =>
      Nat.lt_trans (visible_of_mem_encode hc).2 (by decide), ← encodedName_append, ← hname]
    rfl
  have hparameter : nameParameter name ++ rest = Bytes.ofText "name" ++ 0x2a :: 0x3d ::
      ((Bytes.ofText "utf-8''" ++ encodedName front) ++ (encodedName behind ++ rest)) := by
    rw [nameParameter, if_neg h, hencoded]
    simp only [List.append_assoc]
    rfl
  have hvalue : 0x3b ∉ Bytes.ofText "utf-8''" ++ encodedName front :=
    List.not_mem_append (by decide) (mt semicolon_mem_encodedName.1 hfront)
  have hstop : ∀ b ∈ (encodedName behind ++ rest).head?, b = 0x3b := by
    cases behind with
    | nil => exact hrest
    | cons b behind =>
        obtain rfl := hbehind b rfl
        exact fun c hc => (Option.some.inj hc).symm
  rw [hparameter, Disposition.readParameter_extended (by decide) hvalue hstop,
    Disposition.readExtended_utf8, decode_encodedName]
  rfl

theorem reads_back_extended {name : String} (h : ¬ (Bytes.ofText name).all keepsInName = true)
    (p : Part) : Disposition.readLine (lineBytes ("Content-Disposition", p.disposition name)) =
      some (p.described name) ↔ 0x3b ∉ Bytes.ofText name := by
  have hrest := head?_fileNameSuffix p.metadata.fileName
  constructor
  · intro hline
    obtain ⟨front, behind, hname, hfront, hbehind⟩ := exists_span (· != 0x3b) (Bytes.ofText name)
    have hlacks : 0x3b ∉ front := fun hmem => absurd (hfront _ hmem) (by decide)
    have hparameter := readParameter_extendedName h hname hlacks
      (fun b hb => by simpa using hbehind b hb) hrest
    -- Only the front of the name comes back, so it is the whole name.
    have hvalue : Bytes.ofText name = front := Option.some.inj (name_of_readLine hparameter hline)
    rwa [hvalue]
  · intro hlacks
    exact readLine_of_name
      (readParameter_extendedName h (List.append_nil _).symm hlacks (by simp) hrest)

/-! ### Reading back -/

/-- **What the line of a part says.** The name and the file name are read back if the form in which
the name is written escapes every byte of it that it must, whatever the file name is, and otherwise
they are not. -/
theorem disposition_reads_back (name : String) (p : Part) :
    ∃ value, (p.headerLines name).head? = some ("Content-Disposition", value)
      ∧ (Disposition.readLine (lineBytes ("Content-Disposition", value)) = some (p.described name) ↔
        IsReadable name) := by
  refine ⟨p.disposition name, rfl, ?_⟩
  unfold IsReadable
  split
  · next h => exact reads_back_quoted h p
  · next h => exact reads_back_extended h p

/-- A backslash in a name is lost. -/
theorem backslash_in_name_lost :
    Disposition.readLine (lineBytes ("Content-Disposition", (text "x").disposition "a\\b")) =
        some ⟨Bytes.ofText "form-data", some (Bytes.ofText "ab"), none⟩
      ∧ Disposition.readLine (lineBytes ("Content-Disposition", (text "x").disposition "a\\b")) ≠
        some ((text "x").described "a\\b") := by
  have hplain : (Bytes.ofText "a\\b").all keepsInName = true := by decide
  have hparameter :
      Disposition.readParameter (0x20 :: (nameParameter "a\\b" ++ fileNameSuffix none)) =
        some ((Bytes.ofText "name", Bytes.ofText "ab"), fileNameSuffix none) := by
    rw [readParameter_quotedName hplain]
    rfl
  refine ⟨readLine_of_name (p := text "x") hparameter, fun hline => ?_⟩
  exact (reads_back_quoted hplain (text "x")).1 hline (by decide)

end Part

end ApiClient
