/-
# The header of a response

A response is sent as the lines of its header, an empty line, and its content.
As none of the lines holds a line feed, the first empty line is the one behind
the header: there a reader finds the content, and before it the header lines as
they were written.

* `Response.fields`: the names and values in the header
* `Response.InLines.headerEnd?_bytes`: the first empty line of what is sent
* `Response.InLines.entriesIn_bytes`: the header lines that are read
* `Response.valuesOf_headerLines`: the values that are read under a name
-/
import PageServer.Http.Response
import PageServer.Proofs.Http.Sending
import PageServer.Proofs.Number.Digits

namespace PageServer

namespace Response

/-! ## Header lines -/

/-- What the header of a response says: names, each with its values, in order. -/
def fields (response : Response) (date : Text) : List (Text × List Text) :=
  [("Content-Type", response.contentType.toList),
    ("Content-Encoding", (response.encoding.map Encoding.name).toList),
    ("Content-Length", [Text.ofNat response.contentLength]),
    ("Date", [date]),
    ("Server", [serverName]),
    ("Location", response.location.toList),
    ("Set-Cookie", response.cookies),
    ("Allow", (response.allowed.map fun methods =>
      Text.join ", " (methods.map Method.name)).toList)]

/-- There is a header line for each value. -/
theorem headerLines_eq (response : Response) (date : Text) :
    response.headerLines date =
      (response.fields date).flatMap fun field => field.2.map (headerLine field.1) := by
  have htoList {α : Type} (f : α → Text) (option : Option α) :
      (option.map f).toList = option.toList.map f := by cases option <;> rfl
  simp only [headerLines, fields, List.flatMap_cons, List.flatMap_nil, htoList, List.map_map,
    Function.comp_def, List.map_cons, List.map_nil, List.append_assoc, List.cons_append,
    List.nil_append, List.append_nil]

/-- What holds of the eight names holds of the name of each field. -/
theorem forall_fields {p : Text → Prop} (response : Response) (date : Text)
    (h : ∀ name ∈ (({} : Response).fields []).map Prod.fst, p name) :
    ∀ field ∈ response.fields date, p field.1 :=
  fun _ hfield => h _ (List.mem_map_of_mem hfield : _ ∈ (response.fields date).map Prod.fst)

/-- The texts in a response stand in one line each. -/
structure InLines (response : Response) : Prop where
  /-- The reason phrase. -/
  reason : '\n' ∉ response.status.reason
  /-- The kind of the content. -/
  contentType : ∀ kind ∈ response.contentType, '\n' ∉ kind
  /-- Where to look instead. -/
  location : ∀ location ∈ response.location, '\n' ∉ location
  /-- The cookies. -/
  cookies : ∀ cookie ∈ response.cookies, '\n' ∉ cookie

/-- The digits of a number stand in one line. -/
theorem not_mem_ofNat (n : Nat) : '\n' ∉ Text.ofNat n :=
  fun h => absurd (Text.isDigit_of_mem_ofNat h) (by decide)

/-- So do the names of methods. -/
theorem not_mem_methods (methods : List Method) :
    '\n' ∉ Text.join ", " (methods.map Method.name) := by
  intro hmem
  rcases Text.mem_or_of_mem_join hmem with hsep | ⟨name, hname, hin⟩
  · exact absurd hsep (by decide)
  · obtain ⟨method, -, rfl⟩ := List.mem_map.mp hname
    exact absurd (Method.isCapital_of_mem_name hin) (by decide)

/-- All values stand in one line each. -/
theorem InLines.fields_lines {response : Response} (h : response.InLines) {date : Text}
    (hdate : '\n' ∉ date) : ∀ field ∈ response.fields date, ∀ value ∈ field.2, '\n' ∉ value := by
  have hencoding : ∀ encoding ∈ response.encoding, '\n' ∉ encoding.name := by
    intro encoding _
    cases encoding <;> decide
  have hmethods : ∀ methods ∈ response.allowed,
      '\n' ∉ Text.join ", " (methods.map Method.name) := fun methods _ => not_mem_methods methods
  have hlength := not_mem_ofNat response.contentLength
  have hserver : '\n' ∉ serverName := by decide
  simp only [fields, List.forall_mem_cons]
  exact ⟨by simpa using h.contentType, by simpa using hencoding, by simpa using hlength,
    by simpa using hdate, by simpa using hserver, by simpa using h.location, h.cookies,
    by simpa using hmethods, nofun⟩

/-- The header is lines, of which none is empty. -/
theorem InLines.headerLines_lines {response : Response} (h : response.InLines) {date : Text}
    (hdate : '\n' ∉ date) : ∀ line ∈ response.headerLines date, '\n' ∉ line ∧ line ≠ [] := by
  have hnames := response.forall_fields (p := fun name => '\n' ∉ name) date (by decide)
  intro line hline
  rw [headerLines_eq] at hline
  obtain ⟨field, hfield, hvalue⟩ := List.mem_flatMap.mp hline
  obtain ⟨value, hmem, rfl⟩ := List.mem_map.mp hvalue
  refine ⟨?_, List.append_ne_nil_of_right_ne_nil _ (List.cons_ne_nil _ _)⟩
  simp [headerLine, hnames field hfield, h.fields_lines hdate field hfield value hmem]

/-- The first line is one line. -/
theorem InLines.not_mem_statusLine {response : Response} (h : response.InLines) :
    '\n' ∉ response.statusLine := by
  have hversion : '\n' ∉ ("HTTP/".toList ++ Request.version) := by decide
  have hcode : '\n' ∉ ' ' :: Text.ofNat response.status.code :=
    List.not_mem_cons_of_ne_of_not_mem (by decide) (not_mem_ofNat _)
  have hreason : '\n' ∉ ' ' :: response.status.reason :=
    List.not_mem_cons_of_ne_of_not_mem (by decide) h.reason
  exact List.not_mem_append (List.not_mem_append hversion hcode) hreason

/-! ## What is read of the bytes -/

variable {response : Response} {date : Text}

/-- The header ends at its empty line. -/
theorem InLines.cutAt_header (h : response.InLines) (hdate : '\n' ∉ date) :
    Text.cutAt Http.blankLine (response.header date) =
      some (Text.join Http.lineEnd (response.statusLine :: response.headerLines date), []) := by
  have hcut := Request.cutAt_ended h.not_mem_statusLine (h.headerLines_lines hdate) []
  rw [List.append_nil] at hcut
  exact hcut

/-- The header is its lines with an empty line behind them. -/
theorem InLines.header_eq (h : response.InLines) (hdate : '\n' ∉ date) :
    response.header date =
      Text.join Http.lineEnd (response.statusLine :: response.headerLines date) ++
        Http.blankLine := by
  have hcut := (Text.eq_of_cutAt (h.cutAt_header hdate)).1
  rwa [List.append_nil] at hcut

/-- **The first empty line of what is sent is the one behind the header.** -/
theorem InLines.headerEnd?_bytes (h : response.InLines) (hdate : '\n' ∉ date) :
    Http.headerEnd? (response.bytes date) = some (Utf8.encode (response.header date)).length := by
  -- whatever the content is, the header has ended before it
  apply Http.headerEnd?_append
  rw [Http.headerEnd?_encode, h.cutAt_header hdate, Option.map_some, ← h.header_eq hdate]

/-- The header lines that are read of what is sent: those behind the first line, up to the first
empty line. -/
def entriesIn (sent : Bytes) : List Text :=
  match Http.headerEnd? sent with
  | some size =>
    (Request.headerLines (Utf8.decodeLossy (sent.take (size - Http.emptyLine.length)))).tail
  | none => []

/-- **The header lines are read as they were written.** -/
theorem InLines.entriesIn_bytes (h : response.InLines) (hdate : '\n' ∉ date) :
    entriesIn (response.bytes date) = response.headerLines date := by
  have hlines : ∀ line ∈ response.statusLine :: response.headerLines date, '\n' ∉ line :=
    List.forall_mem_cons.mpr
      ⟨h.not_mem_statusLine, fun line hline => (h.headerLines_lines hdate line hline).1⟩
  have hread := Request.headerLines_join hlines (List.cons_ne_nil _ _)
  have hheader := h.header_eq hdate
  generalize Text.join Http.lineEnd (response.statusLine :: response.headerLines date) = head
    at hread hheader
  have hsize : (Utf8.encode (response.header date)).length - Http.emptyLine.length =
      (Utf8.encode head).length := by
    rw [hheader, Utf8.encode_append, Http.encode_blankLine, List.length_append,
      Nat.add_sub_cancel]
  have htake : (response.bytes date).take (Utf8.encode head).length = Utf8.encode head := by
    rw [bytes, hheader, Utf8.encode_append, List.append_assoc, List.take_left]
  rw [entriesIn, h.headerEnd?_bytes hdate]
  dsimp only
  rw [hsize, htake, Utf8.decodeLossy_encode, hread, List.tail_cons]

/-- The value of a header line with a name, in letters of either case. -/
def valueIn? (name line : Text) : Option Text :=
  (Text.cut ':' line).bind fun sides =>
    if Text.sameLetters sides.1 name then Text.after? [' '] sides.2 else none

/-- The values of the header lines with a name, in order. -/
def valuesOf (name : Text) (lines : List Text) : List Text := lines.filterMap (valueIn? name)

/-- The value of a header line is read as it was written. -/
theorem valueIn?_headerLine {field : Text} (h : ':' ∉ field) (name value : Text) :
    valueIn? name (headerLine field value) =
      if Text.sameLetters field name then some value else none := by
  have hcut : Text.cut ':' (headerLine field value) = some (field, ' ' :: value) :=
    Text.cut_append h _
  rw [valueIn?, hcut]
  rfl

/-- **The values with a name are those of the fields with this name.** -/
theorem valuesOf_headerLines (response : Response) (date name : Text) :
    valuesOf name (response.headerLines date) =
      (response.fields date).flatMap fun field =>
        if Text.sameLetters field.1 name then field.2 else [] := by
  have hnames := response.forall_fields (p := fun name => ':' ∉ name) date (by decide)
  rw [headerLines_eq, valuesOf, List.filterMap_flatMap]
  refine List.flatMap_congr fun field hfield => ?_
  have hvalue : valueIn? name ∘ headerLine field.1 =
      fun value => if Text.sameLetters field.1 name then some value else none :=
    funext (valueIn?_headerLine (hnames field hfield) name)
  rw [List.filterMap_map, hvalue]
  split_ifs with hname
  · exact List.filterMap_some
  · exact List.filterMap_none _

/-- The lengths, the ways of compression and the cookies that are read of the header lines. -/
theorem values_headerLines (response : Response) (date : Text) :
    let lines := response.headerLines date
    valuesOf "Content-Length" lines = [Text.ofNat response.contentLength] ∧
      valuesOf "Content-Encoding" lines = (response.encoding.map Encoding.name).toList ∧
      valuesOf "Set-Cookie" lines = response.cookies := by
  dsimp only
  simp only [valuesOf_headerLines]
  exact ⟨rfl, List.append_nil _, List.append_nil _⟩

end Response
end PageServer
