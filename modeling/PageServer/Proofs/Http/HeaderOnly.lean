/-
# Asking for the header only

A page can be asked for, or only the header that it would have. Both headers are
the same line by line, but for the date, exactly if the page is sent as it is:
the header alone does not tell of any compression, and its length is always that
of the page.

* `Response.headerBlock`: the lines of a header
* `Response.SameButDate`: lines that differ in the date at most
* `Response.IsPlain`: whether the page is sent as it is
* `Response.header_same_iff`: when both headers are the same
-/
import PageServer.Proofs.Http.Responding

namespace PageServer.Response

/-! ## Lines of a header -/

/-- The lines of the header of a response: the first line and the header lines. -/
def headerBlock (response : Response) (date : Text) : List Text :=
  response.statusLine :: response.headerLines date

/-- Two lines that are the same, or that both tell a date. -/
def SameButDate (line other : Text) : Prop :=
  line = other ∨ ∃ date date', line = headerLine "Date" date ∧ other = headerLine "Date" date'

/-- The lines behind the length of the content. -/
def linesBehindLength (response : Response) (date : Text) : List Text :=
  headerLine "Date" date :: headerLine "Server" serverName ::
    ((response.location.map (headerLine "Location")).toList
      ++ response.cookies.map (headerLine "Set-Cookie")
      ++ (response.allowed.map fun methods =>
        headerLine "Allow" (Text.join ", " (methods.map Method.name))).toList)

/-- Lines are the same as themselves. -/
theorem sameButDate_refl (lines : List Text) : List.Forall₂ SameButDate lines lines :=
  List.forall₂_same.mpr fun _ _ => .inl rfl

/-- What stands behind the length is the same but for the date. -/
theorem sameButDate_linesBehindLength (response : Response) (date date' : Text) :
    List.Forall₂ SameButDate (response.linesBehindLength date)
      (response.linesBehindLength date') := by
  refine .cons (.inr ⟨date, date', rfl, rfl⟩) ?_
  exact sameButDate_refl _

/-- The lines of a header in order: the status, the kind of the content, how it is compressed, its
length, and what stands behind. -/
theorem headerBlock_eq (response : Response) (date : Text) :
    response.headerBlock date =
      response.statusLine :: (response.contentType.map (headerLine "Content-Type")).toList
        ++ (response.encoding.map fun encoding =>
          headerLine "Content-Encoding" encoding.name).toList
        ++ headerLine "Content-Length" (Text.ofNat response.contentLength) ::
          response.linesBehindLength date := by
  simp [headerBlock, headerLines, linesBehindLength]

/-! ## A page and its header -/

variable (compress : Compressor) (html : Text)

/-- Whether a page is sent as it is: no way of compression is allowed, or the best one fails. -/
def IsPlain (request : Request) : Prop :=
  ∀ encoding, chooseEncoding request.encodings = some encoding →
    compress encoding (Utf8.encode html) = none

variable {compress html} {request : Request} (status : Status)

/-- Where only the header is asked for, it is that of the page as it is. -/
theorem ofHtml_of_head (h : request.method = .head) :
    ofHtml compress html status request = { ofPage html status with content := none } := if_pos h

/-- A page that is sent as it is. -/
theorem ofHtml_of_isPlain (hmethod : request.method ≠ .head)
    (h : IsPlain compress html request) :
    ofHtml compress html status request = ofPage html status := by
  rw [ofHtml, if_neg hmethod]
  cases hencoding : chooseEncoding request.encodings with
  | none => rfl
  | some encoding =>
      have hfails := h encoding hencoding
      simp [hfails]

/-- A page that is compressed. -/
theorem ofHtml_of_compressed (hmethod : request.method ≠ .head) {encoding : Encoding}
    {content : Bytes} (hencoding : chooseEncoding request.encodings = some encoding)
    (hcontent : compress encoding (Utf8.encode html) = some content) :
    ofHtml compress html status request =
      { ofPage html status with
        encoding := some encoding, contentLength := content.length, content := some content } := by
  rw [ofHtml, if_neg hmethod]
  simp [hencoding, hcontent]

/-- A page that is not sent as it is, is compressed. -/
theorem exists_of_not_isPlain (h : ¬ IsPlain compress html request) :
    ∃ encoding content, chooseEncoding request.encodings = some encoding ∧
      compress encoding (Utf8.encode html) = some content := by
  simp only [IsPlain, not_forall] at h
  obtain ⟨encoding, hencoding, hcontent⟩ := h
  obtain ⟨content, hcontent⟩ := Option.ne_none_iff_exists'.mp hcontent
  exact ⟨encoding, content, hencoding, hcontent⟩

/-- The lines that stand before the length of a page, if it is sent as it is. -/
def linesBeforeLength (html : Text) (status : Status) : List Text :=
  [(ofPage html status).statusLine, headerLine "Content-Type" htmlType]

/-- The header of a page that is sent as it is. -/
theorem headerBlock_ofPage (date : Text) :
    (ofPage html status).headerBlock date =
      linesBeforeLength html status ++ headerLine "Content-Length" (Text.ofNat (Utf8.size html)) ::
        (ofPage html status).linesBehindLength date :=
  headerBlock_eq _ date

/-- The header of one that is compressed has a line more, and another length. -/
theorem headerBlock_compressed (encoding : Encoding) (content : Bytes) (date : Text) :
    headerBlock { ofPage html status with
        encoding := some encoding, contentLength := content.length, content := some content } date =
      linesBeforeLength html status ++ headerLine "Content-Encoding" encoding.name ::
        headerLine "Content-Length" (Text.ofNat content.length) ::
          (ofPage html status).linesBehindLength date :=
  headerBlock_eq _ date

/-- **The header alone is that of the page, but for the date, exactly if the page is sent as it
is.** Nothing follows it. For a page that is compressed, the line that says so is missing, the
length is that of the page as it is, and all other lines are the same. -/
theorem header_same_iff (compress : Compressor) (html : Text) {code : Nat}
    (hcode : code ∈ Status.known.map Prod.fst) {get head : Request} (hget : get.method = .get)
    (hhead : head = { get with method := .head }) (date date' : Text) :
    ∃ page header,
      ofCode compress html code get = .ok page ∧ ofCode compress html code head = .ok header ∧
      header.bytes date' = Utf8.encode (header.header date') ∧
      (List.Forall₂ SameButDate (page.headerBlock date) (header.headerBlock date') ↔
        IsPlain compress html get) ∧
      ∀ encoding content, chooseEncoding get.encodings = some encoding →
        compress encoding (Utf8.encode html) = some content →
          ∃ before behind behind', List.Forall₂ SameButDate behind behind' ∧
            page.headerBlock date =
              before ++ headerLine "Content-Encoding" encoding.name ::
                headerLine "Content-Length" (Text.ofNat content.length) :: behind ∧
            header.headerBlock date' =
              before ++ headerLine "Content-Length" (Text.ofNat (Utf8.size html)) :: behind' := by
  obtain ⟨status, hstatus⟩ := Status.exists_of_mem_known hcode
  have hmethod : get.method ≠ .head := by
    rw [hget]
    decide
  have hpage : ofCode compress html code get = .ok (ofHtml compress html status get) := by
    rw [ofCode, hstatus]
  have hheader : ofCode compress html code head =
      .ok { ofPage html status with content := none } := by
    rw [ofCode, hstatus, hhead]
    exact congrArg Except.ok (ofHtml_of_head status rfl)
  have hblock : headerBlock { ofPage html status with content := none } date' =
      linesBeforeLength html status ++ headerLine "Content-Length" (Text.ofNat (Utf8.size html)) ::
        (ofPage html status).linesBehindLength date' := headerBlock_ofPage status date'
  have hbehind := sameButDate_linesBehindLength (ofPage html status) date date'
  refine ⟨_, _, hpage, hheader, List.append_nil _, ⟨?_, ?_⟩, ?_⟩
  · -- a compressed page has a line more in its header
    intro hsame
    by_contra hplain
    obtain ⟨encoding, content, hencoding, hcontent⟩ := exists_of_not_isPlain hplain
    rw [ofHtml_of_compressed status hmethod hencoding hcontent, headerBlock_compressed,
      hblock] at hsame
    have hlength := hsame.length_eq
    have hlengthBehind := hbehind.length_eq
    simp only [List.length_append, List.length_cons] at hlength
    omega
  · intro hplain
    rw [ofHtml_of_isPlain status hmethod hplain, headerBlock_ofPage, hblock]
    exact List.rel_append (sameButDate_refl _) (.cons (.inl rfl) hbehind)
  · intro encoding content hencoding hcontent
    refine ⟨_, _, _, hbehind, ?_, hblock⟩
    rw [ofHtml_of_compressed status hmethod hencoding hcontent, headerBlock_compressed]

/-- A page of nine bytes. -/
def greetingPage : Text := "<p>hi</p>"

/-- Knows how this page is compressed as a bare stream, which takes eleven bytes. -/
def greetingCompressor : Compressor := fun encoding content =>
  if encoding = .deflate ∧ content = Utf8.encode greetingPage then
    some [179, 41, 176, 203, 200, 180, 209, 47, 176, 3, 0]
  else none

/-- A request of a browser that understands such a stream, and the one for the header only. -/
def deflateRequests : Request × Request :=
  ({ Answer.plainRequest with encodings := [.deflate] },
    { Answer.plainRequest with encodings := [.deflate], method := .head })

/-- When the responses are sent. -/
def greetingDate : Text := "Tue, 15 Nov 1994 08:12:31 +0000"

/-- The header alone does not tell of the compression, and tells another length. -/
theorem header_of_compressed_differs :
    ∃ page header,
      ofCode greetingCompressor greetingPage 200 deflateRequests.1 = .ok page ∧
      ofCode greetingCompressor greetingPage 200 deflateRequests.2 = .ok header ∧
      page.headerLines greetingDate = ["Content-Type: text/html;charset=utf-8",
        "Content-Encoding: deflate", "Content-Length: 11", "Date: Tue, 15 Nov 1994 08:12:31 +0000",
        "Server: mvcframe"] ∧
      header.headerLines greetingDate = ["Content-Type: text/html;charset=utf-8",
        "Content-Length: 9", "Date: Tue, 15 Nov 1994 08:12:31 +0000", "Server: mvcframe"] ∧
      ¬ List.Forall₂ SameButDate (page.headerBlock greetingDate)
        (header.headerBlock greetingDate) := by
  refine ⟨_, _, rfl, rfl, by decide, by decide, ?_⟩
  intro hsame
  exact absurd hsame.length_eq (by decide)

/-- A page that is not compressed has the same header, whenever that is sent. -/
theorem header_same_iff_sample :
    200 ∈ Status.known.map Prod.fst ∧ deflateRequests.1.method = .get ∧
      deflateRequests.2 = { deflateRequests.1 with method := .head } ∧
      ∃ page header,
        ofCode greetingCompressor "<p>ho</p>" 200 deflateRequests.1 = .ok page ∧
        ofCode greetingCompressor "<p>ho</p>" 200 deflateRequests.2 = .ok header ∧
        List.Forall₂ SameButDate (page.headerBlock greetingDate) (header.headerBlock []) := by
  have hknown : 200 ∈ Status.known.map Prod.fst := by decide
  have hget : deflateRequests.1.method = .get := rfl
  have hhead : deflateRequests.2 = { deflateRequests.1 with method := .head } := rfl
  have hplain : IsPlain greetingCompressor "<p>ho</p>" deflateRequests.1 := by
    intro encoding hencoding
    obtain rfl := Option.some.inj hencoding
    decide
  obtain ⟨page, header, hpage, hheader, -, hsame, -⟩ :=
    header_same_iff greetingCompressor "<p>ho</p>" hknown hget hhead greetingDate []
  exact ⟨hknown, hget, hhead, page, header, hpage, hheader, hsame.mpr hplain⟩

end PageServer.Response
