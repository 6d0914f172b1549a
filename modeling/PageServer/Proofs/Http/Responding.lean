/-
# Responses that the server makes

Whatever is answered, the header of the response tells how many bytes follow it:
those of the page, as it is or compressed, or none where only the header is
asked for, which then tells the length of the page. Each cookie that is set
stands in a line of its own.

* `Response.Holds`: what a response says of its content
* `Response.Answer`: the responses that the server makes
* `Response.Answer.exists_response`: each of them is made
* `Response.Answer.bytes_framed`: how they are sent
-/
import PageServer.Proofs.Http.ResponseHeader

namespace PageServer

namespace Status

/-- Each code that is known has a status. -/
theorem exists_of_mem_known {code : Nat} (h : code ∈ known.map Prod.fst) :
    ∃ status, ofCode? code = some status := by
  cases hlookup : known.lookup code with
  | some reason => exact ⟨⟨code, reason⟩, by rw [ofCode?, hlookup]; rfl⟩
  | none =>
      obtain ⟨⟨_, reason⟩, hmem, rfl⟩ := List.mem_map.mp h
      have hne := List.lookup_eq_none_iff.mp hlookup _ hmem
      exact absurd rfl (bne_iff_ne.mp hne)

/-- The reason phrase of a status stands in one line. -/
theorem not_mem_reason {code : Nat} {status : Status} (h : ofCode? code = some status) :
    '\n' ∉ status.reason := by
  have hall : (known.all fun entry => decide ('\n' ∉ entry.2.toList)) = true := by
    decide +kernel
  unfold ofCode? at h
  cases hlookup : known.lookup code with
  | none =>
      rw [hlookup] at h
      contradiction
  | some reason =>
      rw [hlookup] at h
      obtain rfl := Option.some.inj h
      obtain ⟨before, after, heq, -⟩ := List.lookup_eq_some_iff.mp hlookup
      have hmem : (code, reason) ∈ known := by
        rw [heq]
        exact List.mem_append_right before List.mem_cons_self
      exact of_decide_eq_true (List.all_eq_true.mp hall _ hmem)

end Status

namespace Response

/-! ## Content -/

/-- The content is a page, as it is or compressed in the way that the header says. -/
def Carries (compress : Compressor) (html : Text) (response : Response) : Prop :=
  match response.encoding with
  | none => response.content.getD [] = Utf8.encode html
  | some encoding => compress encoding (Utf8.encode html) = some (response.content.getD [])

/-- What a response for a page says of its content, before cookies are set: the whole page is sent,
or only its header. -/
structure Holds (compress : Compressor) (html : Text) (headOnly : Bool) (response : Response) :
    Prop where
  /-- Its texts stand in one line each. -/
  inLines : response.InLines
  /-- It sets no cookies. -/
  cookies : response.cookies = []
  /-- Without a kind of content nothing is compressed. -/
  untyped : response.contentType = none → response.encoding = none
  /-- The length is that of the content, which is the page. -/
  whole : headOnly = false → response.contentLength = (response.content.getD []).length ∧
    response.Carries compress html
  /-- The length is that of the page, and there is no content. -/
  header : headOnly = true → response.contentLength = (Utf8.encode html).length ∧
    response.content = none

section Making

variable (compress : Compressor) (html : Text) {status : Status}

theorem not_mem_htmlType : '\n' ∉ htmlType := by decide

/-- A page that is sent as it is. -/
theorem holds_ofPage (hreason : '\n' ∉ status.reason) :
    Holds compress html false (ofPage html status) where
  inLines := ⟨hreason, fun _ h => Option.some.inj h ▸ not_mem_htmlType, nofun, nofun⟩
  cookies := rfl
  untyped := fun _ => rfl
  whole := fun _ => ⟨Utf8.size_eq_length html, rfl⟩
  header := nofun

/-- **A page for a request.** -/
theorem holds_ofHtml (hreason : '\n' ∉ status.reason) (request : Request) :
    Holds compress html (decide (request.method = .head))
      (ofHtml compress html status request) := by
  have hplain := holds_ofPage compress html hreason
  by_cases hhead : request.method = .head
  · rw [ofHtml, if_pos hhead, decide_eq_true hhead]
    exact { hplain with
      inLines := ⟨hreason, hplain.inLines.contentType, nofun, nofun⟩
      whole := nofun
      header := fun _ => ⟨Utf8.size_eq_length html, rfl⟩ }
  · rw [ofHtml, if_neg hhead, decide_eq_false hhead]
    dsimp only
    split
    · rename_i encoding content hcompressed
      obtain ⟨_, -, hmore⟩ := Option.bind_eq_some_iff.mp hcompressed
      obtain ⟨_, hcontent, ⟨⟩⟩ := Option.bind_eq_some_iff.mp hmore
      exact { hplain with
        inLines := ⟨hreason, hplain.inLines.contentType, nofun, nofun⟩
        untyped := nofun
        whole := fun _ => ⟨rfl, hcontent⟩
        header := nofun }
    · exact hplain

/-- Being sent elsewhere. -/
theorem holds_redirect {location : Text} (hlocation : '\n' ∉ location) :
    Holds compress [] false (redirect location) where
  inLines := ⟨Status.not_mem_reason (by decide : Status.ofCode? 303 = some .seeOther), nofun,
    fun _ h => Option.some.inj h ▸ hlocation, nofun⟩
  cookies := rfl
  untyped := fun _ => rfl
  whole := fun _ => ⟨rfl, rfl⟩
  header := nofun

end Making

/-- Cookies come behind those that a response sets. -/
theorem foldl_withCookie (response : Response) (cookies : List Text) :
    cookies.foldl withCookie response =
      { response with cookies := response.cookies ++ cookies } := by
  induction cookies generalizing response with
  | nil => simp
  | cons cookie cookies ih =>
      rw [List.foldl_cons, ih]
      simp [withCookie]

/-- The methods that are served may be told. -/
theorem Holds.withAllowed {compress : Compressor} {html : Text} {headOnly : Bool}
    {response : Response} (h : Holds compress html headOnly response)
    (allowed : Option (List Method)) :
    Holds compress html headOnly { response with allowed } :=
  ⟨⟨h.inLines.reason, h.inLines.contentType, h.inLines.location, h.inLines.cookies⟩, h.cookies,
    h.untyped, h.whole, h.header⟩

/-! ## Answers -/

/-- The responses that the server makes. -/
inductive Answer where
  /-- A page. -/
  | page (html : Text) (code : Nat) (request : Request)
  /-- The fixed page for a code. -/
  | fixed (code : Nat) (request : Request)
  /-- There is nothing at the address. -/
  | notFound (request : Request)
  /-- The method is not served. -/
  | methodNotAllowed (request : Request)
  /-- What has been received is no request. -/
  | badRequest
  /-- It is too long. -/
  | contentTooLarge
  /-- The answer lies elsewhere. -/
  | redirect (location : Text)

namespace Answer

/-- Whether an answer can be made: its code is known, and its location stands in one line. -/
def Fits : Answer → Prop
  | page _ code _ | fixed code _ => code ∈ Status.known.map Prod.fst
  | redirect location => '\n' ∉ location
  | _ => True

/-- The page of an answer. -/
def html : Answer → Text
  | page html _ _ => html
  | fixed code _ => ((Html.codePage code none).toOption).getD []
  | notFound _ => Html.statusPage .notFound
  | methodNotAllowed _ => Html.statusPage .methodNotAllowed
  | badRequest => Html.statusPage .badRequest
  | contentTooLarge => Html.statusPage .contentTooLarge
  | redirect _ => []

/-- Whether only the header is asked for. -/
def headOnly : Answer → Bool
  | page _ _ request | fixed _ request | notFound request | methodNotAllowed request =>
    decide (request.method = .head)
  | badRequest | contentTooLarge | redirect _ => false

/-- The response, without cookies. -/
def response (compress : Compressor) : Answer → Except Abort Response
  | page html code request => ofCode compress html code request
  | fixed code request => ofStatusCode compress code request
  | notFound request => .ok (Response.notFound compress request)
  | methodNotAllowed request => .ok (Response.methodNotAllowed compress request)
  | badRequest => .ok Response.badRequest
  | contentTooLarge => .ok Response.contentTooLarge
  | redirect location => .ok (Response.redirect location)

/-- **Each answer that can be made is made.** -/
theorem exists_response (compress : Compressor) {answer : Answer} (h : answer.Fits) :
    ∃ response, answer.response compress = .ok response ∧
      Holds compress answer.html answer.headOnly response := by
  cases answer with
  | page html code request =>
      obtain ⟨status, hknown⟩ := Status.exists_of_mem_known h
      refine ⟨ofHtml compress html status request, ?_,
        holds_ofHtml compress html (Status.not_mem_reason hknown) request⟩
      rw [response, ofCode, hknown]
  | fixed code request =>
      obtain ⟨status, hknown⟩ := Status.exists_of_mem_known h
      have hpage : Html.codePage code none = .ok (Html.statusPage status) := by
        simp only [Html.codePage, hknown]
      refine ⟨ofHtml compress (Html.statusPage status) status request, ?_, ?_⟩
      · show (Html.codePage code none >>= fun html => ofCode compress html code request) = _
        rw [hpage]
        show ofCode compress (Html.statusPage status) code request = _
        rw [ofCode, hknown]
      · rw [html, hpage]
        exact holds_ofHtml compress _ (Status.not_mem_reason hknown) request
  | notFound request => exact ⟨_, rfl, holds_ofHtml compress _ (by decide) request⟩
  | methodNotAllowed request =>
      exact ⟨_, rfl, (holds_ofHtml compress _ (by decide) request).withAllowed _⟩
  | badRequest => exact ⟨_, rfl, holds_ofPage compress _ (by decide)⟩
  | contentTooLarge => exact ⟨_, rfl, holds_ofPage compress _ (by decide)⟩
  | redirect location => exact ⟨_, rfl, holds_redirect compress h⟩

/-- **How answers are sent.** An answer that can be made is made, and passes the check before it is
sent. The first empty line of its bytes is the one behind the header, and what follows is the
content. Of the header lines that are read, one line for each cookie sets it, in order, and one
tells a length: that of what follows, which is the page, or where only the header is asked for the
length of the page, of which nothing follows. -/
theorem bytes_framed (compress : Compressor) {answer : Answer} {cookies : List Text} {date : Text}
    (hanswer : answer.Fits) (hcookies : ∀ cookie ∈ cookies, '\n' ∉ cookie)
    (hdate : '\n' ∉ date) :
    ∃ response, answer.response compress = .ok response ∧
      let sent := cookies.foldl withCookie response
      let bytes := sent.bytes date
      let size := (Utf8.encode (sent.header date)).length
      let body := bytes.drop size
      let entries := entriesIn bytes
      sent.checkedBytes? date = some bytes ∧
      Http.headerEnd? bytes = some size ∧
      body = sent.content.getD [] ∧
      valuesOf "Set-Cookie" entries = cookies ∧
      valuesOf "Content-Encoding" entries = (sent.encoding.map Encoding.name).toList ∧
      ∃ length, valuesOf "Content-Length" entries = [Text.ofNat length] ∧
        (answer.headOnly = false → length = body.length ∧ sent.Carries compress answer.html) ∧
        (answer.headOnly = true → length = (Utf8.encode answer.html).length ∧ body = []) := by
  obtain ⟨response, hresponse, hholds⟩ := exists_response compress hanswer
  refine ⟨response, hresponse, ?_⟩
  intro sent bytes size body entries
  have hsent : sent = { response with cookies } := by
    have hfold := foldl_withCookie response cookies
    rwa [hholds.cookies, List.nil_append] at hfold
  have hlines : sent.InLines := by
    rw [hsent]
    exact { hholds.inLines with cookies := hcookies }
  have hbody : body = sent.content.getD [] := List.drop_left
  have hentries : entries = sent.headerLines date := hlines.entriesIn_bytes hdate
  obtain ⟨hlength, hencoding, hcookie⟩ := values_headerLines sent date
  rw [← hentries] at hlength hencoding hcookie
  have hchecked : sent.checkedBytes? date = some bytes := by
    refine if_neg fun ⟨_, htype, hcompressed⟩ => hcompressed ?_
    rw [hsent] at htype ⊢
    exact hholds.untyped htype
  refine ⟨hchecked, hlines.headerEnd?_bytes hdate, hbody, ?_, hencoding, sent.contentLength,
    hlength, fun hwhole => ?_, fun hheader => ?_⟩
  · rw [hcookie, hsent]
  · rw [hbody, hsent]
    exact hholds.whole hwhole
  · rw [hbody, hsent]
    obtain ⟨hsize, hnone⟩ := hholds.header hheader
    exact ⟨hsize, by rw [hnone]; rfl⟩

/-- A request for a page, which does not speak of compression. -/
def plainRequest : Request where
  method := .get
  target := "/"
  userAgent := []
  encodings := []
  query := []
  form := []
  cookies := []
  contentLength := 0

/-- A page for it, of eight characters. -/
def umlautPage : Answer := .page "<p>ä</p>" 404 plainRequest

/-- Two cookies. -/
def twoCookies : List Text := ["a=1; Path=/", "b=2"]

/-- Nine bytes are sent, and a line for each cookie. -/
theorem bytes_framed_sample :
    ∃ response, umlautPage.response (fun _ _ => none) = .ok response ∧
      let bytes := (twoCookies.foldl withCookie response).bytes "Tue, 15 Nov 1994 08:12:31 +0000"
      valuesOf "Set-Cookie" (entriesIn bytes) = twoCookies ∧
      valuesOf "Content-Length" (entriesIn bytes) = ["9".toList] ∧
      ∃ size, Http.headerEnd? bytes = some size ∧
        bytes.drop size = Utf8.encode "<p>ä</p>" := by
  have hknown : 404 ∈ Status.known.map Prod.fst := by decide
  have hlines : ∀ cookie ∈ twoCookies, '\n' ∉ cookie := by decide
  have hdate : '\n' ∉ "Tue, 15 Nov 1994 08:12:31 +0000".toList := by decide
  have hfits : umlautPage.Fits := hknown
  obtain ⟨response, hresponse, -, hend, hbody, hcookies, -, length, hlength, hwhole, -⟩ :=
    bytes_framed (fun _ _ => none) hfits hlines hdate
  obtain rfl : ofPage "<p>ä</p>" .notFound = response := Except.ok.inj hresponse
  have hpage : length = 9 := by
    rw [(hwhole rfl).1, hbody]
    rfl
  rw [hpage] at hlength
  exact ⟨_, hresponse, hcookies, hlength, _, hend, hbody⟩

end Answer

end Response
end PageServer
