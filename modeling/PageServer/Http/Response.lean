/-
# Responses

A response is its status, what its header says, and its content. The content
may be compressed as the request allows.

* `Response.ofHtml`: the response with a page for a request
* `Response.redirect`, `Response.notFound`, …: the other responses of the server
* `Response.headerLines` and `Response.bytes`: the response as it is sent
* `Response.checkedBytes?`: the same with the check that is made before
-/
import PageServer.Html.Page
import PageServer.Http.Request

namespace PageServer

/-- Compresses bytes in some way, or fails to. -/
abbrev Compressor := Encoding → Bytes → Option Bytes

/-- A response before it is sent. -/
structure Response where
  /-- The status. -/
  status : Status := .ok
  /-- The kind of the content. -/
  contentType : Option Text := none
  /-- The number of bytes that the content has, or would have if it were sent. -/
  contentLength : Nat := 0
  /-- How the content is compressed. -/
  encoding : Option Encoding := none
  /-- Where to look instead. -/
  location : Option Text := none
  /-- The cookies to set, in order. -/
  cookies : List Text := []
  /-- The methods that are served, where that has to be told. -/
  allowed : Option (List Method) := none
  /-- The content as it is sent. -/
  content : Option Bytes := none
  deriving DecidableEq, Repr

namespace Response

/-! ## Making responses -/

/-- The kind of a page. -/
def htmlType : Text := "text/html;charset=utf-8"

/-- The methods that are served. -/
def served : List Method := [.get, .head, .post]

/-- The way of compression for a request: the best one that it allows. -/
def chooseEncoding (allowed : List Encoding) : Option Encoding :=
  [Encoding.brotli, .gzip, .deflate].find? fun encoding => encoding ∈ allowed

/-- The response that is a page as it is. -/
def ofPage (html : Text) (status : Status) : Response :=
  { status, contentType := some htmlType, contentLength := Utf8.size html,
    content := some (Utf8.encode html) }

/-- The response with a page for a request. Only its header is sent if only that is asked for,
and the page stays as it is if it can not be compressed. -/
def ofHtml (compress : Compressor) (html : Text) (status : Status) (request : Request) :
    Response :=
  if request.method = .head then { ofPage html status with content := none }
  else
    let compressed : Option (Encoding × Bytes) := do
      let encoding ← chooseEncoding request.encodings
      let content ← compress encoding (Utf8.encode html)
      return (encoding, content)
    match compressed with
    | some (encoding, content) =>
      { ofPage html status with
        encoding := some encoding, contentLength := content.length, content := some content }
    | none => ofPage html status

/-- The response with a page and a status given by its code. -/
def ofCode (compress : Compressor) (html : Text) (code : Nat) (request : Request) :
    Except Abort Response :=
  match Status.ofCode? code with
  | some status => .ok (ofHtml compress html status request)
  | none => .error .unknownStatus

/-- The response with the fixed page for a status. -/
def ofStatus (compress : Compressor) (status : Status) (request : Request) : Response :=
  ofHtml compress (Html.statusPage status) status request

/-- The response with the fixed page for a code. -/
def ofStatusCode (compress : Compressor) (code : Nat) (request : Request) :
    Except Abort Response := do
  let html ← Html.codePage code none
  ofCode compress html code request

/-- The response that sends a browser elsewhere. -/
def redirect (location : Text) : Response :=
  { status := .seeOther, location := some location }

/-- The response to a request for what is not there. -/
def notFound (compress : Compressor) (request : Request) : Response :=
  ofStatus compress .notFound request

/-- The response to a request whose method is not served. -/
def methodNotAllowed (compress : Compressor) (request : Request) : Response :=
  { ofStatus compress .methodNotAllowed request with allowed := some served }

/-- The response to what is no request. -/
def badRequest : Response := ofPage (Html.statusPage .badRequest) .badRequest

/-- The response to a request that is too long. -/
def contentTooLarge : Response :=
  ofPage (Html.statusPage .contentTooLarge) .contentTooLarge

/-- A response that sets one more cookie. -/
def withCookie (response : Response) (cookie : Text) : Response :=
  { response with cookies := response.cookies ++ [cookie] }

/-! ## Sending responses -/

/-- The name of the server. -/
def serverName : Text := "mvcframe"

/-- The first line of a response. -/
def statusLine (response : Response) : Text :=
  ("HTTP/" : Text) ++ Request.version ++ ' ' :: Text.ofNat response.status.code
    ++ ' ' :: response.status.reason

/-- A header line. -/
def headerLine (name value : Text) : Text := name ++ ':' :: ' ' :: value

/-- The header lines of a response that is sent at `date`, in order. -/
def headerLines (response : Response) (date : Text) : List Text :=
  (response.contentType.map (headerLine "Content-Type")).toList
    ++ (response.encoding.map fun encoding => headerLine "Content-Encoding" encoding.name).toList
    ++ [headerLine "Content-Length" (Text.ofNat response.contentLength),
      headerLine "Date" date, headerLine "Server" serverName]
    ++ (response.location.map (headerLine "Location")).toList
    ++ response.cookies.map (headerLine "Set-Cookie")
    ++ (response.allowed.map fun methods =>
      headerLine "Allow" (Text.join ", " (methods.map Method.name))).toList

/-- The header of a response: its lines, each ended, and an empty line. -/
def header (response : Response) (date : Text) : Text :=
  (response.statusLine :: response.headerLines date).flatMap (· ++ Http.lineEnd)
    ++ Http.lineEnd

/-- A response as it is sent. -/
def bytes (response : Response) (date : Text) : Bytes :=
  Utf8.encode (response.header date) ++ response.content.getD []

/-- The bytes of a response, if it passes the check before it is sent: what has neither content nor
a kind of content is not compressed. -/
def checkedBytes? (response : Response) (date : Text) : Option Bytes :=
  if response.content = none ∧ response.contentType = none ∧ response.encoding ≠ none then none
  else some (response.bytes date)

end Response
end PageServer
