/-
# Requests

A request is its request line, the header entries that the server looks at,
and the form in its body.

* `Request.parse`: reads the bytes of a request
* `Request.input?`: what the form or the query has under a name
-/
import PageServer.Fault
import PageServer.Http.Framing
import PageServer.Http.Query
import PageServer.Text.Upper

namespace PageServer

/-- What a request asks for. -/
inductive Method where
  /-- The page at an address. -/
  | get
  /-- The header that the page would have. -/
  | head
  /-- What can be asked for. -/
  | options
  /-- The page that answers what is sent. -/
  | post
  deriving DecidableEq, Repr

/-- The word for a method. -/
def Method.name : Method → Text
  | get => "GET"
  | head => "HEAD"
  | options => "OPTIONS"
  | post => "POST"

/-- The method with a name, in any case. -/
def Method.ofName? (name : Text) : Option Method :=
  [Method.get, .head, .options, .post].find? fun method => method.name = Text.upper name

/-- How the body of a response may be compressed. -/
inductive Encoding where
  /-- As the program of that name does. -/
  | gzip
  /-- As a bare stream. -/
  | deflate
  /-- With a dictionary of common words. -/
  | brotli
  deriving DecidableEq, Repr

/-- The word for a way of compression. -/
def Encoding.name : Encoding → Text
  | gzip => "gzip"
  | deflate => "deflate"
  | brotli => "br"

/-- A request that has been read. -/
structure Request where
  /-- What is asked for. -/
  method : Method
  /-- The address, with its query. -/
  target : Text
  /-- The program that asks. -/
  userAgent : Text
  /-- The ways of compression that are understood, in the order they were found. -/
  encodings : List Encoding
  /-- The query of the address. -/
  query : Table Text
  /-- The form in the body. -/
  form : Table Text
  /-- The cookies. -/
  cookies : Table Text
  /-- The length of the body by the header. -/
  contentLength : Nat
  deriving DecidableEq, Repr

namespace Request

/-! ## Reading -/

/-- The version that is spoken. -/
def version : Text := "1.1"

/-- What a request line asks for. The address may hold spaces. -/
def parseLine (line : Text) : Except Fault (Method × Text) :=
  match Text.splitOn ' ' line with
  | first :: second :: rest =>
    match rest.getLast? with
    | none => .error .unsupportedMethod
    | some last =>
      match Method.ofName? first with
      | none => .error .unsupportedMethod
      | some method =>
        if Text.upper last = "HTTP/" ++ version then
          .ok (method, Text.join " " (second :: rest.dropLast))
        else .error .unsupportedVersion
  | _ => .error .unsupportedMethod

/-- The lines of a header. -/
def headerLines : Text → List Text
  | '\r' :: '\n' :: rest => [] :: headerLines rest
  | c :: rest =>
    match headerLines rest with
    | [] => [[c]]
    | line :: others => (c :: line) :: others
  | [] => [[]]

/-- What the header entries say. -/
structure Header where
  /-- The program that asks. -/
  userAgent : Text := []
  /-- The ways of compression that are understood. -/
  encodings : List Encoding := []
  /-- The cookies. -/
  cookies : Table Text := []
  /-- The kind of the body, in lower case. -/
  contentType : Text := []
  /-- The length of the body. -/
  contentLength : Nat := 0
  deriving DecidableEq, Repr

/-- The ways of compression that a header value mentions. -/
def mentioned (value : Text) : List Encoding :=
  [Encoding.gzip, .deflate, .brotli].filter fun encoding => Text.contains encoding.name value

/-- The pairs of a cookie header; a part without an equals sign does not count. -/
def cookiePairs (value : Text) : List (Text × Text) :=
  ((Text.splitOn ';' value).filterMap (Text.cut '=')).map fun pair =>
    (Text.trim pair.1, Text.trim pair.2)

/-- A header with one more line taken into account. -/
def Header.addLine (header : Header) (line : Text) : Header :=
  match Text.cut ':' line with
  | none => header
  | some (name, rest) =>
    let name := Text.lower (Text.trim name)
    let value := Text.trim rest
    if name = "user-agent" then { header with userAgent := value }
    else if name = "accept-encoding" then
      { header with encodings := header.encodings ++ mentioned value }
    else if name = "cookie" then
      { header with
        cookies := (cookiePairs value).foldl (fun table pair => table.insert pair.1 pair.2)
          header.cookies }
    else if name = "content-type" then { header with contentType := Text.lower value }
    else if name = "content-length" then
      { header with contentLength := (Number.readSize? value).getD 0 }
    else header

/-- The kind of a body that is a form. -/
def formType : Text := "application/x-www-form-urlencoded"

/-- Reads a request from its text. -/
def ofText (text : Text) : Except Fault Request := do
  let (head, body) := (Text.cutAt (Http.lineEnd ++ Http.lineEnd) text).getD (text, [])
  match headerLines head with
  | [] => .error .unsupportedMethod
  | line :: lines =>
    let (method, target) ← parseLine line
    let header := lines.foldl Header.addLine {}
    let isForm := method = .post ∧ Text.startsWith formType header.contentType
    return {
      method
      target
      userAgent := header.userAgent
      encodings := header.encodings
      query := Query.read (Query.splitAddress target).2
      form := if isForm then Query.read body else []
      cookies := header.cookies
      contentLength := header.contentLength }

/-- Reads a request from its bytes; null characters at the end do not count. -/
def parse (bytes : Bytes) : Except Fault Request :=
  match Utf8.decode? bytes with
  | some text => ofText (Text.dropEndWhile (· = '\x00') text)
  | none => .error .requestNotText

/-! ## Inputs -/

/-- The cookie with a name. -/
def cookie? (request : Request) (name : Text) : Option Text :=
  request.cookies.get? name

/-- What the form, or else the query, has under a name. -/
def input? (request : Request) (name : Text) : Option Text :=
  (request.form.get? name).or (request.query.get? name)

/-- The input with a name, or a default. -/
def inputOr (request : Request) (name fallback : Text) : Text :=
  (request.input? name).getD fallback

/-- The input with a name as an integer, or a default if it is none. -/
def inputInt (request : Request) (name : Text) (fallback : Int) : Int :=
  ((request.input? name).bind fun value => Number.readInt? (Text.trim value)).getD fallback

/-- The input with a name as a truth value, or a default if it is none. -/
def inputBool (request : Request) (name : Text) (fallback : Bool) : Bool :=
  match (request.input? name).map fun value => Text.lower (Text.trim value) with
  | some word =>
    if word ∈ (["1", "true", "on", "yes"].map String.toList) then true
    else if word ∈ (["0", "false", "off", "no", ""].map String.toList) then false
    else fallback
  | none => fallback

/-- Whether the user has confirmed a question. -/
def confirmed (request : Request) : Bool :=
  request.inputInt "confirm" 0 = 1

/-- Whether a form has been sent: its `submit` entry is not empty. -/
def submitted (request : Request) : Bool :=
  !(request.inputOr "submit" "").isEmpty

end Request
end PageServer
