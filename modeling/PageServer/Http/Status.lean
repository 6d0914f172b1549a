/-
# Statuses

The three-digit codes of a response with their reason phrases.

* `Status.ofCode?`: the status with a code
* `Status.ok`, `Status.seeOther`, …: the statuses that the server itself gives
-/
import PageServer.Text.Basic

namespace PageServer

/-- A code with its reason phrase. -/
structure Status where
  /-- The three-digit code. -/
  code : Nat
  /-- What the code means. -/
  reason : Text
  deriving DecidableEq, Repr

namespace Status

/-- The codes that have a reason phrase. -/
def known : List (Nat × String) :=
  [
    (100, "Continue"), (101, "Switching Protocols"),
    (200, "OK"), (201, "Created"), (202, "Accepted"), (203, "Non-Authoritative Information"),
    (204, "No Content"), (205, "Reset Content"), (206, "Partial Content"),
    (300, "Multiple Choices"), (301, "Moved Permanently"), (302, "Found"), (303, "See Other"),
    (304, "Not Modified"), (305, "Use Proxy"), (307, "Temporary Redirect"),
    (308, "Permanent Redirect"),
    (400, "Bad Request"), (401, "Unauthorized"), (402, "Payment Required"), (403, "Forbidden"),
    (404, "Not Found"), (405, "Method Not Allowed"), (406, "Not Acceptable"),
    (407, "Proxy Authentication Required"), (408, "Request Timeout"), (409, "Conflict"),
    (410, "Gone"), (411, "Length Required"), (412, "Precondition Failed"),
    (413, "Content Too Large"), (414, "URI Too Long"), (415, "Unsupported Media Type"),
    (416, "Range Not Satisfiable"), (417, "Expectation Failed"), (418, "I\x27m a teapot"),
    (421, "Misdirected Request"), (422, "Unprocessable Content"), (426, "Upgrade Required"),
    (500, "Internal Server Error"), (501, "Not Implemented"), (502, "Bad Gateway"),
    (503, "Service Unavailable"), (504, "Gateway Timeout"), (505, "HTTP Version Not Supported")
  ]

/-- The status with a code, if the code is known. -/
def ofCode? (code : Nat) : Option Status :=
  (known.lookup code).map fun reason => ⟨code, reason⟩

/-- The request has been answered. -/
def ok : Status := ⟨200, "OK"⟩

/-- The answer lies elsewhere and is to be fetched there. -/
def seeOther : Status := ⟨303, "See Other"⟩

/-- The request can not be read. -/
def badRequest : Status := ⟨400, "Bad Request"⟩

/-- There is nothing at the address. -/
def notFound : Status := ⟨404, "Not Found"⟩

/-- The method is not served. -/
def methodNotAllowed : Status := ⟨405, "Method Not Allowed"⟩

/-- The request is longer than what is read. -/
def contentTooLarge : Status := ⟨413, "Content Too Large"⟩

/-- The request failed on the side of the server. -/
def internalServerError : Status := ⟨500, "Internal Server Error"⟩

/-- The statuses that the server itself gives are known. -/
theorem ofCode?_own :
    [ok, seeOther, badRequest, notFound, methodNotAllowed, contentTooLarge,
      internalServerError].all fun s => decide (ofCode? s.code = some s) := by
  decide

end Status
end PageServer
