/-
# Faults

Everything that can go wrong while a request is served or the program is set
up, by cause, with the wording that is shown for it.

* `Fault.message`: the full wording
* `Fault.publicMessage`: the wording outside debug mode, without what a store reveals
* `Fault.pageMessage`: the wording as it is put into an error page
-/
import PageServer.Html.Escape

namespace PageServer

/-- The cause of a failure. -/
inductive Fault where
  /-- The request is not UTF-8. -/
  | requestNotText
  /-- The request line has no method that is known. -/
  | unsupportedMethod
  /-- The request line has no version that is known. -/
  | unsupportedVersion
  /-- A path is malformed or leaves its folder. -/
  | invalidPath
  /-- A template has neither a file nor a saved tree. -/
  | templateNotFound (name : Text)
  /-- The tags of a template do not fit together. -/
  | templateSyntax (file : Text) (line : Nat) (message : Text)
  /-- A template fails while it is rendered; `snippet` is the escaped line. -/
  | templateFailed (file : Text) (line : Nat) (snippet message : Text)
  /-- A controller renders without having chosen a template. -/
  | noTemplate (controller : Text)
  /-- Re-routing comes back to where it was; `chain` lists the entries used. -/
  | rerouteCycle (chain : List Text)
  /-- A controller can not be registered. -/
  | invalidRegistration (message : Text)
  /-- A validation rule is unknown or has wrong parameters. -/
  | invalidRule (rule : Text)
  /-- The store can not be reached. -/
  | storeUnreachable (message : Text)
  /-- A query of the store fails. -/
  | queryFailed (query detail : Text)
  deriving DecidableEq, Repr

namespace Fault

/-- The full wording of a fault. -/
def message : Fault → Text
  | requestNotText => "Request bytes can\x27t be parsed in UTF-8"
  | unsupportedMethod => "Unsupported request method"
  | unsupportedVersion => "Unsupported HTTP version"
  | invalidPath => "Invalid path (400)"
  | templateNotFound name => "Could not find template file [" ++ name ++ "]"
  | templateSyntax file line message =>
    "Template syntax error in " ++ file ++ " at line " ++ Text.ofNat line ++ ": " ++ message
  | templateFailed file line snippet message =>
    "Error compiling template " ++ file ++ ": " ++ message ++ "\n at line " ++ Text.ofNat line
      ++ ": " ++ snippet
  | noTemplate controller =>
    "No template file defined for controller [" ++ controller ++ "]"
  | rerouteCycle chain => "Re-route cycle detected: " ++ Text.join " -> " chain
  | invalidRegistration message => "Invalid controller registration: " ++ message
  | invalidRule rule => "Invalid rule provided [" ++ rule ++ "]"
  | storeUnreachable message => "Could not connect to database: " ++ message
  | queryFailed query detail => "Query failed: " ++ detail ++ "\nQuery: " ++ query

/-- The wording for users: outside debug mode nothing of what a store answered. -/
def publicMessage (debug : Bool) (fault : Fault) : Text :=
  match fault with
  | storeUnreachable _ | queryFailed _ _ =>
    if debug then fault.message
    else "A database error occurred while processing the request"
  | _ => fault.message

/-- Whether templates themselves are at fault, so that no error page can be made from one. -/
def isOfTemplate : Fault → Bool
  | templateNotFound _ | templateSyntax .. | templateFailed .. | noTemplate _ => true
  | _ => false

/-- The escaped wording for an error page: the full one in debug mode, line by line, and
otherwise the fixed text `safe`. -/
def pageMessage (debug : Bool) (safe : Text) (fault : Fault) : Text :=
  if debug then Text.replaceAll "\n" "<br>" (Html.escape (fault.publicMessage true))
  else Html.escape safe

end Fault
end PageServer
