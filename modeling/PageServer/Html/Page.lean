/-
# Fixed pages

Pages that need no template: for a status, and for a failure when no template
can be rendered either.

* `Html.page`: a page with a title and a body
* `Html.statusPage`, `Html.faultPage`: the two kinds of fixed page
-/
import PageServer.Abort
import PageServer.Http.Status

namespace PageServer.Html

/-- The style sheet of every fixed page. -/
def style : Text :=
  "
            body \x7b
                width: 35em;
                margin: 0 auto;
                font-family: Tahoma, Verdana, Arial, sans-serif;
            \x7d
            "

/-- A page with a title and a body, which stand in it as they are. -/
def page (title body : Text) : Text :=
  ("<!DOCTYPE html>
            <html>
                <head>
                    <meta charset=\x22utf-8\x22>
                    <title>" : Text) ++ title ++ ("</title>
                    <style>" : Text) ++ style ++ ("</style>
                </head>
                <body>
                " : Text) ++ body ++ ("
                </body>
            </html>" : Text)

/-- The page that shows a code with a note about it. -/
def notePage (code : Nat) (note : Text) : Text :=
  page (Text.ofNat code)
    (("
            <h1>" : Text) ++ Text.ofNat code ++ ("</h1>
            <p>" : Text) ++ note ++ ("</p>
            " : Text))

/-- The page that shows a status. -/
def statusPage (status : Status) : Text := notePage status.code status.reason

/-- The page for a code, with a note of its own or else with the reason phrase. -/
def codePage (code : Nat) (note : Option Text) : Except Abort Text :=
  match note, Status.ofCode? code with
  | some text, _ => .ok (notePage code text)
  | none, some status => .ok (statusPage status)
  | none, none => .error (.undescribedStatus code)

/-- The page for a failure; the message stands in it as it is. -/
def faultPage (message : Text) : Text :=
  page "Application Error"
    (("
            <h2>Fatal Application Error</h2>
            <h3>This error will need fixed internally.</h3>
            <p>" : Text) ++ message ++ ("</p>
            " : Text))

end PageServer.Html
