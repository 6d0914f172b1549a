/-
# Visits

What is known while one request is answered: who makes it, what the stores of
the site hold, and the page that is being made.

* `Visiting`: a step of an answer
* `Visiting.recognize`, `Visiting.logIn`, `Visiting.logOut`: the session of the request
* `Visiting.render`: makes the page
-/
import PageServer.Accounts.Directory
import PageServer.Accounts.Sessions
import PageServer.Form.Fields
import PageServer.Http.Response
import PageServer.Routing.Router
import PageServer.Settings.Basic
import PageServer.Views.Template

namespace PageServer

/-! ## What a visit knows -/

/-- What lasts from one request to the next. A store that can not be reached answers each
question with a fault. -/
structure Stores where
  /-- The templates. -/
  views : Views
  /-- The sessions. -/
  sessions : Sessions
  /-- The accounts. -/
  directory : Directory := []
  /-- What the sessions answer if they can not be reached. -/
  sessionOutage : Option Fault := none
  /-- What the accounts answer if they can not be reached. -/
  directoryOutage : Option Fault := none

/-- One request while it is answered. -/
structure Visit where
  /-- The settings of the site. -/
  settings : Settings
  /-- Where the addresses of the site lie. -/
  router : Router
  /-- The request. -/
  request : Request
  /-- Who answers it. -/
  route : Route
  /-- The time in milliseconds. -/
  now : Int
  /-- What lasts from one request to the next. -/
  stores : Stores
  /-- Who makes the request. -/
  user : User := .guest
  /-- The token of the session. -/
  session : Option Text := none
  /-- The cookies to set. -/
  cookies : List Text := []
  /-- The title of the page, if it is not that of the controller. -/
  title : Option Text := none
  /-- The template of the page. -/
  template : Template := {}

/-- What a request leads to. -/
inductive Outcome where
  /-- A page with a status. -/
  | page (code : Nat) (html : Text)
  /-- A page elsewhere. -/
  | redirect (location : Text)
  deriving DecidableEq, Repr

/-- Why a step of an answer does not come to its end. -/
inductive Halt where
  /-- Something went wrong. -/
  | fault (fault : Fault)
  /-- The program is mistaken. -/
  | abort (abort : Abort)
  deriving DecidableEq, Repr

/-- A step of an answer. -/
abbrev Visiting (α : Type) := ExceptT Halt (StateM Visit) α

namespace Visiting

variable {α : Type}

/-! ## Steps on the stores -/

/-- A fault that ends the visit. -/
def fail (fault : Fault) : Visiting α := throw (.fault fault)

/-- A result that may be a fault. -/
def ofExcept (result : Except Fault α) : Visiting α :=
  Action.ofExcept (result.mapError .fault)

/-- A step on the template of the page and the views. -/
def onTemplate (step : Template → Views → Except Fault α × Template × Views) : Visiting α :=
  Action.mk fun visit =>
    let (result, template, views) := step visit.template visit.stores.views
    (result.mapError .fault, { visit with template, stores := { visit.stores with views } })

/-- A question to the sessions. -/
def askSessions (ask : Sessions → α × Sessions) : Visiting α :=
  Action.mk fun visit =>
    match visit.stores.sessionOutage with
    | some fault => (.error (.fault fault), visit)
    | none =>
      let (answer, sessions) := ask visit.stores.sessions
      (.ok answer, { visit with stores := { visit.stores with sessions } })

/-- A question to the accounts. -/
def askDirectory (ask : Directory → Except Abort (α × Directory)) : Visiting α :=
  Action.mk fun visit =>
    match visit.stores.directoryOutage with
    | some fault => (.error (.fault fault), visit)
    | none =>
      match ask visit.stores.directory with
      | .ok (answer, directory) =>
        (.ok answer, { visit with stores := { visit.stores with directory } })
      | .error abort => (.error (.abort abort), visit)

/-- A question to the accounts that changes none. -/
def lookUp (ask : Directory → α) : Visiting α :=
  askDirectory fun directory => .ok (ask directory, directory)

/-! ## The session -/

/-- The name of the cookie with the token of a session. -/
def sessionCookie : Text := "SESSION_ID"

/-- Finds out who makes the request by the token that comes with it. -/
def recognize : Visiting Unit := do
  let visit ← get
  match visit.request.cookie? sessionCookie with
  | none => return
  | some token =>
    match ← askSessions fun sessions => sessions.current token visit.now with
    | none => return
    | some id =>
      match ← lookUp fun directory => directory.findById id with
      | some user =>
        modify fun visit =>
          { visit with user := { user with loggedIn := true }, session := some token }
      | none => modify fun visit => { visit with session := some token }

/-- The cookie that gives a token to a browser for some seconds. -/
def tokenCookie (token : Text) (seconds : Int) : Text :=
  sessionCookie ++ '=' :: token ++ ("; Path=/; HttpOnly; Max-Age=" : Text) ++ Text.ofInt seconds

/-- Starts or prolongs the session of a user and gives its token to the browser. -/
def logIn (user : User) : Visiting Unit := do
  let visit ← get
  let token ← askSessions fun sessions => sessions.update visit.session user.id visit.now
  let cookie := tokenCookie token (visit.settings.sessionHours * 3600)
  modify fun visit =>
    { visit with
      cookies := visit.cookies ++ [cookie]
      session := some token
      user := { user with loggedIn := true } }

/-- Ends the session, if there is one, and takes its token from the browser. -/
def logOut : Visiting Unit := do
  match (← get).session with
  | some token => askSessions fun sessions => ((), sessions.remove token)
  | none => pure ()
  modify fun visit =>
    { visit with
      cookies := visit.cookies ++ [tokenCookie [] 0], session := none, user := .guest }

/-! ## The page -/

/-- Takes the template of the page from the views; its variables stay. -/
def setTemplate (name : Text) : Visiting Unit :=
  onTemplate fun template views => template.load name views

/-- Sets the title of the page. -/
def setTitle (title : Text) : Visiting Unit :=
  modify fun visit => { visit with title := some title }

/-- Sets a variable of the page. -/
def set (name : Text) (value : Value) : Visiting Unit :=
  modify fun visit => { visit with template := visit.template.set name value }

/-- Sets variables of the page in order. -/
def setMany (pairs : List (Text × Value)) : Visiting Unit :=
  modify fun visit => { visit with template := visit.template.setMany pairs }

/-- The address of a path of the site. -/
def link (path : Text) : Visiting Text := do
  return (← get).router.link path

/-- What every page says of the request: its title, whether debug mode is on, who makes it, and
who answers it. -/
def commonVariables (visit : Visit) : List (Text × Value) :=
  let controller := visit.route.controller.getD []
  let page : List (Text × Value) :=
    [("PAGE_TITLE", .str (visit.title.getD (Text.capitalize controller))),
      ("DEBUG_MODE", .bool visit.settings.debug)]
  let answering : List (Text × Value) :=
    [("CONTROLLER", .str controller), ("MODULE", .str (visit.route.module.getD []))]
  page ++ visit.user.description ++ answering

/-- Makes the page from its template. -/
def render : Visiting Outcome := do
  let visit ← get
  if visit.template.loaded then
    setMany (commonVariables visit)
    let html ← onTemplate Template.compile
    return .page Status.ok.code html
  else fail (.noTemplate (visit.route.controller.getD []))

/-- The template of pages with a message. -/
def infoTemplate : Text := "common/info_message.html"

/-- The template of pages with a question. -/
def confirmTemplate : Text := "common/confirm_message.html"

/-- Makes a page with a message of some kind, and with the address and the text of a link. -/
def infoPage (title message kind : Text) (link : Option (Text × Text)) : Visiting Outcome := do
  setTemplate infoTemplate
  let (url, text) : Value × Value :=
    match link with
    | some (url, text) => (.str url, .str text)
    | none => (.bool false, .bool false)
  setMany [("INFO_BOX_CLASSNAME", .str kind), ("INFO_BOX_MESSAGE", .str message),
    ("INFO_BOX_LINK_URL", url), ("INFO_BOX_LINK_TEXT", text)]
  setTitle title
  render

/-- Makes a page that says that something worked. -/
def successPage (title message : Text) (link : Option (Text × Text)) : Visiting Outcome :=
  infoPage title message "success" link

/-- Makes a page that says that something did not work. -/
def errorPage (title message : Text) (link : Option (Text × Text)) : Visiting Outcome :=
  infoPage title message "error" link

/-- Makes the page with error messages in it. -/
def errorDisplay (messages : List Text) : Visiting Outcome := do
  set "ERROR_MESSAGE" (.str (Text.join "<br>" messages))
  render

/-- Makes a page with a question, which is confirmed by an entry in the query of an address. -/
def confirmMessage (question confirmed refused : Text) : Visiting Outcome := do
  setTemplate confirmTemplate
  setMany [("CONFIRM_BOX_TEXT", .str question), ("NO_URL", .str refused),
    ("YES_URL", .str (Query.extend confirmed [("confirm", "1")]))]
  setTitle "Confirm"
  render

/-! ## Forms -/

/-- Checks fields that were sent: what is said of them. -/
def checkFields (fields : List (Text × Form.Entry)) : Visiting (List Text) := do
  let (result, form) := (Form.ofFields fields).check
  let _ ← ofExcept result
  return form.messages

end Visiting
end PageServer
