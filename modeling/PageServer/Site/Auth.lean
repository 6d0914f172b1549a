/-
# Logging in and out

The controller by which users register, log in, and log out.

* `Auth.login`, `Auth.register`, `Auth.logout`: its modules
* `Auth.controller`: all of it
-/
import PageServer.Site.Controller

namespace PageServer.Auth

/-- The template of the form to log in. -/
def loginTemplate : Text := "auth/login.html"

/-- The template of the form to register. -/
def registerTemplate : Text := "auth/register.html"

/-- The text of the link to the index page. -/
def returnToIndex : Text := "Return to Index"

/-- Prepares the page of a form whose answers go to a module. -/
def showForm (template title module : Text) : Visiting Unit := do
  Visiting.setTemplate template
  Visiting.setTitle title
  Visiting.set "FORM_ACTION" (.str (← Visiting.link module))

/-- The address for mail that was sent, which the page shows again. -/
def sentEmail : Visiting Text := do
  let email := Text.trim ((← get).request.inputOr "email" "")
  Visiting.set "ATTEMPTED_EMAIL" (.str (Html.escape email))
  return email

/-- The user whose address and password were sent. -/
def verified (email password : Text) : Visiting (Option User) := do
  match ← Visiting.lookUp fun directory => directory.findByEmail email with
  | none => return none
  | some user =>
    if ← Visiting.lookUp fun directory => directory.verify user password then return some user
    else return none

/-- Shows the form to log in, or logs in who has sent it. -/
def login : Handler := do
  showForm loginTemplate "Login" "login"
  let request := (← get).request
  if request.submitted then
    let email ← sentEmail
    let messages ← Visiting.checkFields
      [("Email", Form.Entry.ofRules email [.isEmail, .required])]
    if messages.isEmpty then
      match ← verified email (request.inputOr "password" "") with
      | some user =>
        Visiting.logIn user
        let index ← Visiting.link []
        some <$> Visiting.successPage "Success" "You have now been logged in!"
          (some (index, returnToIndex))
      | none => some <$> Visiting.errorDisplay ["The details you provided are incorrect."]
    else some <$> Visiting.errorDisplay messages
  else return none

/-- Makes an account unless there is one with the address. -/
def created (email password : Text) : Visiting (Option User) := do
  match ← Visiting.lookUp fun directory => directory.findByEmail email with
  | some _ => return none
  | none =>
    let user ← Visiting.askDirectory fun directory => directory.create email password
    return some user

/-- Shows the form to register, or makes an account for who has sent it. -/
def register : Handler := do
  showForm registerTemplate "Register" "register"
  let request := (← get).request
  if request.submitted then
    let email ← sentEmail
    let password := request.inputOr "password" ""
    let messages ← Visiting.checkFields
      [("Email", Form.Entry.ofRules email [.required, .isEmail]),
        ("Password", Form.Entry.password password
          [.mustMatchPassword (request.inputOr "verify_password" "")])]
    if messages.isEmpty then
      match ← created email password with
      | some _ =>
        let login ← Visiting.link "login"
        some <$> Visiting.successPage "Success" "Your account has been created you can now log in."
          (some (login, "Log In"))
      | none => some <$> Visiting.errorDisplay ["An account already exists with that email."]
    else some <$> Visiting.errorDisplay messages
  else return none

/-- Logs out. -/
def logout : Handler := do
  Visiting.logOut
  let index ← Visiting.link []
  some <$> Visiting.successPage "Logged Out" "You have been logged out successfully."
    (some (index, returnToIndex))

/-- Refuses all but logging out to users who are logged in; shows the form to log in if no module
is named. -/
def before : Handler := do
  let visit ← get
  if visit.user.isLoggedIn && visit.route.module ≠ some "logout" then
    some <$> Visiting.errorPage "Denied" "Permission denied" none
  else if visit.route.module.isNone then login
  else return none

/-- The modules of the controller. -/
def handlers : List (Text × Handler) :=
  [("login", login), ("register", register), ("logout", logout)]

/-- The controller of accounts. -/
def controller : Controller where
  before := before
  handlers := handlers

end PageServer.Auth
