/-
# Scripts

A controller can be written as steps that are taken one after another until one
of them ends the request.

* `Script.Step`: the steps
* `Script.run`: takes steps in order
* `Script.controller`: a controller made of scripts
-/
import PageServer.Site.Controller

namespace PageServer.Script

/-- A step of a script. -/
inductive Step where
  /-- Takes the template of the page from the views. -/
  | setTemplate (name : Text)
  /-- Sets the title of the page. -/
  | setTitle (title : Text)
  /-- Sets a variable. -/
  | set (name : Text) (value : Value)
  /-- Adds a row to a loop. -/
  | addRow (path : Text) (row : Fields)
  /-- Says whether variables that exist may be set again. -/
  | overwrite (allowed : Bool)
  /-- Sets variables that describe the request. -/
  | describe
  /-- Logs a user in. -/
  | logIn (user : User)
  /-- Logs the user out. -/
  | logOut
  /-- Takes steps if the request confirms a question. -/
  | ifConfirmed (steps : List Step)
  /-- Ends with the page. -/
  | render
  /-- Ends with a message. -/
  | infoPage (title message kind : Text) (link : Option (Text × Text))
  /-- Ends with a message that something worked. -/
  | successPage (title message : Text) (link : Option (Text × Text))
  /-- Ends with a message that something did not work. -/
  | errorPage (title message : Text) (link : Option (Text × Text))
  /-- Ends with the page and messages in it. -/
  | errorDisplay (messages : List Text)
  /-- Ends with a question. -/
  | confirmMessage (question confirmed refused : Text)
  /-- Ends with a page elsewhere. -/
  | redirect (location : Text)
  /-- Ends with a page and a status. -/
  | page (code : Nat) (html : Text)
  /-- Ends with a fault. -/
  | fail (fault : Fault)
  deriving Inhabited

/-- Variables that describe the request: whether a form was posted, who answers, how many cookies
are set so far, and whether there is a template. -/
def description (visit : Visit) : List (Text × Value) :=
  [
    ("IS_POST", .bool (decide (visit.request.method = .post))),
    ("ROUTE", .str visit.route.text),
    ("COOKIES", .int visit.cookies.length),
    ("LOADED", .bool visit.template.loaded)
  ]

/-- Changes the template of the page. -/
def onTemplate (change : Template → Template) : Handler := do
  modify fun visit => { visit with template := change visit.template }
  return none

mutual

/-- Takes a step. -/
def take : Step → Handler
  | .setTemplate name => do Visiting.setTemplate name; return none
  | .setTitle title => do Visiting.setTitle title; return none
  | .set name value => onTemplate fun template => template.set name value
  | .addRow path row => onTemplate fun template => (template.addRow path row).2
  | .overwrite allowed => onTemplate fun template => template.setOverwrite allowed
  | .describe => do Visiting.setMany (description (← get)); return none
  | .logIn user => do Visiting.logIn user; return none
  | .logOut => do Visiting.logOut; return none
  | .ifConfirmed steps => do
    if (← get).request.confirmed then run steps else return none
  | .render => some <$> Visiting.render
  | .infoPage title message kind link => some <$> Visiting.infoPage title message kind link
  | .successPage title message link => some <$> Visiting.successPage title message link
  | .errorPage title message link => some <$> Visiting.errorPage title message link
  | .errorDisplay messages => some <$> Visiting.errorDisplay messages
  | .confirmMessage question confirmed refused =>
    some <$> Visiting.confirmMessage question confirmed refused
  | .redirect location => return some (.redirect location)
  | .page code html => return some (.page code html)
  | .fail fault => Visiting.fail fault

/-- Takes steps in order until one ends the request. -/
def run : List Step → Handler
  | [] => return none
  | step :: rest => do
    match ← take step with
    | some outcome => return some outcome
    | none => run rest

end

/-- The controller that takes some steps before a module is looked at, and others for modules. -/
def controller (before : List Step) (handlers : List (Text × List Step)) : Controller where
  before := run before
  handlers := handlers.map fun handler => (handler.1, run handler.2)

end PageServer.Script
