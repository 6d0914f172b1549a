/-
# Settings

What can be set for a site, and how it is read from a document.

* `Settings.ofText`: the settings of a document, or those that hold without one
* `Settings.withDebug`, …: settings with one of them changed
-/
import PageServer.Toml.Reader

namespace PageServer

/-- The settings of a site. -/
structure Settings where
  /-- The folder of the templates. -/
  viewsFolder : Text := "views"
  /-- The port to listen at. -/
  port : Nat := 7878
  /-- The number of workers; without one there are as many as the machine has processors. -/
  workers : Option Nat := none
  /-- The number of template texts that are kept in memory. -/
  capacity : Nat := 64
  /-- Whether only requests from the machine itself are answered. -/
  isLocal : Bool := true
  /-- The address of the index page. -/
  root : Text := "/"
  /-- For how many seconds a saved tree may be used after its file has changed. -/
  maxAge : Int := 300
  /-- Whether users see what went wrong. -/
  debug : Bool := false
  /-- What users see otherwise. -/
  safeMessage : Text :=
    "Apologies, there has been an application error that has been logged."
  /-- The length of a session in hours. -/
  sessionHours : Int := 24 * 7
  /-- The replacements of routes. -/
  reroutes : Table Text := []
  /-- The constants of all templates. -/
  constants : Table Text := []
  deriving DecidableEq, Repr, Inhabited

namespace Settings

/-! ## Reading -/

/-- Largest number of a port. -/
def maxPort : Nat := 0xFFFF

/-- A text. -/
def text? : Toml → Option Text
  | .str t => some t
  | _ => none

/-- A whole number. -/
def int? : Toml → Option Int
  | .int n => some n
  | _ => none

/-- A whole number from zero to `most`. -/
def nat? (most : Nat) (value : Toml) : Option Nat :=
  (int? value).bind fun n => if 0 ≤ n ∧ n ≤ most then some n.toNat else none

/-- A truth value. -/
def bool? : Toml → Option Bool
  | .bool b => some b
  | _ => none

/-- Texts by key. -/
def texts? : Toml → Option (Table Text)
  | .table _ entries => entries.mapM fun entry => (text? entry.2).map fun t => (entry.1, t)
  | _ => none

/-- The value that a key must have. -/
def required? {α : Type} (entries : Table Toml) (key : Text) (read? : Toml → Option α) :
    Option α :=
  (entries.get? key).bind read?

/-- The value of a key that may be missing. -/
def optional? {α : Type} (entries : Table Toml) (key : Text) (read? : Toml → Option α)
    (usual : α) : Option α :=
  match entries.get? key with
  | some value => read? value
  | none => some usual

/-- The settings of a table. Keys that mean nothing do not count. -/
def ofEntries? (entries : Table Toml) : Option Settings := do
  let usual : Settings := {}
  let viewsFolder ← required? entries "views_dir" text?
  let port ← required? entries "port" (nat? maxPort)
  let workers ← required? entries "worker_threads" (nat? Number.maxSize)
  let capacity ← required? entries "cache_size" (nat? Number.maxSize)
  let isLocal ← required? entries "local" bool?
  let root ← optional? entries "index_root" text? usual.root
  let maxAge ← optional? entries "template_cache_time" int? usual.maxAge
  let debug ← optional? entries "debug" bool? usual.debug
  let safeMessage ← optional? entries "safe_error_message" text? usual.safeMessage
  let sessionHours ← optional? entries "session_length_hours" int? usual.sessionHours
  let reroutes ← optional? entries "reroutes" texts? usual.reroutes
  let constants ← optional? entries "constants" texts? usual.constants
  return { viewsFolder, port, workers := some workers, capacity, isLocal, root, maxAge, debug,
           safeMessage, sessionHours, reroutes, constants }

/-- Settings without those that can not be meant: no workers, no memory, and saved trees in debug
mode. -/
def corrected (settings : Settings) : Settings :=
  { settings with
    workers := settings.workers.filter (· ≠ 0)
    capacity := if settings.capacity = 0 then 64 else settings.capacity
    maxAge := if settings.debug ∧ 0 < settings.maxAge then 0 else settings.maxAge }

/-- The settings of a document. Those that hold without one are taken if it can not be read. -/
def ofText (t : Text) : Settings :=
  (((Toml.read? t).bind ofEntries?).getD {}).corrected

/-! ## Changing -/

/-- Settings with another folder of templates. -/
def withViewsFolder (settings : Settings) (viewsFolder : Text) : Settings :=
  { settings with viewsFolder }

/-- Settings with another time for saved trees. -/
def withMaxAge (settings : Settings) (maxAge : Int) : Settings :=
  { settings with maxAge }

/-- Settings with debug mode on or off. -/
def withDebug (settings : Settings) (debug : Bool) : Settings :=
  { settings with debug }

/-- Settings with one more replacement of routes. -/
def withReroute (settings : Settings) (source target : Text) : Settings :=
  { settings with reroutes := settings.reroutes.insert source target }

/-- Settings with one more constant. -/
def withConstant (settings : Settings) (name value : Text) : Settings :=
  { settings with constants := settings.constants.insert name value }

end Settings
end PageServer
