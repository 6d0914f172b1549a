/-
# Forms

The fields of a form with their entries, which are checked together.

* `Form.setField`, `Form.addRules`: change the fields
* `Form.check`: checks all fields and collects what is said of them
-/
import PageServer.Form.Entry

namespace PageServer

/-- The fields of a form, and what was said of them when they were last checked. -/
structure Form where
  /-- The entries by field, in the order in which they were first set. -/
  fields : List (Text × Form.Entry) := []
  /-- The messages about broken rules. -/
  messages : List Text := []
  deriving DecidableEq, Repr, Inhabited

namespace Form

/-- Some fields with the entry of one of them changed, or with one more field. -/
def putField (name : Text) (entry : Entry) : List (Text × Entry) → List (Text × Entry)
  | [] => [(name, entry)]
  | (other, old) :: rest =>
    if other = name then (name, entry) :: rest else (other, old) :: putField name entry rest

/-- A form with the entry of a field set. -/
def setField (form : Form) (name : Text) (entry : Entry) : Form :=
  { form with fields := putField name entry form.fields }

/-- A form with some fields. -/
def ofFields (fields : List (Text × Entry)) : Form :=
  fields.foldl (fun form field => form.setField field.1 field.2) {}

/-- A form with more rules for a field, if it has it. -/
def addRules (form : Form) (name : Text) (rules : List Rule) : Form :=
  match form.fields.lookup name with
  | some entry => form.setField name (entry.addRules rules)
  | none => form

/-- Checks fields in order, up to one whose rules can not be checked; those before it know which
rules they break. -/
def checkFields : List (Text × Entry) → List (Text × Entry) × Except Fault (List Text)
  | [] => ([], .ok [])
  | (name, entry) :: rest =>
    match entry.check with
    | .error fault => ((name, entry) :: rest, .error fault)
    | .ok checked =>
      let (others, said) := checkFields rest
      ((name, checked) :: others, said.map fun messages => checked.messages name ++ messages)

/-- Checks all fields: whether they keep their rules, and the form with what is said of them. The
messages stay as they were if a rule can not be checked. -/
def check (form : Form) : Except Fault Bool × Form :=
  let (fields, said) := checkFields form.fields
  match said with
  | .ok messages => (.ok messages.isEmpty, { fields, messages })
  | .error fault => (.error fault, { form with fields })

end Form
end PageServer
