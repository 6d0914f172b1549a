/-
# Entries and forms over time

Whatever is done with an entry, it has the rules that have been set on it, each
name once, where it was first set, as it was last set. Checking it finds those
that its text breaks, and changes nothing if one of them can not be checked. A
form has the fields that have been set in the same way, and checking it says all
that is to be said of them.

* `Form.Entry.Call`, `Form.Entry.run`: what may be done with an entry
* `Form.Entry.Has.perform`, `Form.Entry.Has.run`: what it has after one call, and after some
* `Form.Call`, `Form.run`: what may be done with a form
* `Form.IsAfter.perform`, `Form.isAfter_run`: what it has after one call, and after some
* `Form.checked_of_calls`: the rules and the messages after any calls
-/
import PageServer.Proofs.Form.Checking

namespace PageServer.Form

/-! ## Entries -/

namespace Entry

/-- What may be done with an entry. -/
inductive Call where
  /-- Rules are set. -/
  | addRules (rules : List Rule)
  /-- A rule is set by its name. -/
  | addNamed (name : Text) (parameters : List Text)
  /-- The entry is checked. -/
  | check

/-- The rules that a call sets. -/
def Call.sets : Call → List Rule
  | addRules rules => rules
  | addNamed name parameters =>
    match Rule.ofName name parameters with
    | .ok rule => [rule]
    | .error _ => []
  | check => []

/-- Does a call: the answer, which only a check has, and the entry afterwards. -/
def perform (entry : Entry) : Call → Except Fault (Option Bool) × Entry
  | .addRules rules => (.ok none, entry.addRules rules)
  | .addNamed name parameters =>
    match entry.addNamed name parameters with
    | .ok added => (.ok none, added)
    | .error fault => (.error fault, entry)
  | .check =>
    match entry.check with
    | .ok checked => (.ok (some checked.isValid), checked)
    | .error fault => (.error fault, entry)

/-- The entry after some calls. -/
def run (entry : Entry) (calls : List Call) : Entry :=
  calls.foldl (fun entry call => (entry.perform call).2) entry

/-- Setting rules in two steps is setting them at once. -/
theorem addRules_addRules (entry : Entry) (rules more : List Rule) :
    (entry.addRules rules).addRules more = entry.addRules (rules ++ more) := by
  rw [addRules, addRules, addRules, List.foldl_append]

/-- A password has the rules that are asked of every password, and some more. -/
theorem password_eq (value : Text) (given : List Rule) :
    password value given = ofRules value (passwordRules ++ given) :=
  addRules_addRules _ passwordRules given

/-- An entry has a value, and the rules of a history. -/
structure Has (value : Text) (history : List Rule) (entry : Entry) : Prop where
  value : entry.value = value
  rules : Keyed.IsLatest Rule.name history entry.rules

variable {value : Text} {history : List Rule} {entry : Entry}

theorem Has.addRules (h : Has value history entry) (rules : List Rule) :
    Has value (history ++ rules) (entry.addRules rules) := by
  refine ⟨h.value, ?_⟩
  have hrules := h.rules.foldl rules
  simp only [← setRule_eq_put] at hrules
  exact hrules

/-- A new entry has the rules that it is made with. -/
theorem has_ofRules (value : Text) (given : List Rule) :
    Has value given (ofRules value given) := by
  have hnew : Has value [] { value } := ⟨rfl, rfl, nofun⟩
  exact hnew.addRules given

/-- Checking an entry finds its failing rules, or changes nothing. -/
theorem perform_check (entry : Entry) :
    entry.perform .check =
      match firstFault? entry.results with
      | some fault => (.error fault, entry)
      | none => (.ok (some entry.failing.isEmpty), { entry with broken := entry.failing }) := by
  rw [perform, check_eq]
  cases firstFault? entry.results <;> rfl

/-- **One call sets its rules** and leaves the value. -/
theorem Has.perform (h : Has value history entry) (call : Call) :
    Has value (history ++ call.sets) (entry.perform call).2 := by
  cases call with
  | addRules rules => exact h.addRules rules
  | addNamed name parameters =>
      rw [Entry.perform, addNamed, Call.sets]
      cases Rule.ofName name parameters with
      | ok rule => exact h.addRules [rule]
      | error fault =>
          rw [List.append_nil]
          exact h
  | check =>
      rw [perform_check, Call.sets, List.append_nil]
      cases firstFault? entry.results with
      | some fault => exact h
      | none => exact ⟨h.value, h.rules⟩

/-- **Any calls set their rules** and leave the value. -/
theorem Has.run (h : Has value history entry) (calls : List Call) :
    Has value (history ++ calls.flatMap Call.sets) (entry.run calls) := by
  induction calls generalizing history entry with
  | nil =>
      rw [List.flatMap_nil, List.append_nil]
      exact h
  | cons call rest ih =>
      rw [List.flatMap_cons, ← List.append_assoc]
      exact ih (h.perform call)

/-- All rules are kept exactly if the answer is that they are. -/
theorem answer_true_iff (entry : Entry) :
    (entry.perform .check).1 = .ok (some true) ↔
      ∀ rule ∈ entry.rules, rule.check entry.value = .ok true := by
  have hnone : firstFault? entry.results = none ↔
      ∀ rule ∈ entry.rules, ∃ kept, rule.check entry.value = .ok kept := by
    rw [firstFault?_eq_none_iff, results, List.forall_mem_map]
  rw [perform_check]
  constructor
  · intro h
    cases hfault : firstFault? entry.results with
    | some fault =>
        rw [hfault] at h
        contradiction
    | none =>
        rw [hfault] at h
        have hempty : entry.failing = [] := by simpa using h
        intro rule hrule
        obtain ⟨kept, hkept⟩ := hnone.mp hfault rule hrule
        have hsound := List.filter_eq_nil_iff.mp hempty rule hrule
        cases kept with
        | true => exact hkept
        | false => exact absurd (decide_eq_true hkept) hsound
  · intro h
    have hempty : entry.failing = [] := by
      refine List.filter_eq_nil_iff.mpr fun rule hrule => ?_
      rw [h rule hrule]
      decide
    rw [hnone.mpr fun rule hrule => ⟨true, h rule hrule⟩, hempty]
    rfl

/-- The answer is a fault exactly if a check fails, and then it is the first one. -/
theorem answer_error_iff (entry : Entry) (fault : Fault) :
    (entry.perform .check).1 = .error fault ↔ firstFault? entry.results = some fault := by
  rw [perform_check]
  cases firstFault? entry.results <;> simp

/-- There is an answer exactly if no check fails. -/
theorem exists_answer_iff (entry : Entry) :
    (∃ kept, (entry.perform .check).1 = .ok (some kept)) ↔ firstFault? entry.results = none := by
  rw [perform_check]
  cases firstFault? entry.results <;> simp

/-- After an answer the broken rules are those that fail. -/
theorem broken_of_answer {kept : Bool} (h : (entry.perform .check).1 = .ok (some kept)) :
    (entry.perform .check).2.broken = entry.failing := by
  rw [perform_check] at h ⊢
  cases hfault : firstFault? entry.results with
  | some fault =>
      rw [hfault] at h
      contradiction
  | none => rfl

/-- A call that fails changes nothing. -/
theorem perform_of_error {call : Call} {fault : Fault} (h : (entry.perform call).1 = .error fault) :
    (entry.perform call).2 = entry := by
  cases call with
  | addRules rules => contradiction
  | addNamed name parameters =>
      rw [perform] at h ⊢
      cases hadded : entry.addNamed name parameters with
      | ok added =>
          rw [hadded] at h
          contradiction
      | error fault => rfl
  | check =>
      rw [perform_check] at h ⊢
      cases hfault : firstFault? entry.results with
      | some fault => rfl
      | none =>
          rw [hfault] at h
          contradiction

end Entry

/-! ## Forms -/

/-- What may be done with a form. -/
inductive Call where
  /-- A field is set. -/
  | setField (name : Text) (entry : Entry)
  /-- Rules are set for a field. -/
  | addRules (name : Text) (rules : List Rule)
  /-- The form is checked. -/
  | check

/-- The field that a call sets. -/
def Call.field? : Call → Option Text
  | setField name _ => some name
  | _ => none

/-- The rules that a call sets for a field. -/
def Call.rulesFor (name : Text) : Call → List Rule
  | addRules other rules => if other = name then rules else []
  | _ => []

/-- Does a call: the answer, which only a check has, and the form afterwards. -/
def perform (form : Form) : Call → Except Fault (Option Bool) × Form
  | .setField name entry => (.ok none, form.setField name entry)
  | .addRules name rules => (.ok none, form.addRules name rules)
  | .check => (form.check.1.map some, form.check.2)

/-- The form after some calls. -/
def run (form : Form) (calls : List Call) : Form :=
  calls.foldl (fun form call => (form.perform call).2) form

/-- A form is made by setting its fields. -/
theorem ofFields_eq_run (given : List (Text × Entry)) :
    ofFields given = run {} (given.map fun field => .setField field.1 field.2) := by
  rw [run, List.foldl_map]
  rfl

/-- The entry of a field is the one that it was last set to, with the rules that have been set for
it since then. -/
def IsSetBy (calls : List Call) (name : Text) (entry : Entry) : Prop :=
  ∃ before given after, calls = before ++ .setField name given :: after ∧
    (∀ call ∈ after, call.field? ≠ some name) ∧ entry.value = given.value ∧
      entry.rules = (given.addRules (after.flatMap (Call.rulesFor name))).rules

/-- What a form has after some calls: the fields that have been set, each once, in the order in
which they were first set, with the entries that were set last. -/
structure IsAfter (calls : List Call) (form : Form) : Prop where
  names : form.fields.map Prod.fst = (calls.filterMap Call.field?).eraseDups
  entries : ∀ field ∈ form.fields, IsSetBy calls field.1 field.2

variable {calls : List Call} {form : Form} {name : Text} {entry : Entry}

theorem IsAfter.nodup (h : IsAfter calls form) : (form.fields.map Prod.fst).Nodup := by
  rw [h.names]
  exact Keyed.nodup_eraseDups _

/-- One more call that does not set a field may set rules for it. -/
theorem IsSetBy.concat (h : IsSetBy calls name entry) {call : Call} {entry' : Entry}
    (hcall : call.field? ≠ some name) (hvalue : entry'.value = entry.value)
    (hrules : entry'.rules = (entry.addRules (call.rulesFor name)).rules) :
    IsSetBy (calls ++ [call]) name entry' := by
  obtain ⟨before, given, after, hcalls, hafter, hgiven, hset⟩ := h
  refine ⟨before, given, after ++ [call], ?_, ?_, hvalue.trans hgiven, ?_⟩
  · rw [hcalls, List.append_assoc]
    rfl
  · intro other hother
    rcases List.mem_append.mp hother with hother | hother
    · exact hafter other hother
    · rw [List.mem_singleton.mp hother]
      exact hcall
  · rw [hrules, List.flatMap_append, List.flatMap_singleton, ← Entry.addRules_addRules]
    simp only [Entry.addRules, hset]

/-- One more call that does nothing to a field leaves it. -/
theorem IsSetBy.skip (h : IsSetBy calls name entry) {call : Call}
    (hcall : call.field? ≠ some name) (hrules : call.rulesFor name = []) :
    IsSetBy (calls ++ [call]) name entry :=
  h.concat hcall rfl (by rw [hrules]; rfl)

/-- Checking fields keeps their names, values and rules. -/
theorem checkFields_same (fields : List (Text × Entry)) :
    (checkFields fields).1.map (fun field => (field.1, field.2.value, field.2.rules)) =
      fields.map fun field => (field.1, field.2.value, field.2.rules) := by
  induction fields with
  | nil => rfl
  | cons field rest ih =>
      obtain ⟨name, entry⟩ := field
      rw [checkFields, Entry.check_eq]
      cases firstFault? entry.results with
      | some fault => rfl
      | none => exact congrArg (_ :: ·) ih

/-- **Checking a form says all that is to be said**, or leaves what was said. -/
theorem check_eq (form : Form) :
    form.check =
      match firstFault? (results form.fields) with
      | some fault => (.error fault, { form with fields := (checkFields form.fields).1 })
      | none => (.ok (complaints form.fields).isEmpty,
          ⟨(checkFields form.fields).1, complaints form.fields⟩) := by
  unfold check
  dsimp only
  rw [said_checkFields]
  cases firstFault? (results form.fields) <;> rfl

/-- The fields after a check. -/
theorem fields_check (form : Form) : form.check.2.fields = (checkFields form.fields).1 := by
  rw [check_eq]
  cases firstFault? (results form.fields) <;> rfl

theorem IsAfter.setField (h : IsAfter calls form) (name : Text) (entry : Entry) :
    IsAfter (calls ++ [.setField name entry]) (form.setField name entry) := by
  have hfields : (form.setField name entry).fields =
      Keyed.put Prod.fst (name, entry) form.fields := putField_eq_put name entry form.fields
  constructor
  · rw [hfields, List.filterMap_append]
    exact Keyed.map_key_put_eq_eraseDups h.names (name, entry)
  · intro field hfield
    rw [hfields] at hfield
    by_cases hnew : field = (name, entry)
    · rw [hnew]
      exact ⟨calls, entry, [], rfl, nofun, rfl, rfl⟩
    · obtain ⟨hold, hname⟩ := Keyed.key_ne_of_mem_put h.nodup hfield hnew
      exact (h.entries field hold).skip (fun hsame => hname (Option.some.inj hsame).symm) rfl

theorem IsAfter.addRules (h : IsAfter calls form) (name : Text) (rules : List Rule) :
    IsAfter (calls ++ [.addRules name rules]) (form.addRules name rules) := by
  have hnames : (calls ++ [Call.addRules name rules]).filterMap Call.field? =
      calls.filterMap Call.field? := by
    rw [List.filterMap_append]
    exact List.append_nil _
  -- the other fields stay
  have hother : ∀ field ∈ form.fields, field.1 ≠ name →
      IsSetBy (calls ++ [.addRules name rules]) field.1 field.2 := fun field hfield hne =>
    (h.entries field hfield).skip nofun (if_neg (Ne.symm hne))
  unfold Form.addRules
  cases hentry : form.fields.lookup name with
  | none =>
      refine ⟨by rw [hnames]; exact h.names, fun field hfield => hother field hfield ?_⟩
      rintro rfl
      have hne := List.lookup_eq_none_iff.mp hentry field hfield
      simp at hne
  | some entry =>
      obtain ⟨before, after, hsplit, -⟩ := List.lookup_eq_some_iff.mp hentry
      have hmem : (name, entry) ∈ form.fields := by
        rw [hsplit]
        simp
      have hfields : (form.setField name (entry.addRules rules)).fields =
          Keyed.put Prod.fst (name, entry.addRules rules) form.fields :=
        putField_eq_put name _ form.fields
      constructor
      · rw [hfields, Keyed.map_key_put, if_pos (List.mem_map_of_mem hmem), hnames]
        exact h.names
      · intro field hfield
        rw [hfields] at hfield
        by_cases hnew : field = (name, entry.addRules rules)
        · have hrules : Call.rulesFor name (.addRules name rules) = rules := if_pos rfl
          rw [hnew]
          exact (h.entries _ hmem).concat nofun rfl (by rw [hrules])
        · obtain ⟨hold, hne⟩ := Keyed.key_ne_of_mem_put h.nodup hfield hnew
          exact hother field hold hne

theorem IsAfter.check (h : IsAfter calls form) : IsAfter (calls ++ [.check]) form.check.2 := by
  have hsame := checkFields_same form.fields
  constructor
  · have hnames := congrArg (List.map Prod.fst) hsame
    rw [List.map_map, List.map_map] at hnames
    rw [fields_check, List.filterMap_append]
    exact (hnames.trans h.names).trans (congrArg List.eraseDups (List.append_nil _).symm)
  · intro field hfield
    rw [fields_check] at hfield
    have hmem : (field.1, field.2.value, field.2.rules) ∈
        form.fields.map fun field => (field.1, field.2.value, field.2.rules) := by
      rw [← hsame]
      exact List.mem_map.mpr ⟨field, hfield, rfl⟩
    obtain ⟨old, hold, heq⟩ := List.mem_map.mp hmem
    obtain ⟨hname, hentry⟩ := Prod.ext_iff.mp heq
    obtain ⟨hvalue, hrules⟩ := Prod.ext_iff.mp hentry
    rw [← show old.1 = field.1 from hname]
    exact (h.entries old hold).concat nofun hvalue.symm hrules.symm

/-- **One call goes on with the calls before.** -/
theorem IsAfter.perform (h : IsAfter calls form) (call : Call) :
    IsAfter (calls ++ [call]) (form.perform call).2 := by
  cases call with
  | setField name entry => exact h.setField name entry
  | addRules name rules => exact h.addRules name rules
  | check => exact h.check

/-- **What a form has after any calls.** -/
theorem isAfter_run (calls : List Call) : IsAfter calls (run {} calls) := by
  induction calls using List.reverseRecOn with
  | nil => exact ⟨rfl, nofun⟩
  | append_singleton calls call ih =>
      rw [run, List.foldl_append]
      exact ih.perform call

/-! ## Checks after any calls -/

/-- The answer to the check of a form says whether nothing is said, and the messages are all that is
to be said. -/
theorem messages_of_answer {kept : Bool} (h : (form.perform .check).1 = .ok (some kept)) :
    (form.perform .check).2.messages = complaints form.fields ∧
      kept = (complaints form.fields).isEmpty := by
  rw [perform, check_eq] at h ⊢
  cases hfault : firstFault? (results form.fields) with
  | some fault =>
      rw [hfault] at h
      contradiction
  | none =>
      rw [hfault] at h
      exact ⟨rfl, (Option.some.inj (Except.ok.inj h)).symm⟩

/-- It is a fault exactly if some rule can not be checked, and then it is the first one. -/
theorem answer_error_iff (form : Form) (fault : Fault) :
    (form.perform .check).1 = .error fault ↔ firstFault? (results form.fields) = some fault := by
  rw [perform, check_eq]
  cases firstFault? (results form.fields) <;> simp [Except.map]

/-- There is an answer exactly if every rule can be checked. -/
theorem exists_answer_iff (form : Form) :
    (∃ kept, (form.perform .check).1 = .ok (some kept)) ↔
      firstFault? (results form.fields) = none := by
  rw [perform, check_eq]
  cases firstFault? (results form.fields) <;> simp [Except.map]

/-- After a fault the messages stay. -/
theorem messages_of_error {fault : Fault} (h : (form.perform .check).1 = .error fault) :
    (form.perform .check).2.messages = form.messages := by
  rw [answer_error_iff] at h
  rw [perform, check_eq, h]

/-- **Rules and messages after any calls.** An entry has one rule of each name that has been set, in
the order in which the names were first set, as it was last set. A check says that all rules are kept
exactly if each of them is, and finds those that are broken, in order; a call that fails changes
nothing. A form has one entry for each field that has been set, in the order in which the fields
were first set, as it was last set. A check collects the messages of all broken rules of all fields,
in order, and leaves the messages as they were if it fails. -/
theorem checked_of_calls :
    (∀ value given, Entry.password value given =
      Entry.ofRules value (Entry.passwordRules ++ given)) ∧
    (∀ value given calls,
      let entry := (Entry.ofRules value given).run calls
      entry.value = value ∧
      Keyed.IsLatest Rule.name (given ++ calls.flatMap Entry.Call.sets) entry.rules ∧
      (entry.rules.map Rule.name).Nodup ∧
      ((entry.perform .check).1 = .ok (some true) ↔
        ∀ rule ∈ entry.rules, rule.check value = .ok true) ∧
      ((∃ kept, (entry.perform .check).1 = .ok (some kept)) ↔
        firstFault? (entry.rules.map fun rule => rule.check value) = none) ∧
      (∀ kept, (entry.perform .check).1 = .ok (some kept) →
        (entry.perform .check).2.broken =
          entry.rules.filter fun rule => decide (rule.check value = .ok false)) ∧
      (∀ fault, (entry.perform .check).1 = .error fault ↔
        firstFault? (entry.rules.map fun rule => rule.check value) = some fault) ∧
      ∀ call fault, (entry.perform call).1 = .error fault → (entry.perform call).2 = entry) ∧
    (∀ given, ofFields given = run {} (given.map fun field => .setField field.1 field.2)) ∧
    ∀ calls,
      let form := run {} calls
      form.fields.map Prod.fst = (calls.filterMap Call.field?).eraseDups ∧
      (∀ field ∈ form.fields, IsSetBy calls field.1 field.2) ∧
      ((∃ kept, (form.perform .check).1 = .ok (some kept)) ↔
        firstFault? (results form.fields) = none) ∧
      (∀ kept, (form.perform .check).1 = .ok (some kept) →
        (form.perform .check).2.messages = complaints form.fields ∧
          kept = (complaints form.fields).isEmpty) ∧
      ∀ fault,
        ((form.perform .check).1 = .error fault ↔
          firstFault? (results form.fields) = some fault) ∧
        ((form.perform .check).1 = .error fault →
          (form.perform .check).2.messages = form.messages) := by
  refine ⟨Entry.password_eq, fun value given calls => ?_, ofFields_eq_run, fun calls => ?_⟩
  · intro entry
    have hentry : Entry.Has value (given ++ calls.flatMap Entry.Call.sets) entry :=
      (Entry.has_ofRules value given).run calls
    have hvalue := hentry.value
    refine ⟨hvalue, hentry.rules, hentry.rules.nodup, ?_, ?_, ?_, ?_, ?_⟩
    · rw [← hvalue]
      exact entry.answer_true_iff
    · rw [← hvalue]
      exact entry.exists_answer_iff
    · intro kept h
      rw [← hvalue]
      exact Entry.broken_of_answer h
    · intro fault
      rw [← hvalue]
      exact entry.answer_error_iff fault
    · intro call fault h
      exact Entry.perform_of_error h
  · intro form
    obtain ⟨hnames, hentries⟩ := isAfter_run calls
    exact ⟨hnames, hentries, form.exists_answer_iff, fun kept => messages_of_answer,
      fun fault => ⟨form.answer_error_iff fault, messages_of_error⟩⟩

/-- A field is set again in its place, and a pattern that can not be read leaves the messages. -/
theorem checked_of_calls_sample :
    ((Entry.password "abc" [.minLength 8, .inRange 1 3]).rules =
      [.containsInt, .containsUpper, .containsAlpha, .containsSpecialChar, .inRange 1 3,
        .minLength 8]) ∧
    (let form := run {} [.setField "Code" (.ofRules "7" [.isUpper]),
      .setField "Name" (.ofRules "" [.required]), .setField "Code" (.ofRules "x" [.isInt]), .check,
      .addRules "Name" [.matchesPattern "("]]
    form.fields.map Prod.fst = ["Code", "Name"] ∧
      (form.perform .check).2.messages = ["Code must be a number", "Name is required"]) := by
  obtain ⟨-, -, -, hforms⟩ := checked_of_calls
  refine ⟨by decide +kernel, ?_⟩
  intro form
  obtain ⟨hnames, -, -, -, hfaults⟩ := hforms [.setField "Code" (.ofRules "7" [.isUpper]),
    .setField "Name" (.ofRules "" [.required]), .setField "Code" (.ofRules "x" [.isInt]), .check,
    .addRules "Name" [.matchesPattern "("]]
  refine ⟨hnames.trans (by decide +kernel), ?_⟩
  have hfails : (form.perform .check).1 =
      .error (.invalidRule "matches_regexp: the pattern can not be read") := by decide +kernel
  exact ((hfaults _).2 hfails).trans (by decide +kernel)

end PageServer.Form
