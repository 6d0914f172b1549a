/-
# Checking fields

Fields are checked rule by rule, up to the first rule that can not be checked. If
there is none, what is said of them are the messages of the broken rules. Each
rule but the one with a pattern of its own is kept or broken by every text, so a
form with such rules can always be checked.

* `Form.Entry.check_eq`, `Form.said_checkFields`: what comes of checking entries and fields
* `Rule.IsSure`: the rules that can always be checked
* `Form.Entry.isKept`: whether a text keeps its rules
* `Form.checkFields_of_isSure`: what is said of fields
* `Visiting.run_checkFields`: the same for the fields that came with a request
-/
import PageServer.Proofs.Action
import PageServer.Proofs.Form.Keyed
import PageServer.Site.Visit

namespace PageServer

/-! ## Rules -/

namespace Rule

/-- The rules that can always be checked: all but the one with a pattern of its own, which may not
be readable. -/
def IsSure : Rule → Prop
  | matchesPattern _ => False
  | _ => True

/-- Whether a text keeps a rule that can be checked. -/
def keeps (rule : Rule) (t : Text) : Bool :=
  match rule.check t with
  | .ok kept => kept
  | .error _ => false

/-- A rule that can always be checked is kept or broken. -/
theorem check_eq {rule : Rule} (h : rule.IsSure) (t : Text) :
    rule.check t = .ok (rule.keeps t) := by
  cases rule with
  | matchesPattern pattern => exact absurd h id
  | _ => rfl

end Rule

namespace Form

/-- The first fault among the results of some checks. -/
def firstFault? : List (Except Fault Bool) → Option Fault
  | [] => none
  | .error fault :: _ => some fault
  | .ok _ :: rest => firstFault? rest

theorem firstFault?_append (results more : List (Except Fault Bool)) :
    firstFault? (results ++ more) = (firstFault? results).or (firstFault? more) := by
  induction results with
  | nil => rfl
  | cons result rest ih =>
      cases result with
      | error fault => rfl
      | ok kept => exact ih

/-- There is no fault where no check fails. -/
theorem firstFault?_eq_none_iff {results : List (Except Fault Bool)} :
    firstFault? results = none ↔ ∀ result ∈ results, ∃ kept, result = .ok kept := by
  induction results with
  | nil => simp [firstFault?]
  | cons result rest ih =>
      cases result with
      | error fault => simp [firstFault?]
      | ok kept => simp [firstFault?, ih]

/-! ## Entries -/

namespace Entry

/-- The results of checking the rules of an entry. -/
def results (entry : Entry) : List (Except Fault Bool) :=
  entry.rules.map fun rule => rule.check entry.value

/-- The rules that the text of an entry breaks. -/
def failing (entry : Entry) : List Rule :=
  entry.rules.filter fun rule => decide (rule.check entry.value = .ok false)

/-- The broken rules are found unless a rule can not be checked. -/
theorem brokenBy_results (value : Text) (rules : List Rule) :
    brokenBy value rules =
      match firstFault? (rules.map fun rule => rule.check value) with
      | some fault => .error fault
      | none => .ok (rules.filter fun rule => decide (rule.check value = .ok false)) := by
  induction rules with
  | nil => rfl
  | cons rule rest ih =>
      rw [brokenBy, ih, List.map_cons, List.filter_cons]
      cases rule.check value with
      | error fault => rfl
      | ok kept =>
          rw [firstFault?]
          cases firstFault? (rest.map fun rule => rule.check value) with
          | some fault => rfl
          | none => cases kept <;> rfl

/-- **Checking an entry finds the rules that its text breaks**, unless one can not be checked. -/
theorem check_eq (entry : Entry) :
    entry.check =
      match firstFault? entry.results with
      | some fault => .error fault
      | none => .ok { entry with broken := entry.failing } := by
  rw [check, brokenBy_results, results]
  cases firstFault? (entry.rules.map fun rule => rule.check entry.value) <;> rfl

/-- Whether a text keeps all its rules. -/
def isKept (entry : Entry) : Bool := entry.rules.all fun rule => rule.keeps entry.value

/-- Rules that can be checked fail nowhere. -/
theorem firstFault?_results {entry : Entry} (h : ∀ rule ∈ entry.rules, rule.IsSure) :
    firstFault? entry.results = none := by
  refine firstFault?_eq_none_iff.mpr fun result hresult => ?_
  obtain ⟨rule, hrule, rfl⟩ := List.mem_map.mp hresult
  exact ⟨_, Rule.check_eq (h rule hrule) entry.value⟩

/-- So the rules that are broken are found. -/
theorem check_of_isSure {entry : Entry} (h : ∀ rule ∈ entry.rules, rule.IsSure) :
    entry.check = .ok { entry with broken := entry.failing } := by
  rw [check_eq, firstFault?_results h]

/-- What is asked of every password can be checked. -/
theorem isSure_passwordRules : ∀ rule ∈ passwordRules, rule.IsSure := by
  simp [passwordRules, Rule.IsSure]

/-- No rule is broken exactly if all are kept. -/
theorem isEmpty_failing {entry : Entry} (h : ∀ rule ∈ entry.rules, rule.IsSure) :
    entry.failing.isEmpty = entry.isKept := by
  unfold failing isKept
  rw [Bool.eq_iff_iff, List.isEmpty_iff, List.filter_eq_nil_iff, List.all_eq_true]
  refine forall₂_congr fun rule hrule => ?_
  rw [Rule.check_eq (h rule hrule)]
  simp

/-- Both orders of the two rules for an address ask the same. -/
theorem isKept_ofRules (value : Text) :
    (ofRules value [.isEmail, .required]).isKept =
        (Rule.isEmail.keeps value && Rule.required.keeps value) ∧
      (ofRules value [.required, .isEmail]).isKept =
        (Rule.required.keeps value && Rule.isEmail.keeps value) := by
  have hfirst : (ofRules value [.isEmail, .required]).rules = [.isEmail, .required] := rfl
  have hsecond : (ofRules value [.required, .isEmail]).rules = [.required, .isEmail] := rfl
  rw [isKept, isKept, hfirst, hsecond]
  simp [ofRules, addRules]

/-- Rules are set by their names. -/
theorem setRule_eq_put (rule : Rule) (rules : List Rule) :
    setRule rule rules = Keyed.put Rule.name rule rules := by
  induction rules with
  | nil => rfl
  | cons other rest ih => rw [setRule, Keyed.put, ih]

/-- More rules that can always be checked leave an entry that can be. -/
theorem isSure_addRules {entry : Entry} {rules : List Rule}
    (h : ∀ rule ∈ entry.rules, rule.IsSure) (hmore : ∀ rule ∈ rules, rule.IsSure) :
    ∀ rule ∈ (entry.addRules rules).rules, rule.IsSure := by
  unfold addRules
  dsimp only
  generalize entry.rules = known at h
  induction rules generalizing known with
  | nil => exact h
  | cons first rest ih =>
      apply ih fun rule hrule => hmore rule (List.mem_cons_of_mem first hrule)
      intro rule hrule
      have hput : rule ∈ Keyed.put Rule.name first known := by
        rw [← setRule_eq_put]
        exact hrule
      rcases Keyed.mem_of_mem_put hput with rfl | hold
      · exact hmore rule List.mem_cons_self
      · exact h rule hold

/-- So an entry with such rules can be checked, -/
theorem isSure_ofRules {rules : List Rule} (value : Text) (h : ∀ rule ∈ rules, rule.IsSure) :
    ∀ rule ∈ (ofRules value rules).rules, rule.IsSure :=
  isSure_addRules (by simp) h

/-- and so can a password with such rules. -/
theorem isSure_password {rules : List Rule} (value : Text) (h : ∀ rule ∈ rules, rule.IsSure) :
    ∀ rule ∈ (password value rules).rules, rule.IsSure :=
  isSure_addRules (isSure_ofRules value isSure_passwordRules) h

end Entry

/-! ## Fields -/

/-- Fields are set by their names. -/
theorem putField_eq_put (name : Text) (entry : Entry) (fields : List (Text × Entry)) :
    putField name entry fields = Keyed.put Prod.fst (name, entry) fields := by
  induction fields with
  | nil => rfl
  | cons field rest ih => rw [putField, Keyed.put, ih]

/-- A form has the fields that it is made of, if each is named once. -/
theorem fields_ofFields {fields : List (Text × Entry)} (h : (fields.map Prod.fst).Nodup) :
    (ofFields fields).fields = fields := by
  induction fields using List.reverseRecOn with
  | nil => rfl
  | append_singleton fields field ih =>
      rw [List.map_append, List.nodup_append] at h
      obtain ⟨hfields, -, hnew⟩ := h
      rw [ofFields, List.foldl_concat]
      change putField field.1 field.2 (ofFields fields).fields = _
      rw [ih hfields, putField_eq_put, Keyed.put_of_not_mem]
      intro hmem
      exact hnew field.1 hmem field.1 (List.mem_singleton_self _) rfl

/-- The results of checking the rules of some fields. -/
def results (fields : List (Text × Entry)) : List (Except Fault Bool) :=
  fields.flatMap fun field => field.2.results

/-- What is to be said of some fields. -/
def complaints (fields : List (Text × Entry)) : List Text :=
  fields.flatMap fun field => field.2.failing.map fun rule => rule.message field.1

/-- **What is said of fields are the messages of the broken rules**, unless a rule can not be
checked. -/
theorem said_checkFields (fields : List (Text × Entry)) :
    (checkFields fields).2 =
      match firstFault? (results fields) with
      | some fault => .error fault
      | none => .ok (complaints fields) := by
  induction fields with
  | nil => rfl
  | cons field rest ih =>
      obtain ⟨name, entry⟩ := field
      have hresults : firstFault? (results ((name, entry) :: rest)) =
          (firstFault? entry.results).or (firstFault? (results rest)) :=
        firstFault?_append entry.results (results rest)
      rw [checkFields, Entry.check_eq, hresults]
      cases firstFault? entry.results with
      | some fault => rfl
      | none =>
          dsimp only
          rw [ih, Option.none_or]
          cases firstFault? (results rest) <;> rfl

/-- If all rules can be checked, all that is to be said is said. -/
theorem said_of_isSure {fields : List (Text × Entry)}
    (h : ∀ field ∈ fields, ∀ rule ∈ field.2.rules, rule.IsSure) :
    (checkFields fields).2 = .ok (complaints fields) := by
  have hfault : firstFault? (results fields) = none := by
    refine firstFault?_eq_none_iff.mpr fun result hresult => ?_
    obtain ⟨field, hfield, hmem⟩ := List.mem_flatMap.mp hresult
    exact firstFault?_eq_none_iff.mp (Entry.firstFault?_results (h field hfield)) result hmem
  rw [said_checkFields, hfault]

/-- Nothing is said of fields exactly if all of them keep their rules. -/
theorem checkFields_of_isSure {fields : List (Text × Entry)}
    (h : ∀ field ∈ fields, ∀ rule ∈ field.2.rules, rule.IsSure) :
    ∃ messages, (checkFields fields).2 = .ok messages ∧
      messages.isEmpty = fields.all fun field => field.2.isKept := by
  refine ⟨complaints fields, said_of_isSure h, ?_⟩
  · rw [Bool.eq_iff_iff, List.isEmpty_iff, complaints, List.flatMap_eq_nil_iff, List.all_eq_true]
    refine forall₂_congr fun field hfield => ?_
    rw [List.map_eq_nil_iff, ← List.isEmpty_iff, Entry.isEmpty_failing (h field hfield)]

/-- What is said of fields are the messages of rules that they have. -/
theorem exists_rule_of_checkFields {fields : List (Text × Entry)} {messages : List Text}
    (h : (checkFields fields).2 = .ok messages) :
    ∀ message ∈ messages, ∃ field ∈ fields, ∃ rule ∈ field.2.rules,
      message = rule.message field.1 := by
  intro message hmessage
  rw [said_checkFields] at h
  split at h
  · contradiction
  · rw [← Except.ok.inj h] at hmessage
    obtain ⟨field, hfield, hmem⟩ := List.mem_flatMap.mp hmessage
    obtain ⟨rule, hrule, rfl⟩ := List.mem_map.mp hmem
    exact ⟨field, hfield, rule, List.mem_of_mem_filter hrule, rfl⟩

end Form

/-- **The fields of a request can be checked**, and nothing is said of them exactly if all of them
keep their rules. -/
theorem Visiting.run_checkFields {fields : List (Text × Form.Entry)}
    (hnames : (fields.map Prod.fst).Nodup)
    (hsure : ∀ field ∈ fields, ∀ rule ∈ field.2.rules, rule.IsSure) (v : Visit) :
    ∃ messages, Action.run (checkFields fields) v = (.ok messages, v) ∧
      messages.isEmpty = fields.all fun field => field.2.isKept := by
  obtain ⟨messages, hsaid, hempty⟩ := Form.checkFields_of_isSure hsure
  refine ⟨messages, ?_, hempty⟩
  have hcheck : (Form.ofFields fields).check =
      (.ok messages.isEmpty, ⟨(Form.checkFields fields).1, messages⟩) := by
    unfold Form.check
    rw [Form.fields_ofFields hnames]
    simp only [hsaid]
  unfold checkFields
  rw [hcheck]
  rfl

/-- What is said of the fields of a request are the messages of rules that they have. -/
theorem Visiting.exists_rule_of_run_checkFields {fields : List (Text × Form.Entry)}
    (hnames : (fields.map Prod.fst).Nodup) {v : Visit} {messages : List Text}
    (h : (Action.run (checkFields fields) v).1 = .ok messages) :
    ∀ message ∈ messages, ∃ field ∈ fields, ∃ rule ∈ field.2.rules,
      message = rule.message field.1 := by
  unfold checkFields Form.check at h
  rw [Form.fields_ofFields hnames] at h
  cases hsaid : (Form.checkFields fields).2 with
  | error fault =>
      simp only [hsaid] at h
      contradiction
  | ok said =>
      simp only [hsaid] at h
      rw [← Except.ok.inj h]
      exact Form.exists_rule_of_checkFields hsaid

end PageServer
