/-
# Passwords that are given twice

Who registers gives a password twice, and the two have to be the same. Before
they are compared the second one is trimmed, but not the first. So the same text
given twice passes for two passwords exactly if it starts or ends with a blank,
which it may, as nothing that is asked of a password keeps blanks from its ends.

* `Text.HasOuterBlank`, `Text.trim_eq_self_iff`: texts with a blank at an end
* `Rule.message_starts`: messages start with their field, but for one
* `Form.Entry.failing_repeated`: which rules the same password breaks when it is given twice
* `Form.repeated_password`: when it is refused, and what is said of it
* `Form.same_passwords_refused`: a password that is
-/
import PageServer.Proofs.Form.Checking
import PageServer.Proofs.Text.Basic

namespace PageServer

/-! ## Blanks at the ends -/

namespace Text

/-- A text starts or ends with a blank. -/
def HasOuterBlank (t : Text) : Prop :=
  (∃ c ∈ t.head?, isBlank c = true) ∨ ∃ c ∈ t.getLast?, isBlank c = true

/-- These are the texts that do not stay as they are when they are trimmed. -/
theorem trim_eq_self_iff {t : Text} : trim t = t ↔ ¬ t.HasOuterBlank := by
  rw [HasOuterBlank, not_or]
  simp only [not_exists, not_and]
  constructor
  · intro h
    exact of_trimBy_eq_self h
  · intro h
    exact trimBy_eq_self h.1 h.2

end Text

/-! ## Messages -/

namespace Rule

/-- A message starts with the field that it is about, but for the one about two passwords. -/
theorem message_starts (rule : Rule) (field : Text) :
    (∃ password, rule = .mustMatchPassword password) ∨ field <+: rule.message field := by
  unfold message
  cases rule with
  | mustMatchPassword password => exact Or.inl ⟨password, rfl⟩
  | _ =>
      right
      simp only [List.append_assoc]
      exact List.prefix_append _ _

/-- So of a field with another start it is said that two passwords must match exactly if that is
among the rules. -/
theorem mem_messages_iff {field : Text} (h : ¬ field <+: ("both passwords must match" : Text))
    (rules : List Rule) :
    ("both passwords must match" : Text) ∈ rules.map (fun rule => rule.message field) ↔
      ∃ password, mustMatchPassword password ∈ rules := by
  rw [List.mem_map]
  constructor
  · rintro ⟨rule, hrule, hsaid⟩
    rcases rule.message_starts field with ⟨password, rfl⟩ | hstarts
    · exact ⟨password, hrule⟩
    · exact absurd (hsaid ▸ hstarts) h
  · rintro ⟨password, hrule⟩
    exact ⟨mustMatchPassword password, hrule, rfl⟩

end Rule

namespace Form

/-! ## Passwords -/

namespace Entry

/-- **A password that is given twice breaks what it breaks alone**, and that both have to be the same
exactly if it is not the same when it is trimmed. -/
theorem failing_repeated (p : Text) :
    (password p [.mustMatchPassword p]).failing =
      (password p []).failing ++ if Text.trim p = p then [] else [.mustMatchPassword p] := by
  have hpreset : (password p []).failing =
      passwordRules.filter fun rule => decide (rule.check p = .ok false) := rfl
  have hrepeated : (password p [.mustMatchPassword p]).failing =
      (passwordRules ++ [Rule.mustMatchPassword p]).filter fun rule =>
        decide (rule.check p = .ok false) := rfl
  have hmatch : (Rule.mustMatchPassword p).check p = .ok (decide (p = Text.trim p)) := rfl
  rw [hpreset, hrepeated, List.filter_append, List.filter_singleton, hmatch]
  congr 1
  by_cases hsame : Text.trim p = p
  · simp [hsame]
  · simp [hsame, Ne.symm hsame]

/-- None of the rules of a password alone is that both have to be the same. -/
theorem not_mem_failing_preset (p other : Text) :
    Rule.mustMatchPassword other ∉ (password p []).failing := by
  intro hmem
  have hrule : Rule.mustMatchPassword other ∈ passwordRules := List.mem_of_mem_filter hmem
  simp [passwordRules] at hrule

/-- It is broken that both have to be the same exactly if the password has a blank at an end. -/
theorem mem_failing_repeated (p : Text) :
    Rule.mustMatchPassword p ∈ (password p [.mustMatchPassword p]).failing ↔ p.HasOuterBlank := by
  rw [failing_repeated, List.mem_append, or_iff_right (not_mem_failing_preset p p)]
  split_ifs with hsame
  · simpa using Text.trim_eq_self_iff.mp hsame
  · simpa [Text.trim_eq_self_iff] using hsame

/-- So nothing is broken exactly if nothing is by the password alone, and it has no such blank. -/
theorem isEmpty_failing_repeated (p : Text) :
    (password p [.mustMatchPassword p]).failing.isEmpty = true ↔
      (password p []).failing.isEmpty = true ∧ ¬ p.HasOuterBlank := by
  rw [failing_repeated, List.isEmpty_iff, List.append_eq_nil_iff, ← List.isEmpty_iff,
    ← Text.trim_eq_self_iff]
  refine and_congr_right fun _ => ?_
  split_ifs with hsame <;> simp [hsame]

end Entry

/-! ## The form to register -/

/-- The fields of the form to register, with the same password given twice. -/
def repeatedFields (email p : Text) : List (Text × Entry) :=
  [("Email", .ofRules email [.required, .isEmail]), ("Password", .password p [.mustMatchPassword p])]

theorem isSure_repeatedFields (email p : Text) :
    ∀ field ∈ repeatedFields email p, ∀ rule ∈ field.2.rules, rule.IsSure := by
  intro field hfield
  rcases List.mem_pair.mp hfield with rfl | rfl
  · exact Entry.isSure_ofRules email (by simp [Rule.IsSure])
  · exact Entry.isSure_password p (by simp [Rule.IsSure])

/-- What is said of two passwords that are not the same is said exactly if this rule is broken. -/
theorem mem_complaints_repeated (email p : Text) :
    ("both passwords must match" : Text) ∈ complaints (repeatedFields email p) ↔
      .mustMatchPassword p ∈ (Entry.password p [.mustMatchPassword p]).failing := by
  have hemail : ¬ ∃ other, Rule.mustMatchPassword other ∈
      (Entry.ofRules email [.required, .isEmail]).failing := by
    rintro ⟨other, hmem⟩
    have hrule : Rule.mustMatchPassword other ∈ [Rule.required, .isEmail] :=
      List.mem_of_mem_filter hmem
    simp at hrule
  have hpassword : (∃ other, Rule.mustMatchPassword other ∈
      (Entry.password p [.mustMatchPassword p]).failing) ↔
        Rule.mustMatchPassword p ∈ (Entry.password p [.mustMatchPassword p]).failing := by
    refine ⟨?_, fun hmem => ⟨p, hmem⟩⟩
    rintro ⟨other, hmem⟩
    have hrule : Rule.mustMatchPassword other ∈ Entry.passwordRules ++ [.mustMatchPassword p] :=
      List.mem_of_mem_filter hmem
    have hother : other = p := by simpa [Entry.passwordRules] using hrule
    rwa [hother] at hmem
  have hcomplaints : complaints (repeatedFields email p) =
      (Entry.ofRules email [.required, .isEmail]).failing.map (fun rule => rule.message "Email") ++
        (Entry.password p [.mustMatchPassword p]).failing.map
          (fun rule => rule.message "Password") := by
    rw [complaints, repeatedFields, List.flatMap_cons, List.flatMap_singleton]
  rw [hcomplaints, List.mem_append, Rule.mem_messages_iff (by decide),
    Rule.mem_messages_iff (by decide), or_iff_right hemail, hpassword]

/-- **The same password given twice.** It is refused as two passwords exactly if it starts or ends
with a blank; it passes exactly if it does not, and keeps what is asked of every password. Whatever
the address is, the form to register says that both passwords must match in just this case. -/
theorem repeated_password (p : Text) :
    ∃ preset repeated, (Entry.password p []).check = .ok preset ∧
      (Entry.password p [.mustMatchPassword p]).check = .ok repeated ∧
      (.mustMatchPassword p ∈ repeated.broken ↔ p.HasOuterBlank) ∧
      (repeated.isValid = true ↔ preset.isValid = true ∧ ¬ p.HasOuterBlank) ∧
      ∀ email, ∃ messages, (checkFields (repeatedFields email p)).2 = .ok messages ∧
        (("both passwords must match" : Text) ∈ messages ↔ p.HasOuterBlank) := by
  have hmatch : ∀ rule ∈ [Rule.mustMatchPassword p], rule.IsSure := by simp [Rule.IsSure]
  refine ⟨_, _, Entry.check_of_isSure (Entry.isSure_password p (List.forall_mem_nil _)),
    Entry.check_of_isSure (Entry.isSure_password p hmatch), Entry.mem_failing_repeated p,
    Entry.isEmpty_failing_repeated p, fun email => ?_⟩
  exact ⟨_, said_of_isSure (isSure_repeatedFields email p),
    (mem_complaints_repeated email p).trans (Entry.mem_failing_repeated p)⟩

/-- A password that is refused although it is given twice. -/
theorem same_passwords_refused :
    ∃ preset repeated, (Entry.password " Secret1!" []).check = .ok preset ∧
      preset.isValid = true ∧
      (Entry.password " Secret1!" [.mustMatchPassword " Secret1!"]).check = .ok repeated ∧
      repeated.broken = [.mustMatchPassword " Secret1!"] :=
  ⟨_, _, rfl, by decide, rfl, by decide⟩

end Form

end PageServer
