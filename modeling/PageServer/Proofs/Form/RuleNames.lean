/-
# Rules by name

A rule is written as its name and its parameters as texts, and read again from
them. What can not be read is a name that no rule has, and parameters of which
one that is needed is missing or should be a size but is none.

* `Rule.parameters`: the parameters of a rule as texts
* `Rule.ofName_parameters`: a rule is read again
* `Rule.names`, `Rule.name_eq_iff`: the names, one for each kind of rule
* `Rule.needs`, `Rule.Lacks`: which parameters a kind of rule needs, and which ones do not do
* `Rule.fails_ofName_name`: parameters that do not do, for a name that is known
* `Rule.ofName_reads_back`: all of this together
-/
import PageServer.Form.Rule
import PageServer.Proofs.Number.Shape
import PageServer.Proofs.Text.Basic

namespace PageServer.Rule

/-! ## Rules as texts -/

/-- The parameters of a rule as texts. -/
def parameters : Rule → List Text
  | contains part | notContains part => [part]
  | minLength size | maxLength size => [Text.ofNat size]
  | inRange least most => [Text.ofNat least, Text.ofNat most]
  | matchesPattern pattern => [pattern]
  | isDate format => [format]
  | mustMatchPassword password | notPastPassword password => [password]
  | _ => []

/-- The sizes among the parameters of a rule. -/
def sizes : Rule → List Nat
  | minLength size | maxLength size => [size]
  | inRange least most => [least, most]
  | _ => []

/-- The sizes of a rule are numbers of 64 bits. -/
def HasSizes (r : Rule) : Prop := ∀ size ∈ r.sizes, size ≤ Number.maxSize

/-- The digits of a number have no blanks at their ends. -/
theorem trim_ofNat (n : Nat) : Text.trim (Text.ofNat n) = Text.ofNat n := by
  have hdigit : ∀ c ∈ Text.ofNat n, ¬ Text.isBlank c = true := by
    intro c hc hblank
    have hdigit := Text.isDigit_of_mem_ofNat hc
    rw [Number.isDigit_eq, Char.isDigit, Bool.and_eq_true, decide_eq_true_eq,
      decide_eq_true_eq] at hdigit
    have hlow : 48 ≤ c.toNat := hdigit.1
    have hhigh : c.toNat ≤ 57 := hdigit.2
    simp only [Text.isBlank, Bool.or_eq_true, Bool.and_eq_true, decide_eq_true_eq,
      beq_iff_eq] at hblank
    omega
  apply Text.trimBy_eq_self
  · exact fun c hc => hdigit c (List.mem_of_head? hc)
  · exact fun c hc => hdigit c (List.mem_of_getLast? hc)

/-- A parameter that is there is read as a size without the blanks at its ends. -/
theorem sizeAt_eq {name t : Text} {parameters : List Text} {place : Nat}
    (h : parameters[place]? = some t) :
    sizeAt name parameters place = (Number.readSize? (Text.trim t)).elim
      (.error (.invalidRule (name ++ " expects a number, got \x27" ++ t ++ "\x27"))) .ok := by
  have hbind : ∀ next : Text → Except Fault Nat, (Except.ok t >>= next) = next t := fun _ => rfl
  unfold sizeAt textAt
  rw [h]
  dsimp only
  rw [hbind]
  cases Number.readSize? (Text.trim t) with
  | none => rfl
  | some n => rfl

/-- A size is read again, and the rest goes on with it. -/
theorem sizeAt_bind {size : Nat} (name : Text) (parameters : List Text) (place : Nat)
    (f : Nat → Except Fault Rule) (hparameter : parameters[place]? = some (Text.ofNat size))
    (hsize : size ≤ Number.maxSize) : (sizeAt name parameters place >>= f) = f size := by
  have hread : Number.readSize? (Text.ofNat size) = some size := by
    rw [Number.readSize?_ofNat, Option.filter_some, if_pos (decide_eq_true hsize)]
  rw [sizeAt_eq hparameter, trim_ofNat, hread]
  rfl

/-- **A rule is read again from its name and its parameters.** -/
theorem ofName_parameters {r : Rule} (h : r.HasSizes) :
    ofName r.name r.parameters = .ok r := by
  cases r with
  | minLength size =>
      exact sizeAt_bind "min_length" _ 0 (fun n => .ok (minLength n)) rfl
        (h size (by simp [sizes]))
  | maxLength size =>
      exact sizeAt_bind "max_length" _ 0 (fun n => .ok (maxLength n)) rfl
        (h size (by simp [sizes]))
  | inRange least most =>
      have hleast := sizeAt_bind "in_range" [Text.ofNat least, Text.ofNat most] 0
        (fun n => sizeAt "in_range" [Text.ofNat least, Text.ofNat most] 1 >>= fun m =>
          .ok (inRange n m)) rfl (h least (by simp [sizes]))
      exact hleast.trans
        (sizeAt_bind "in_range" _ 1 (fun m => .ok (inRange least m)) rfl
          (h most (by simp [sizes])))
  | _ => rfl

/-! ## Names -/

/-- One rule of each kind. -/
def ofEachKind : List Rule :=
  [notEmpty, required, isInt, containsInt, isAlpha, containsAlpha, isAlphanum, isAlphanumExtra,
    isText, isUpper, containsUpper, contains [], notContains [], containsSpecialChar, minLength 0,
    maxLength 0, inRange 0 0, isEmail, isUrl, matchesPattern [], isTime, isDate [], isSqlDate,
    mustMatchPassword [], notPastPassword []]

/-- The names of rules. -/
def names : List Text := ofEachKind.map name

/-- The name of a rule is that of its kind. -/
theorem getElem?_names (r : Rule) : names[r.ctorIdx]? = some r.name := by
  cases r <;> rfl

/-- No two kinds have the same name. -/
theorem nodup_names : names.Nodup := by decide +kernel

theorem name_mem_names (r : Rule) : r.name ∈ names := List.mem_of_getElem? (getElem?_names r)

/-- **Rules have the same name exactly if they are of the same kind.** -/
theorem name_eq_iff (r s : Rule) : r.name = s.name ↔ r.ctorIdx = s.ctorIdx := by
  have hr := getElem?_names r
  have hs := getElem?_names s
  constructor
  · intro hname
    obtain ⟨hlength, -⟩ := List.getElem?_eq_some_iff.mp hr
    apply (List.getElem?_inj hlength nodup_names).mp
    rw [hr, hs, hname]
  · intro hkind
    rw [hkind, hs] at hr
    exact (Option.some.inj hr).symm

theorem mem_names_of_ofList_eq {name : Text} {s : String} (h : String.ofList name = s)
    (hs : s.toList ∈ names) : name ∈ names := by
  rw [← h, String.toList_ofList] at hs
  exact hs

/-- A name that no rule has is not read. -/
theorem ofName_of_not_mem {name : Text} (h : name ∉ names) (parameters : List Text) :
    ofName name parameters = .error (.invalidRule ("Invalid rule provided [" ++ name ++ "]")) := by
  unfold ofName
  split
  case h_26 => rfl
  all_goals
    rename_i hname
    exact absurd (mem_names_of_ofList_eq hname (by decide)) h

/-! ## Needed parameters -/

/-- What a parameter that is needed has to be. -/
inductive Need where
  /-- Any text. -/
  | text
  /-- A size. -/
  | size
  deriving DecidableEq

/-- The parameters that a rule of some kind needs; the format of a date may be left out. -/
def needs : Rule → List Need
  | contains _ | notContains _ | matchesPattern _ | mustMatchPassword _ | notPastPassword _ =>
    [.text]
  | minLength _ | maxLength _ => [.size]
  | inRange _ _ => [.size, .size]
  | _ => []

/-- A parameter that is needed is missing, or should be a size but is none, without the blanks at
its ends. -/
inductive Lacks (parameters : List Text) (place : Nat) : Need → Prop
  /-- It is missing. -/
  | missing (need : Need) (h : parameters[place]? = none) : Lacks parameters place need
  /-- It is no size. -/
  | notSize (t : Text) (ht : parameters[place]? = some t)
    (h : ∀ size, ¬ Number.IsSize (Text.trim t) size) : Lacks parameters place .size

/-- Some needs are not met from a place on. -/
def Wants (parameters : List Text) (start : Nat) (needs : List Need) : Prop :=
  ∃ place need, needs[place]? = some need ∧ Lacks parameters (start + place) need

variable {parameters : List Text} {start : Nat} {name : Text}

theorem not_wants_nil : ¬ Wants parameters start [] := by
  rintro ⟨place, need, hneed, -⟩
  rw [List.getElem?_nil] at hneed
  contradiction

theorem wants_cons_iff {need : Need} {rest : List Need} :
    Wants parameters start (need :: rest) ↔
      Lacks parameters start need ∨ Wants parameters (start + 1) rest := by
  constructor
  · rintro ⟨place, found, hfound, hlacks⟩
    cases place with
    | zero =>
        obtain rfl := Option.some.inj hfound
        exact .inl hlacks
    | succ place =>
        rw [Nat.add_comm place, ← Nat.add_assoc] at hlacks
        exact .inr ⟨place, found, hfound, hlacks⟩
  · rintro (hlacks | ⟨place, found, hfound, hlacks⟩)
    · exact ⟨0, need, rfl, hlacks⟩
    · refine ⟨place + 1, found, hfound, ?_⟩
      rw [Nat.add_comm place, ← Nat.add_assoc]
      exact hlacks

/-- A parameter that is there is all that is needed of a text. -/
theorem not_lacks_text {t : Text} (h : parameters[start]? = some t) :
    ¬ Lacks parameters start .text := by
  rintro ⟨_, hmissing⟩
  rw [h] at hmissing
  contradiction

/-- A parameter that is there still has to be a size if one is needed. -/
theorem lacks_size_iff {t : Text} (h : parameters[start]? = some t) :
    Lacks parameters start .size ↔ ∀ size, ¬ Number.IsSize (Text.trim t) size := by
  constructor
  · intro hlacks
    cases hlacks with
    | missing _ hmissing =>
        rw [h] at hmissing
        contradiction
    | notSize other hother hnone =>
        obtain rfl := Option.some.inj (h.symm.trans hother)
        exact hnone
  · exact .notSize t h

/-! ## Failures -/

/-- A computation that comes to no result. -/
def Fails {α : Type} (result : Except Fault α) : Prop := ∃ fault, result = .error fault

theorem fails_error {α : Type} (fault : Fault) : Fails (.error fault : Except Fault α) :=
  ⟨fault, rfl⟩

theorem not_fails_ok {α : Type} (a : α) : ¬ Fails (.ok a) := by
  rintro ⟨fault, hfault⟩
  contradiction

/-- One step fails, or the rest, if that does not depend on the result of the step. -/
theorem fails_bind {α β : Type} {x : Except Fault α} {f : α → Except Fault β} {P : Prop}
    (h : ∀ a, Fails (f a) ↔ P) : Fails (x >>= f) ↔ Fails x ∨ P := by
  cases x with
  | error fault => exact iff_of_true (fails_error fault) (.inl (fails_error fault))
  | ok a => exact (h a).trans (or_iff_right (not_fails_ok a)).symm

/-- A text is not read exactly if it is missing. -/
theorem fails_textAt : Fails (textAt name parameters start) ↔ Lacks parameters start .text := by
  unfold textAt
  cases hparameter : parameters[start]? with
  | none => exact iff_of_true (fails_error _) (.missing _ hparameter)
  | some t => exact iff_of_false (not_fails_ok t) (not_lacks_text hparameter)

/-- A size is not read exactly if it is missing or no size. -/
theorem fails_sizeAt : Fails (sizeAt name parameters start) ↔ Lacks parameters start .size := by
  cases hparameter : parameters[start]? with
  | none =>
      unfold sizeAt textAt
      rw [hparameter]
      exact iff_of_true (fails_error _) (.missing _ hparameter)
  | some t =>
      rw [lacks_size_iff hparameter, sizeAt_eq hparameter]
      cases hsize : Number.readSize? (Text.trim t) with
      | none =>
          refine iff_of_true (fails_error _) fun size h => ?_
          rw [← Number.readSize?_eq_some_iff, hsize] at h
          contradiction
      | some n =>
          have hread := Number.readSize?_eq_some_iff.mp hsize
          exact iff_of_false (not_fails_ok n) fun hnone => hnone n hread

/-- Nothing is left to be read. -/
theorem fails_last (r : Rule) : Fails (.ok r) ↔ Wants parameters start [] :=
  iff_of_false (not_fails_ok r) not_wants_nil

/-- A text is read first. -/
theorem fails_text {rest : List Need} {f : Text → Except Fault Rule}
    (h : ∀ t, Fails (f t) ↔ Wants parameters (start + 1) rest) :
    Fails (textAt name parameters start >>= f) ↔ Wants parameters start (.text :: rest) := by
  rw [fails_bind h, fails_textAt, wants_cons_iff]

/-- A size is read first. -/
theorem fails_size {rest : List Need} {f : Nat → Except Fault Rule}
    (h : ∀ size, Fails (f size) ↔ Wants parameters (start + 1) rest) :
    Fails (sizeAt name parameters start >>= f) ↔ Wants parameters start (.size :: rest) := by
  rw [fails_bind h, fails_sizeAt, wants_cons_iff]

/-- **Under the name of a rule, parameters are refused exactly if one that this kind of rule needs
does not do.** -/
theorem fails_ofName_name (r : Rule) (parameters : List Text) :
    Fails (ofName r.name parameters) ↔ Wants parameters 0 r.needs := by
  cases r with
  | contains part => exact fails_text fun t => fails_last (contains t)
  | notContains part => exact fails_text fun t => fails_last (notContains t)
  | matchesPattern pattern => exact fails_text fun t => fails_last (matchesPattern t)
  | mustMatchPassword password => exact fails_text fun t => fails_last (mustMatchPassword t)
  | notPastPassword password => exact fails_text fun t => fails_last (notPastPassword t)
  | minLength size => exact fails_size fun n => fails_last (minLength n)
  | maxLength size => exact fails_size fun n => fails_last (maxLength n)
  | inRange least most => exact fails_size fun n => fails_size fun m => fails_last (inRange n m)
  | isDate format => exact fails_last (isDate (parameters.head?.getD usualDateFormat))
  | _ => exact fails_last _

/-! ## Together -/

/-- **Rules are read by their names.**

* A rule whose sizes are numbers of 64 bits is read again from its name and its parameters.
* Two rules have the same name exactly if they are of the same kind.
* A name with parameters is refused exactly if no rule has the name, or if a parameter that the
  rules of this name need is missing, or should be a size but is none without the blanks at its
  ends. -/
theorem ofName_reads_back :
    (∀ r : Rule, r.HasSizes → ofName r.name r.parameters = .ok r) ∧
      (∀ r s : Rule, r.name = s.name ↔ r.ctorIdx = s.ctorIdx) ∧
      ∀ name parameters, (∃ fault, ofName name parameters = .error fault) ↔
        (∀ r : Rule, r.name ≠ name) ∨
          ∃ r : Rule, r.name = name ∧ ∃ place need, r.needs[place]? = some need ∧
            Lacks parameters place need := by
  refine ⟨fun r => ofName_parameters, name_eq_iff, fun name parameters => ?_⟩
  have hneeds : ∀ r : Rule, Wants parameters 0 r.needs ↔
      ∃ place need, r.needs[place]? = some need ∧ Lacks parameters place need := by
    intro r
    simp only [Wants, Nat.zero_add]
  constructor
  · intro hfails
    by_cases hname : ∃ r : Rule, r.name = name
    · obtain ⟨r, rfl⟩ := hname
      exact .inr ⟨r, rfl, (hneeds r).mp ((fails_ofName_name r parameters).mp hfails)⟩
    · exact .inl fun r hr => hname ⟨r, hr⟩
  · rintro (hunknown | ⟨r, rfl, hlacks⟩)
    · have hnot : name ∉ names := by
        intro hmem
        obtain ⟨r, -, hr⟩ := List.mem_map.mp hmem
        exact hunknown r hr
      exact ⟨_, ofName_of_not_mem hnot parameters⟩
    · exact (fails_ofName_name r parameters).mpr ((hneeds r).mpr hlacks)

/-- A range up to the greatest size is read, and one whose end is greater is not. -/
theorem ofName_reads_back_inRange :
    HasSizes (inRange 0 Number.maxSize) ∧
      ofName "in_range" ["0", "18446744073709551615"] = .ok (inRange 0 Number.maxSize) ∧
      Lacks ["0", " 18446744073709551616"] 1 .size ∧
      ∃ fault, ofName "in_range" ["0", " 18446744073709551616"] = .error fault := by
  have hsizes : HasSizes (inRange 0 Number.maxSize) := by
    intro size hsize
    fin_cases hsize <;> decide
  have hlacks : Lacks ["0", " 18446744073709551616"] 1 .size := by
    have hnone : Number.readSize? (Text.trim " 18446744073709551616") = none := by decide +kernel
    rw [lacks_size_iff rfl]
    intro size hsize
    rw [← Number.readSize?_eq_some_iff, hnone] at hsize
    contradiction
  have hparameters : (inRange 0 Number.maxSize).parameters =
      (["0", "18446744073709551615"] : List Text) := by decide +kernel
  obtain ⟨hread, -, hfails⟩ := ofName_reads_back
  refine ⟨hsizes, ?_, hlacks, ?_⟩
  · rw [← hparameters]
    exact hread (inRange 0 Number.maxSize) hsizes
  · exact (hfails _ _).mpr (.inr ⟨inRange 0 0, rfl, 1, .size, rfl, hlacks⟩)

end PageServer.Rule
