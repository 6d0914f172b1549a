/-
# Reading tokens one by one

What one token can do to the tree of which a part has been read, and what a list
of tokens does.

* `Draft.Steps`: everything a token can do to a draft
* `Draft.step_eq_ok_iff`: the reader of a token does this and nothing else
* `Draft.run_append`, `Draft.run_cons_eq_ok_iff`: tokens in order
* `Draft.keeps_of_run`: what one token keeps, all of them keep
* `Node.ofTokens_eq_ok_iff`: the tree of tokens is the draft they are read as
-/
import Mathlib
import PageServer.Template.Tree

namespace PageServer

namespace Draft

/-! ## What a token does to a draft -/

/-- An instruction that is added opens and closes nothing. -/
@[simp] theorem push_layers (d : Draft) (node : Node) : (d.push node).layers = d.layers := by
  unfold push
  split <;> rfl

/-- Everything a token can do to a draft: it adds to the innermost block, or opens, goes on with
or closes a tag. -/
inductive Steps : Draft → Token → Draft → Prop where
  /-- A text. -/
  | text {d : Draft} {t : Text} {span : Span} : Steps d ⟨.text t, span⟩ (d.push (.text t))
  /-- A variable. -/
  | print {d : Draft} {v : VarRef} {span : Span} :
      Steps d ⟨.reference (.var v), span⟩ (d.push (.print v))
  /-- A constant. -/
  | constant {d : Draft} {name : Text} {span : Span} :
      Steps d ⟨.reference (.constant name), span⟩ (d.push (.constant name))
  /-- The first branch of a choice. -/
  | ifStart {d : Draft} {source : Text} {condition : Expr} {span : Span}
      (h : Condition.parse source = .ok condition) :
      Steps d ⟨.ifStart source, span⟩ (d.enter (.branch span [] condition span))
  /-- A further branch. -/
  | elseIf {opened : Span} {earlier : List Branch} {condition next : Expr} {place span : Span}
      {outer nodes : List Node} {layers : List (OpenTag × List Node)} {source : Text}
      (h : Condition.parse source = .ok next) :
      Steps ⟨(.branch opened earlier condition place, outer) :: layers, nodes⟩
        ⟨.elseIf source, span⟩
        ⟨(.branch opened (earlier ++ [.mk condition nodes.reverse place]) next span, outer) ::
          layers, []⟩
  /-- What stands for none of the branches. -/
  | otherwise {opened : Span} {earlier : List Branch} {condition : Expr} {place span : Span}
      {outer nodes : List Node} {layers : List (OpenTag × List Node)} :
      Steps ⟨(.branch opened earlier condition place, outer) :: layers, nodes⟩
        ⟨.otherwise, span⟩
        ⟨(.otherwise opened (earlier ++ [.mk condition nodes.reverse place]), outer) :: layers, []⟩
  /-- The end of a choice behind its last branch. -/
  | endIf {opened : Span} {earlier : List Branch} {condition : Expr} {place span : Span}
      {outer nodes : List Node} {layers : List (OpenTag × List Node)} :
      Steps ⟨(.branch opened earlier condition place, outer) :: layers, nodes⟩ ⟨.endIf, span⟩
        ⟨layers, .choice (earlier ++ [.mk condition nodes.reverse place]) none :: outer⟩
  /-- The end of a choice behind what stands for none of the branches. -/
  | endElse {opened : Span} {branches : List Branch} {span : Span} {outer nodes : List Node}
      {layers : List (OpenTag × List Node)} :
      Steps ⟨(.otherwise opened branches, outer) :: layers, nodes⟩ ⟨.endIf, span⟩
        ⟨layers, .choice branches (some nodes.reverse) :: outer⟩
  /-- The start of a loop. -/
  | loop {d : Draft} {name key : Text} {parent : Option Text} {span : Span}
      (h : loopSource d.innermostLoop span name = .ok (parent, key)) :
      Steps d ⟨.loop name, span⟩ (d.enter (.loop name parent key span))
  /-- The end of the loop. -/
  | endLoop {name key : Text} {parent : Option Text} {place span : Span} {outer nodes : List Node}
      {layers : List (OpenTag × List Node)} :
      Steps ⟨(.loop name parent key place, outer) :: layers, nodes⟩ ⟨.endLoop name, span⟩
        ⟨layers, .loop name parent key nodes.reverse place :: outer⟩

/-- The condition of a tag is the one that its text is read as. -/
theorem conditionAt_eq_ok_iff {span : Span} {source : Text} {condition : Expr} :
    conditionAt span source = .ok condition ↔ Condition.parse source = .ok condition := by
  unfold conditionAt
  cases Condition.parse source <;> simp

/-- What the reader of a token does is something a token can do. -/
theorem steps_of_step {d d' : Draft} {token : Token} (h : d.step token = .ok d') :
    Steps d token d' := by
  obtain ⟨kind, span⟩ := token
  cases kind with
  | text t =>
      obtain rfl := Except.ok.inj h
      exact .text
  | reference r =>
      cases r with
      | var v =>
          obtain rfl := Except.ok.inj h
          exact .print
      | constant name =>
          obtain rfl := Except.ok.inj h
          exact .constant
  | ifStart source =>
      simp only [step] at h
      split at h
      · rename_i condition hcondition
        obtain rfl := Except.ok.inj h
        exact .ifStart (conditionAt_eq_ok_iff.mp hcondition)
      · contradiction
  | loop name =>
      simp only [step] at h
      split at h
      · rename_i parent key hsource
        obtain rfl := Except.ok.inj h
        exact .loop hsource
      · contradiction
  | elseIf source =>
      obtain ⟨layers, nodes⟩ := d
      simp only [step] at h
      split at h
      · split at h
        · rename_i next hnext
          obtain rfl := Except.ok.inj h
          exact .elseIf (conditionAt_eq_ok_iff.mp hnext)
        · contradiction
      · contradiction
  | otherwise =>
      obtain ⟨layers, nodes⟩ := d
      simp only [step] at h
      split at h
      · obtain rfl := Except.ok.inj h
        exact .otherwise
      · contradiction
  | endIf =>
      obtain ⟨layers, nodes⟩ := d
      simp only [step] at h
      split at h
      · obtain rfl := Except.ok.inj h
        exact .endIf
      · obtain rfl := Except.ok.inj h
        exact .endElse
      · contradiction
  | endLoop closing =>
      obtain ⟨layers, nodes⟩ := d
      simp only [step] at h
      split at h
      · split at h
        · rename_i hname
          obtain rfl := Except.ok.inj h
          rw [hname]
          exact .endLoop
        · contradiction
      · contradiction
  | inclusion name => contradiction

/-- The reader of a token does whatever the token can do. -/
theorem step_of_steps {d d' : Draft} {token : Token} (h : Steps d token d') :
    d.step token = .ok d' := by
  cases h with
  | ifStart h => simp only [step, conditionAt_eq_ok_iff.mpr h]
  | elseIf h => simp only [step, conditionAt_eq_ok_iff.mpr h]
  | loop h => simp only [step, h]
  | endLoop => simp only [step, if_true]
  | _ => rfl

/-- The reader of a token does what a token can do, and only that. -/
theorem step_eq_ok_iff {d d' : Draft} {token : Token} :
    d.step token = .ok d' ↔ Steps d token d' := ⟨steps_of_step, step_of_steps⟩

/-! ## Reading tokens in order -/

/-- Reading goes on behind what has been read. -/
theorem run_append {d middle : Draft} {left : List Token} (h : d.run left = .ok middle)
    (right : List Token) : d.run (left ++ right) = middle.run right := by
  induction left generalizing d with
  | nil =>
      obtain rfl := Except.ok.inj h
      rfl
  | cons token left ih =>
      rw [run] at h
      rw [List.cons_append, run]
      split at h
      · exact ih h
      · contradiction

/-- Reading a token and then others. -/
theorem run_cons_of_steps {d next : Draft} {token : Token} (h : Steps d token next)
    (tokens : List Token) : d.run (token :: tokens) = next.run tokens := by
  rw [run, step_eq_ok_iff.mpr h]

/-- Tokens that are read one by one. -/
theorem run_cons_eq_ok_iff {d d' : Draft} {token : Token} {tokens : List Token} :
    d.run (token :: tokens) = .ok d' ↔ ∃ next, Steps d token next ∧ next.run tokens = .ok d' := by
  constructor
  · intro h
    rw [run] at h
    split at h
    · rename_i next hstep
      exact ⟨next, step_eq_ok_iff.mp hstep, h⟩
    · contradiction
  · rintro ⟨next, hstep, h⟩
    rw [run_cons_of_steps hstep, h]

/-- What each token keeps, tokens in order keep. -/
theorem keeps_of_run {P : Draft → Prop}
    (hstep : ∀ {d next : Draft} {token : Token}, P d → Steps d token next → P next)
    {tokens : List Token} {d d' : Draft} (hd : P d) (h : d.run tokens = .ok d') : P d' := by
  induction tokens generalizing d with
  | nil =>
      rw [← Except.ok.inj h]
      exact hd
  | cons token tokens ih =>
      obtain ⟨next, hnext, hrun⟩ := run_cons_eq_ok_iff.mp h
      exact ih (hstep hd hnext) hrun

/-- A draft is a tree if no tag is open. -/
theorem finish_eq_ok_iff {d : Draft} {tree : List Node} :
    d.finish = .ok tree ↔ d.layers = [] ∧ d.nodes.reverse = tree := by
  unfold finish
  split
  · rename_i hlayers
    exact ⟨fun h => ⟨hlayers, Except.ok.inj h⟩, fun h => congrArg Except.ok h.2⟩
  all_goals
    rename_i hlayers
    rw [hlayers]
    exact ⟨fun h => by contradiction, fun h => absurd h.1 (List.cons_ne_nil _ _)⟩

end Draft

/-- The tree of tokens is the draft that they are read as. -/
theorem Node.ofTokens_eq_ok_iff {tokens : List Token} {tree : List Node} :
    ofTokens tokens = .ok tree ↔
      ∃ nodes, Draft.run {} tokens = .ok ⟨[], nodes⟩ ∧ nodes.reverse = tree := by
  unfold ofTokens
  cases hrun : Draft.run {} tokens with
  | error problem => simp
  | ok final =>
      obtain ⟨layers, nodes⟩ := final
      simp [Draft.finish_eq_ok_iff]

end PageServer
