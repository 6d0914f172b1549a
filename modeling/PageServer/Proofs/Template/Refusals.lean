/-
# Places in trees and refusals

A tree shows the places of the tags that it was made of: of the branches and of
the loops. Tokens that have no tree are refused for one of them, at its place;
one that is left open is refused where it was opened.

* `Draft.IsRefusal`: a fault at a place
* `Draft.isRefusal_of_step`, `Draft.isRefusal_of_finish`: all refusals are such faults
* `Node.spans`: the places in a tree
* `Draft.spans_of_steps`: a token adds no other place than its own
* `Node.places_of_ofTokens`: all places come from tags
-/
import PageServer.Proofs.Template.Steps
import PageServer.Proofs.Template.Pieces

namespace PageServer

/-! ## Refusals -/

namespace Draft

/-- The start of the wording for templates that include one another too deep. -/
def depthWording : Text := "include of"

/-- A tag is refused at a place, for something else than the depth of included templates. -/
def IsRefusal (span : Span) (refusal : Fault) : Prop :=
  ∃ message, refusal = fault span message ∧ ¬ depthWording <+: message

theorem isRefusal_of_conditionAt {span : Span} {source : Text} {refusal : Fault}
    (h : conditionAt span source = .error refusal) : IsRefusal span refusal := by
  unfold conditionAt at h
  split at h
  · contradiction
  · exact ⟨_, (Except.error.inj h).symm, Text.after?_eq_none_iff.mp rfl⟩

theorem isRefusal_of_loopSource {innermost : Option Text} {span : Span} {name : Text}
    {refusal : Fault} (h : loopSource innermost span name = .error refusal) :
    IsRefusal span refusal := by
  unfold loopSource at h
  split at h
  · contradiction
  · split_ifs at h
    · exact ⟨_, (Except.error.inj h).symm, Text.after?_eq_none_iff.mp rfl⟩
    · exact ⟨_, (Except.error.inj h).symm, Text.after?_eq_none_iff.mp rfl⟩

theorem isRefusal_misplaced {d : Draft} {span : Span} {written : Text}
    (h : written.head? = some '\x7b') : IsRefusal span (d.misplaced span written) := by
  refine ⟨_, rfl, ?_⟩
  obtain ⟨rest, rfl⟩ := List.head?_eq_some_iff.mp h
  exact Text.after?_eq_none_iff.mp rfl

/-- A token that does not fit is refused at its place; a text always fits. -/
theorem isRefusal_of_step {d : Draft} {token : Token} {refusal : Fault}
    (h : d.step token = .error refusal) :
    token.kind.text? = none ∧ IsRefusal token.span refusal := by
  obtain ⟨kind, span⟩ := token
  cases kind with
  | text t => contradiction
  | reference r => cases r <;> contradiction
  | ifStart source =>
      refine ⟨rfl, ?_⟩
      simp only [step] at h
      split at h
      · contradiction
      · rename_i problem hcondition
        rw [← Except.error.inj h]
        exact isRefusal_of_conditionAt hcondition
  | loop name =>
      refine ⟨rfl, ?_⟩
      simp only [step] at h
      split at h
      · contradiction
      · rename_i problem hsource
        rw [← Except.error.inj h]
        exact isRefusal_of_loopSource hsource
  | elseIf source =>
      refine ⟨rfl, ?_⟩
      simp only [step] at h
      split at h
      · split at h
        · contradiction
        · rename_i problem hcondition
          rw [← Except.error.inj h]
          exact isRefusal_of_conditionAt hcondition
      · rw [← Except.error.inj h]
        exact isRefusal_misplaced rfl
  | otherwise =>
      refine ⟨rfl, ?_⟩
      simp only [step] at h
      split at h
      · contradiction
      · rw [← Except.error.inj h]
        exact isRefusal_misplaced rfl
  | endIf =>
      refine ⟨rfl, ?_⟩
      simp only [step] at h
      split at h
      · contradiction
      · contradiction
      · rw [← Except.error.inj h]
        exact isRefusal_misplaced rfl
  | endLoop closing =>
      refine ⟨rfl, ?_⟩
      simp only [step] at h
      split at h
      · split_ifs at h
        rw [← Except.error.inj h]
        exact isRefusal_misplaced rfl
      · rw [← Except.error.inj h]
        exact isRefusal_misplaced rfl
  | inclusion name =>
      refine ⟨rfl, _, (Except.error.inj h).symm, Text.after?_eq_none_iff.mp rfl⟩

/-- A list of tokens is refused for one of them. -/
theorem isRefusal_of_run {d : Draft} {tokens : List Token} {refusal : Fault}
    (h : d.run tokens = .error refusal) :
    ∃ token ∈ tokens, token.kind.text? = none ∧ IsRefusal token.span refusal := by
  induction tokens generalizing d with
  | nil => contradiction
  | cons token tokens ih =>
      rw [run] at h
      split at h
      · obtain ⟨later, hlater, hrefused⟩ := ih h
        exact ⟨later, List.mem_cons_of_mem token hlater, hrefused⟩
      · rename_i problem hstep
        rw [← Except.error.inj h]
        exact ⟨token, List.mem_cons_self, isRefusal_of_step hstep⟩

end Draft

/-- The place where a tag was opened: for a choice that of its first branch. -/
def OpenTag.opened : OpenTag → Span
  | branch opened .. => opened
  | otherwise opened _ => opened
  | loop _ _ _ span => span

namespace Draft

/-- A tag that is left open is refused where it was opened. -/
theorem isRefusal_of_finish {d : Draft} {refusal : Fault} (h : d.finish = .error refusal) :
    ∃ layer ∈ d.layers, IsRefusal layer.1.opened refusal := by
  obtain ⟨layers, nodes⟩ := d
  rcases layers with - | ⟨⟨tag, outer⟩, layers⟩
  · contradiction
  · refine ⟨(tag, outer), List.mem_cons_self, ?_⟩
    cases tag with
    | _ => exact ⟨_, (Except.error.inj h).symm, Text.after?_eq_none_iff.mp rfl⟩

end Draft

/-! ## Places in a tree -/

namespace Node

mutual
/-- The places in an instruction. -/
def spans : Node → List Span
  | text _ | print _ | constant _ => []
  | choice branches none => spansOfBranches branches
  | choice branches (some body) => spansOfBranches branches ++ spansOfAll body
  | loop _ _ _ body span => span :: spansOfAll body

/-- The places in branches. -/
def spansOfBranches : List Branch → List Span
  | [] => []
  | .mk _ body span :: rest => span :: spansOfAll body ++ spansOfBranches rest

/-- The places in some instructions. -/
def spansOfAll : List Node → List Span
  | [] => []
  | node :: rest => node.spans ++ spansOfAll rest
end

theorem spansOfBranches_append (branches others : List Branch) :
    spansOfBranches (branches ++ others) = spansOfBranches branches ++ spansOfBranches others := by
  induction branches with
  | nil => rfl
  | cons branch rest ih =>
      obtain ⟨condition, body, span⟩ := branch
      rw [List.cons_append, spansOfBranches, spansOfBranches, ih, List.append_assoc]

theorem spansOfAll_eq (nodes : List Node) : spansOfAll nodes = nodes.flatMap spans := by
  induction nodes with
  | nil => rfl
  | cons node rest ih => rw [spansOfAll, ih, List.flatMap_cons]

/-- The places do not depend on the order of the instructions. -/
theorem mem_spansOfAll_reverse {span : Span} {nodes : List Node} :
    span ∈ spansOfAll nodes.reverse ↔ span ∈ spansOfAll nodes := by
  simp only [spansOfAll_eq, List.mem_flatMap, List.mem_reverse]

end Node

/-! ## Places in a draft -/

/-- The places in an open tag. -/
def OpenTag.spans : OpenTag → List Span
  | branch opened earlier _ span => opened :: span :: Node.spansOfBranches earlier
  | otherwise opened branches => opened :: Node.spansOfBranches branches
  | loop _ _ _ span => [span]

theorem OpenTag.opened_mem_spans (tag : OpenTag) : tag.opened ∈ tag.spans := by
  cases tag <;> exact List.mem_cons_self

namespace Draft

open Node (spansOfAll spansOfBranches spansOfBranches_append mem_spansOfAll_reverse)

/-- The places in open tags and the instructions before them. -/
def layerSpans (layers : List (OpenTag × List Node)) : List Span :=
  layers.flatMap fun layer => layer.1.spans ++ spansOfAll layer.2

/-- The places in a draft. -/
def spans (d : Draft) : List Span := spansOfAll d.nodes ++ layerSpans d.layers

@[simp] theorem layerSpans_cons (tag : OpenTag) (outer : List Node)
    (layers : List (OpenTag × List Node)) :
    layerSpans ((tag, outer) :: layers) = tag.spans ++ spansOfAll outer ++ layerSpans layers := rfl

/-- An instruction adds its own places. -/
theorem mem_spans_push {d : Draft} {node : Node} {span : Span} :
    span ∈ (d.push node).spans ↔ span ∈ node.spans ∨ span ∈ d.spans := by
  unfold push
  split
  · rename_i t before rest hnodes
    simp [spans, hnodes, spansOfAll, Node.spans]
  · simp [spans, spansOfAll]

/-- **A token adds no other place than its own, and a text adds none.** -/
theorem spans_of_steps {d d' : Draft} {token : Token} (h : Steps d token d') :
    ∀ span ∈ d'.spans, span ∈ d.spans ∨ token.kind.text? = none ∧ span = token.span := by
  intro span hspan
  cases h with
  | text | print | constant =>
      rcases mem_spans_push.mp hspan with hnode | hdraft
      · contradiction
      · exact Or.inl hdraft
  | ifStart | elseIf | otherwise | endIf | endElse | loop | endLoop =>
      refine Or.imp_right (fun heq => ⟨rfl, heq⟩) ?_
      simp only [enter, spans, layerSpans_cons, OpenTag.spans, Node.spans, spansOfAll,
        spansOfBranches, spansOfBranches_append, mem_spansOfAll_reverse, List.mem_append,
        List.mem_cons, List.not_mem_nil] at hspan ⊢
      tauto

/-- Tokens in order add no other places than those of the tags among them. -/
theorem spans_of_run {P : Span → Prop} {tokens : List Token} {d d' : Draft}
    (htokens : ∀ token ∈ tokens, token.kind.text? = none → P token.span)
    (hd : ∀ span ∈ d.spans, P span) (h : d.run tokens = .ok d') : ∀ span ∈ d'.spans, P span := by
  induction tokens generalizing d with
  | nil =>
      rw [← Except.ok.inj h]
      exact hd
  | cons token tokens ih =>
      obtain ⟨hfirst, hothers⟩ := List.forall_mem_cons.mp htokens
      obtain ⟨next, hstep, hrun⟩ := run_cons_eq_ok_iff.mp h
      refine ih hothers (fun span hspan => ?_) hrun
      rcases spans_of_steps hstep span hspan with hold | ⟨htag, rfl⟩
      · exact hd span hold
      · exact hfirst htag

end Draft

/-- **All places in a tree are those of tags among its tokens, and tokens without a tree are refused
at the place of such a tag.** -/
theorem Node.places_of_ofTokens {P : Span → Prop} {tokens : List Token}
    (h : ∀ token ∈ tokens, token.kind.text? = none → P token.span) :
    (∀ tree, ofTokens tokens = .ok tree → ∀ span ∈ spansOfAll tree, P span) ∧
      ∀ refusal, ofTokens tokens = .error refusal →
        ∃ span, P span ∧ Draft.IsRefusal span refusal := by
  have hnone : ∀ span ∈ Draft.spans {}, P span := nofun
  constructor
  · intro tree htree span hspan
    obtain ⟨nodes, hrun, rfl⟩ := ofTokens_eq_ok_iff.mp htree
    apply Draft.spans_of_run h hnone hrun
    exact List.mem_append_left _ (mem_spansOfAll_reverse.mp hspan)
  · intro refusal hrefusal
    unfold ofTokens at hrefusal
    split at hrefusal
    · rename_i d hrun
      obtain ⟨layer, hlayer, hrefused⟩ := Draft.isRefusal_of_finish hrefusal
      refine ⟨layer.1.opened, Draft.spans_of_run h hnone hrun _ ?_, hrefused⟩
      apply List.mem_append_right
      exact List.mem_flatMap.mpr
        ⟨layer, hlayer, List.mem_append_left _ layer.1.opened_mem_spans⟩
    · rename_i problem hrun
      rw [← Except.error.inj hrefusal]
      obtain ⟨token, htoken, htag, hrefused⟩ := Draft.isRefusal_of_run hrun
      exact ⟨token.span, h token htoken htag, hrefused⟩

/-- Whatever the tokens are, without a tree they are refused at some place. -/
theorem Node.exists_isRefusal_of_ofTokens {tokens : List Token} {refusal : Fault}
    (h : ofTokens tokens = .error refusal) : ∃ span, Draft.IsRefusal span refusal := by
  have hplaces : ∀ token ∈ tokens, token.kind.text? = none → True := fun _ _ _ => trivial
  obtain ⟨span, -, hrefused⟩ := (places_of_ofTokens (P := fun _ => True) hplaces).2 refusal h
  exact ⟨span, hrefused⟩

end PageServer
