/-
# The lines that error pages show

A branch of a tree stands for one tag, whose condition and place it has. So when
rendering fails, the line of the fault is that of the tag with the condition
that has no value. The fault has this line escaped, and an error page in debug
mode escapes the wording once more: what the page shows ends with the escaped
line, and with the line itself only if this holds no special character.

* `Token.Opens`: a token is the tag of a branch
* `Draft.conditions_of_steps`: a token adds no other branch than its own
* `Node.exists_opens_of_ofTokens`: all branches of a tree come from tags
* `Node.parse_shownLines`: what is shown of the line of a failure
-/
import Mathlib
import PageServer.Proofs.Html.Escape
import PageServer.Proofs.Template.Failures
import PageServer.Proofs.Template.Recording

namespace PageServer

/-! ## Branches and their tags -/

/-- The condition of a tag that starts a branch. -/
def Token.Kind.condition? : Token.Kind → Option Text
  | ifStart source | elseIf source => some source
  | _ => none

/-- A token starts a branch with a condition, at a place. -/
def Token.Opens (token : Token) (condition : Expr) (span : Span) : Prop :=
  span = token.span ∧
    ∃ source, token.kind.condition? = some source ∧ Condition.parse source = .ok condition

namespace Token

/-- A tag that starts a branch is no text. -/
theorem Opens.text?_eq_none {token : Token} {condition : Expr} {span : Span}
    (h : token.Opens condition span) : token.kind.text? = none := by
  obtain ⟨-, source, hsource, -⟩ := h
  cases hkind : token.kind with
  | text t =>
      rw [hkind] at hsource
      contradiction
  | _ => rfl

theorem opens_of_eq {kind : Kind} {span : Span} {source : Text} {condition : Expr}
    {found : Expr × Span} (hsource : kind.condition? = some source)
    (hcondition : Condition.parse source = .ok condition) (h : found = (condition, span)) :
    Opens ⟨kind, span⟩ found.1 found.2 := by
  rw [h]
  exact ⟨rfl, source, hsource, hcondition⟩

end Token

namespace Node

/-- The conditions of branches with their places. -/
def conditionsOf (branches : List Branch) : List (Expr × Span) :=
  branches.map fun branch => (branch.condition, branch.span)

@[simp] theorem conditionsOf_append (branches others : List Branch) :
    conditionsOf (branches ++ others) = conditionsOf branches ++ conditionsOf others :=
  List.map_append

/-- The conditions do not depend on the order of the instructions. -/
theorem mem_conditionsOf_reverse {found : Expr × Span} {nodes : List Node} :
    found ∈ conditionsOf (branchesOfAll nodes.reverse) ↔
      found ∈ conditionsOf (branchesOfAll nodes) := by
  simp only [conditionsOf, branchesOfAll_eq, List.mem_map, List.mem_flatMap, List.mem_reverse]

/-- A branch that is added to a choice brings its condition and those inside it. -/
theorem conditionsOf_concat (own : List Branch) (condition : Expr) (body : List Node)
    (span : Span) :
    conditionsOf (branchesOfChoice (own ++ [.mk condition body span])) =
      conditionsOf (branchesOfChoice own) ++
        (condition, span) :: conditionsOf (branchesOfAll body) := by
  rw [branchesOfChoice_eq, List.flatMap_append, List.flatMap_singleton, conditionsOf_append,
    ← branchesOfChoice_eq]
  rfl

end Node

open Node (branchesOfAll branchesOfChoice branches conditionsOf conditionsOf_append
  conditionsOf_concat mem_conditionsOf_reverse)

/-- The conditions in an open tag, with their places. -/
def OpenTag.conditions : OpenTag → List (Expr × Span)
  | branch _ earlier condition span => (condition, span) :: conditionsOf (branchesOfChoice earlier)
  | otherwise _ own => conditionsOf (branchesOfChoice own)
  | loop .. => []

namespace Draft

/-- The conditions in open tags and in the instructions before them. -/
def layerConditions (layers : List (OpenTag × List Node)) : List (Expr × Span) :=
  layers.flatMap fun layer => layer.1.conditions ++ conditionsOf (branchesOfAll layer.2)

/-- The conditions in a draft. -/
def conditions (d : Draft) : List (Expr × Span) :=
  conditionsOf (branchesOfAll d.nodes) ++ layerConditions d.layers

@[simp] theorem layerConditions_cons (tag : OpenTag) (outer : List Node)
    (layers : List (OpenTag × List Node)) :
    layerConditions ((tag, outer) :: layers) =
      tag.conditions ++ conditionsOf (branchesOfAll outer) ++ layerConditions layers := rfl

/-- An instruction adds its own conditions. -/
theorem mem_conditions_push {d : Draft} {node : Node} {found : Expr × Span} :
    found ∈ (d.push node).conditions ↔
      found ∈ conditionsOf node.branches ∨ found ∈ d.conditions := by
  unfold push
  split
  · rename_i t before rest hnodes
    simp [conditions, conditionsOf, hnodes, branchesOfAll, branches]
  · simp [conditions, conditionsOf, branchesOfAll]

/-- **A token adds no other condition than its own.** -/
theorem conditions_of_steps {d d' : Draft} {token : Token} (h : Steps d token d') :
    ∀ found ∈ d'.conditions, found ∈ d.conditions ∨ token.Opens found.1 found.2 := by
  intro found hfound
  cases h with
  | text | print | constant =>
      rcases mem_conditions_push.mp hfound with hnode | hdraft
      · contradiction
      · exact Or.inl hdraft
  | ifStart hcondition | elseIf hcondition =>
      refine Or.imp_right (Token.opens_of_eq rfl hcondition) ?_
      simp only [enter, conditions, layerConditions_cons, OpenTag.conditions, branchesOfAll,
        conditionsOf_concat, mem_conditionsOf_reverse, List.mem_append, List.mem_cons] at hfound ⊢
      tauto
  | otherwise | endIf | endElse | loop | endLoop =>
      refine Or.inl ?_
      simp only [enter, conditions, layerConditions_cons, OpenTag.conditions, branches,
        branchesOfAll, conditionsOf_append, conditionsOf_concat, mem_conditionsOf_reverse,
        List.mem_append, List.mem_cons, List.not_mem_nil] at hfound ⊢
      tauto

/-- Tokens in order add no other conditions than those of the tags among them. -/
theorem conditions_of_run {tokens : List Token} {d d' : Draft} (h : d.run tokens = .ok d') :
    ∀ found ∈ d'.conditions,
      found ∈ d.conditions ∨ ∃ token ∈ tokens, token.Opens found.1 found.2 := by
  induction tokens generalizing d with
  | nil =>
      rw [← Except.ok.inj h]
      exact fun found => Or.inl
  | cons token tokens ih =>
      obtain ⟨next, hstep, hrun⟩ := run_cons_eq_ok_iff.mp h
      intro found hfound
      rcases ih hrun found hfound with hnext | ⟨later, hlater, hopens⟩
      · exact (conditions_of_steps hstep found hnext).imp_right
          fun hopens => ⟨token, List.mem_cons_self, hopens⟩
      · exact Or.inr ⟨later, List.mem_cons_of_mem token hlater, hopens⟩

end Draft

namespace Node

open Piece (TagAt)

/-- **All branches of a tree come from tags among its tokens.** -/
theorem exists_opens_of_ofTokens {tokens : List Token} {tree : List Node}
    (h : ofTokens tokens = .ok tree) :
    ∀ branch ∈ branchesOfAll tree, ∃ token ∈ tokens, token.Opens branch.condition branch.span := by
  obtain ⟨nodes, hrun, rfl⟩ := ofTokens_eq_ok_iff.mp h
  intro branch hbranch
  have hfound : (branch.condition, branch.span) ∈ conditionsOf (branchesOfAll nodes) :=
    mem_conditionsOf_reverse.mp (List.mem_map_of_mem hbranch)
  rcases Draft.conditions_of_run hrun _ (List.mem_append_left _ hfound) with hnone | htoken
  · contradiction
  · exact htoken

/-- The branches of a template on record come from tags of texts on record. -/
theorem showsTag_of_ofTokens (record : Record) (tokens : List Token) (tree : List Node)
    (htokens : record.ShowsTags tokens) (h : ofTokens tokens = .ok tree) :
    ∀ branch ∈ branchesOfAll tree, ∃ token, record.ShowsTag token ∧
      token.Opens branch.condition branch.span := by
  intro branch hbranch
  obtain ⟨token, htoken, hopens⟩ := exists_opens_of_ofTokens h branch hbranch
  exact ⟨token, htokens token htoken hopens.text?_eq_none, hopens⟩

end Node

/-! ## Failures in error pages -/

namespace Page

/-- An error page shows the escaped line of a failure at its end. -/
theorem exists_shown_failure (span : Span) (message safe : Text) :
    ∃ start, Html.shown ((failure span message).pageMessage true safe) =
      start ++ ' ' :: Html.escape span.snippet := by
  have hend : ": ".toList ++ Html.escape span.snippet <:+ (failure span message).message :=
    ⟨_, (List.append_assoc _ _ _).symm⟩
  obtain ⟨front, hfront⟩ := hend
  refine ⟨front ++ [':'], ?_⟩
  rw [Fault.shown_pageMessage, List.append_assoc]
  exact hfront.symm

/-- **Of the line of a failure an error page shows the escaped form.** This is the line only if
there is nothing to escape in it; reading the entities once more gives the line. -/
theorem line_of_failure (span : Span) (message safe : Text) :
    let shown := Html.shown ((failure span message).pageMessage true safe)
    Html.escape span.snippet <:+ shown ∧
      (span.snippet <:+ shown ↔ ∀ c ∈ span.snippet, c ∉ Html.special) ∧
      span.snippet <:+ Html.unescape shown := by
  obtain ⟨start, hshown⟩ := exists_shown_failure span message safe
  dsimp only
  rw [hshown]
  refine ⟨?_, ?_, ?_⟩
  · exact (List.suffix_cons _ _).trans (List.suffix_append start _)
  · rw [List.append_cons]
    exact Html.suffix_append_escape_iff
  · rw [Html.unescape_append, Html.unescape_escape]
    exact (List.suffix_cons _ _).trans (List.suffix_append _ _)

end Page

namespace Node

open Piece (TagAt)

/-- **What is shown of the line of a failure.** Rendering a tree fails at the condition of a tag,
of the template or of one that it includes. In debug mode, what the error page shows, with its
line breaks undone and its entities read, ends with the escaped form of the line of this tag. This
is the line itself only if it holds none of the characters that are escaped; reading the entities
once more gives the line, whatever it holds. -/
theorem parse_shownLines {σ : Type} (loader : Loader σ) (source file : Text) (start : σ) :
    let recorded := Action.run (parse loader.recorded source file) (start, [(file, .ok source)])
    Action.run (parse loader source file) start = (recorded.1, recorded.2.1) ∧
    ∀ tree, recorded.1 = .ok tree → ∀ vars constants fault,
      render tree vars constants = .error fault →
      ∃ name text kind offset, (name, .ok text) ∈ recorded.2.2 ∧ TagAt text kind offset ∧
        (∃ branch ∈ branchesOfAll tree, ∃ written page earlier later otherwise message,
          kind.condition? = some written ∧ Condition.parse written = .ok branch.condition ∧
          Visits { vars, constants } tree page (.choice (earlier ++ branch :: later) otherwise) ∧
          (∀ other ∈ earlier, other.Decides page false) ∧
          branch.condition.evaluate page.scope = .error message ∧
          fault = Page.failure (Span.ofOffset name text offset) message) ∧
        let line := Text.trim (Text.lineAround text offset)
        ∀ safe, let shown := Html.shown (fault.pageMessage true safe)
          Html.escape line <:+ shown ∧
          (line <:+ shown ↔ ∀ c ∈ line, c ∉ Html.special) ∧
          line <:+ Html.unescape shown := by
  intro recorded
  have hsame := run_parse_recorded loader source file start [(file, .ok source)]
  refine ⟨hsame, fun tree htree vars constants fault hfault => ?_⟩
  have hmain : (file, .ok source) ∈ ([(file, .ok source)] : Record) := List.mem_cons_self
  obtain ⟨-, hrecords⟩ := parse_records loader showsTag_of_ofTokens hmain start
  rw [htree] at hrecords
  have hparsed : (Action.run (parse loader source file) start).1 = .ok tree :=
    (congrArg Prod.fst hsame).trans htree
  obtain ⟨branch, hbranch, page, earlier, later, otherwise, message, hvisits, hearlier, hcondition,
    rfl⟩ := exists_branch_of_render hparsed hfault
  obtain ⟨⟨kind, span⟩, ⟨name, text, offset, hmem, htag, rfl⟩, hspan, written, hwritten, hparse⟩ :=
    hrecords branch hbranch
  refine ⟨name, text, kind, offset, hmem, htag, ⟨branch, hbranch, written, page, earlier, later,
    otherwise, message, hwritten, hparse, hvisits, hearlier, hcondition, ?_⟩, ?_⟩
  · rw [hspan]
  · have hline := Page.line_of_failure branch.span message
    rw [hspan] at hline ⊢
    exact hline

/-- A page with a tag inside another one on its second line. -/
def agePage : Text := "<p>\n  <b>\x7bIF: AGE < 9\x7dyoung\x7b/IF\x7d</b>\n</p>"

/-- The second line. -/
def ageLine : Text := "<b>\x7bIF: AGE < 9\x7dyoung\x7b/IF\x7d</b>"

/-- Its place. -/
def onAgeLine : Span := ⟨"page", 2, ageLine⟩

/-- The tree of the page. -/
def ageTree : List Node :=
  [.text "<p>\n  <b>",
    .choice [.mk (.binary .lt (.var ⟨none, ["AGE"]⟩) (.lit (.int 9))) [.text "young"] onAgeLine]
      none,
    .text "</b>\n</p>"]

/-- A map where a number is asked for. -/
def ageVars : Fields := [("AGE", .map [("ID", .int 1)])]

/-- The fault of the page. -/
def ageFault : Fault :=
  .templateFailed "page" 2 (Html.escape ageLine) "cannot compare map with int"

/-- The page has a tree. -/
theorem run_parse_agePage {σ : Type} (loader : Loader σ) (state : σ) :
    Action.run (parse loader agePage "page") state = (.ok ageTree, state) := by
  have hscan : Token.scan agePage "page" = .ok
      [⟨.text "<p>\n  <b>", onAgeLine⟩, ⟨.ifStart "AGE < 9", onAgeLine⟩,
        ⟨.text "young", onAgeLine⟩, ⟨.endIf, onAgeLine⟩,
        ⟨.text "</b>\n</p>", ⟨"page", 3, "</p>"⟩⟩] := by
    decide +kernel
  rw [run_parse hscan (Token.run_expand_of_forall (by simp) _ state)]
  rfl

/-- It is not rendered. -/
theorem render_ageTree : render ageTree ageVars [] = .error ageFault := by decide +kernel

/-- What the loader is asked for. -/
def ageRecord : Record := [("page".toList, .ok agePage)]

/-- The line of the tag is found when the entities are read twice. -/
theorem parse_shownLines_sample :
    render ageTree ageVars [] = .error ageFault ∧
      ∃ name text kind offset, (name, .ok text) ∈ ageRecord ∧ TagAt text kind offset ∧
        ∀ safe, Text.trim (Text.lineAround text offset) <:+
          Html.unescape (Html.shown (ageFault.pageMessage true safe)) := by
  obtain ⟨-, hshown⟩ := parse_shownLines (Loader.ofTexts .ok) agePage "page" ()
  rw [run_parse_agePage] at hshown
  obtain ⟨name, text, kind, offset, hmem, htag, -, hline⟩ :=
    hshown ageTree rfl ageVars [] ageFault render_ageTree
  exact ⟨render_ageTree, name, text, kind, offset, hmem, htag, fun safe => (hline safe).2.2⟩

/-- **The line is not shown as it is.** -/
theorem ageLine_not_shown :
    (Action.run (parse (Loader.ofTexts .ok) agePage "page") ()).1 = .ok ageTree ∧
      render ageTree ageVars [] = .error ageFault ∧
      Text.trim (Text.lineAround agePage 9) = ageLine ∧
      ∀ safe, ¬ ageLine <:+ Html.shown (ageFault.pageMessage true safe) := by
  refine ⟨congrArg Prod.fst (run_parse_agePage _ ()), render_ageTree, by decide +kernel,
    fun safe => ?_⟩
  rw [Fault.shown_pageMessage]
  decide +kernel

end Node
end PageServer
