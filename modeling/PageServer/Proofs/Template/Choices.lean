/-
# Conditions in tags

A tag with a condition ends with the first closing brace behind the first
character of the condition, also where that brace is inside the quotes of a
literal. A page that is one choice shows what its condition says as long as no
literal of it holds such a brace; with one, the page has no tree at all.

* `Token.exists_cons_of_scan`: a tag at the start of a source is its first token
* `Node.run_parse_choice`: a choice with a condition without closing braces
* `Node.yields_parse_choice`: one with a closing brace
* `Node.parse_choice`: both together
-/
import Mathlib
import PageServer.Template.Render
import PageServer.Proofs.Condition.CutShort
import PageServer.Proofs.Template.Trees

namespace PageServer

namespace Token

open Piece (Reads Starts)
open PageServer.Action (Yields)

/-- A tag at the start of a source is its first token. -/
theorem exists_cons_of_scan {source after file : Text} {kind : Kind} {written : Text}
    {tokens : List Token} (hstarts : Starts source (.tag kind written) after)
    (hkind : kind.text? = none) (h : scan source file = .ok tokens) :
    ∃ span rest, tokens = ⟨kind, span⟩ :: rest := by
  obtain ⟨pieces, hreads, hkinds⟩ := exists_reads_of_scan h
  cases source with
  | nil =>
      have hempty := (List.append_eq_nil_iff.mp hstarts.source_append.symm).1
      exact absurd hempty hstarts.source_ne_nil
  | cons c others =>
      cases hreads with
      | @cons _ middle _ piece pieces hpiece hpieces =>
          -- what starts a text is one thing only
          have hsame := (Piece.first_of_starts hpiece).symm.trans (Piece.first_of_starts hstarts)
          obtain rfl := Except.ok.inj hsame
          rw [List.map_cons, Kind.joined_cons, Piece.kind, Kind.before_of_ne_text hkind] at hkinds
          obtain ⟨token, rest, rfl, rfl, -⟩ := List.map_eq_cons_iff.mp hkinds
          exact ⟨token.span, rest, rfl⟩

/-- A token that is no include tag stands for itself. -/
theorem standsFor_of_ne {σ : Type} {loader : Loader σ}
    (inner : Option (List Token → Action σ (List Token))) {token : Token}
    (h : ∀ name, token.kind ≠ .inclusion name) : standsFor loader inner token = pure [token] := by
  obtain ⟨kind, span⟩ := token
  cases kind with
  | inclusion name => exact absurd rfl (h name)
  | _ => rfl

/-- At each depth, include tags are replaced one after the other. -/
theorem exists_expand_eq {σ : Type} (loader : Loader σ) (depth : Nat) :
    ∃ inner, expand loader depth = expandWith loader inner := by
  cases depth with
  | zero => exact ⟨none, rfl⟩
  | succ depth => exact ⟨some (expand loader depth), rfl⟩

/-- A first token that is no include tag stays the first one. -/
theorem yields_cons_expand {σ : Type} {loader : Loader σ} {token : Token}
    (h : ∀ name, token.kind ≠ .inclusion name) (depth : Nat) (rest : List Token) :
    Yields (fun expanded => ∃ others, expanded = token :: others)
      (expand loader depth (token :: rest)) := by
  obtain ⟨inner, hinner⟩ := exists_expand_eq loader depth
  rw [hinner, expandWith_cons, standsFor_of_ne inner h]
  refine (Action.yields_pure (P := fun here => here = [token]) rfl).bind fun here hhere => ?_
  have hrest : Yields (fun _ => True) (expandWith loader inner rest) := fun _ _ _ => trivial
  refine hrest.bind fun others _ => Action.yields_pure ?_
  rw [hhere]
  exact ⟨others, rfl⟩

/-- Tokens without include tags stand for themselves. -/
theorem run_expand_of_forall {σ : Type} {loader : Loader σ} {tokens : List Token}
    (h : ∀ token ∈ tokens, ∀ name, token.kind ≠ .inclusion name) (depth : Nat) (state : σ) :
    Action.run (expand loader depth tokens) state = (.ok tokens, state) := by
  obtain ⟨inner, hinner⟩ := exists_expand_eq loader depth
  rw [hinner]
  induction tokens with
  | nil => rfl
  | cons token rest ih =>
      obtain ⟨hfirst, hothers⟩ := List.forall_mem_cons.mp h
      rw [expandWith_cons, standsFor_of_ne inner hfirst, pure_bind,
        Action.run_bind_of_ok (ih hothers)]
      rfl

end Token

namespace Node

open Piece (Reads Starts)
open Token.Kind (Spelt FitsCondition)
open PageServer.Action (Yields)

/-! ## A page that is one choice -/

/-- The page that shows one letter where a condition holds, and another one where it does not. -/
def choicePage (condition : Text) : Text :=
  "\x7bIF: " ++ condition ++ "\x7dT\x7bELSE:\x7dF\x7b/IF\x7d"

/-- A condition without closing braces and line feeds fits into a tag. -/
theorem fitsCondition {condition : Text} (hfilled : condition ≠ []) (hbrace : '\x7d' ∉ condition)
    (hline : '\n' ∉ condition) : FitsCondition condition := by
  cases condition with
  | nil => contradiction
  | cons c rest => exact ⟨fun hmem => hbrace (List.mem_cons_of_mem c hmem), hline⟩

/-- The tag of a condition. -/
def conditionTag (condition : Text) : Text := "\x7bIF:" ++ ' ' :: condition ++ ['\x7d']

/-- A condition up to a closing brace starts with its tag. -/
theorem starts_condition {condition : Text} (h : FitsCondition condition) (after : Text) :
    Starts ("\x7bIF: " ++ condition ++ '\x7d' :: after)
      (.tag (.ifStart condition) (conditionTag condition)) after := by
  have hmark : conditionTag condition ≠ Piece.ignoreStart := by
    intro heq
    exact absurd (List.cons.inj (List.cons.inj (List.cons.inj heq).2).2).1 (by decide)
  have hsplit : "\x7bIF: " ++ condition ++ '\x7d' :: after = conditionTag condition ++ after := by
    have hstart : "\x7bIF: ".toList ++ condition = "\x7bIF:".toList ++ ' ' :: condition :=
      List.append_assoc "\x7bIF:".toList [' '] condition
    have hend : "\x7bIF:".toList ++ ' ' :: condition ++ '\x7d' :: after =
        conditionTag condition ++ after := (List.append_assoc _ ['\x7d'] after).symm
    exact (congrArg (· ++ '\x7d' :: after) hstart).trans hend
  rw [hsplit]
  exact .tag (.ifStart rfl h) hmark

/-- The pieces of the page. -/
theorem reads_choicePage {condition : Text} (h : FitsCondition condition) :
    Reads (choicePage condition)
      [.tag (.ifStart condition) (conditionTag condition), .plain 'T',
        .tag .otherwise "\x7bELSE:\x7d", .plain 'F', .tag .endIf "\x7b/IF\x7d"] [] := by
  have hplain : ∀ {c : Char} (rest : Text), c ≠ '\x7b' → Starts (c :: rest) (.plain c) rest :=
    fun rest hc => .plain (Piece.unmarked_of_ne hc rest)
  have hlast : Starts "\x7b/IF\x7d" (.tag .endIf "\x7b/IF\x7d") [] :=
    .tag (.braced .endIf) (by decide)
  have hmiddle : Starts "\x7bELSE:\x7dF\x7b/IF\x7d" (.tag .otherwise "\x7bELSE:\x7d")
      "F\x7b/IF\x7d" := .tag (.braced .otherwise) (by decide)
  refine .cons (starts_condition h _) (.cons (hplain _ (by decide)) ?_)
  exact .cons hmiddle (.cons (hplain _ (by decide)) (.cons hlast .nil))

/-- The place of the condition. -/
def choiceSpan (condition file : Text) : Span :=
  ⟨file, 1, Text.nearestLine (Text.lines (choicePage condition)) 1⟩

/-- The tree of the page. -/
def choiceTree (e : Expr) (span : Span) : List Node :=
  [.choice [.mk e [.text "T"] span] (some [.text "F"])]

/-- The tokens of the page: the condition, two texts and the tags around them. -/
theorem scan_choicePage {condition : Text} (h : FitsCondition condition) (file : Text) :
    ∃ first second third fourth, Token.scan (choicePage condition) file = .ok
      [⟨.ifStart condition, choiceSpan condition file⟩, ⟨.text "T", first⟩, ⟨.otherwise, second⟩,
        ⟨.text "F", third⟩, ⟨.endIf, fourth⟩] :=
  ⟨_, _, _, _, Token.scan_of_reads (reads_choicePage h) file⟩

/-- **A page whose condition holds no closing brace has the tree of a choice.** -/
theorem run_parse_choicePage {σ : Type} {loader : Loader σ} {condition : Text} {e : Expr}
    (hfits : FitsCondition condition) (he : Condition.parse condition = .ok e) (file : Text)
    (state : σ) :
    Action.run (parse loader (choicePage condition) file) state =
      (.ok (choiceTree e (choiceSpan condition file)), state) := by
  obtain ⟨first, second, third, fourth, hscan⟩ := scan_choicePage hfits file
  rw [run_parse hscan (Token.run_expand_of_forall (by simp) _ state)]
  have hrun : Draft.run {}
      [⟨.ifStart condition, choiceSpan condition file⟩, ⟨.text "T", first⟩, ⟨.otherwise, second⟩,
        ⟨.text "F", third⟩, ⟨.endIf, fourth⟩] =
      .ok ⟨[], (choiceTree e (choiceSpan condition file)).reverse⟩ :=
    Draft.run_cons_of_steps (.ifStart he) _
  rw [ofTokens_eq_ok_iff.mpr ⟨_, hrun, List.reverse_reverse _⟩]

/-- The page shows what the condition says, or fails where the condition does. -/
theorem render_choiceTree (e : Expr) (span : Span) (vars : Fields) (constants : Constants) :
    render (choiceTree e span) vars constants =
      match e.evaluate (Page.scope { vars, constants }) with
      | .ok v => .ok (if v.truthy then "T" else "F")
      | .error message => .error (Page.failure span message) := by
  simp only [render, choiceTree, renderAll, renderOne, renderChoice]
  cases e.evaluate (Page.scope { vars, constants }) with
  | error message => rfl
  | ok v => cases hv : v.truthy <;> simp [hv]

/-- **A page whose condition holds a closing brace has no tree.** -/
theorem yields_parse_choicePage {σ : Type} {loader : Loader σ} {front after : Text} {e : Expr}
    (hbrace : '\x7d' ∉ front) (hline : '\n' ∉ front)
    (he : Condition.parse (front ++ '\x7d' :: after) = .ok e) (file : Text) :
    Yields (fun _ => False) (parse loader (choicePage (front ++ '\x7d' :: after)) file) := by
  obtain ⟨quote, hquote⟩ := Condition.parse_of_append he
  have hfilled : front ≠ [] := by
    rintro rfl
    cases hquote
  have hfits := fitsCondition hfilled hbrace hline
  have hpage : choicePage (front ++ '\x7d' :: after) =
      "\x7bIF: " ++ front ++ '\x7d' :: (after ++ "\x7dT\x7bELSE:\x7dF\x7b/IF\x7d") := by
    have hfront : "\x7bIF: ".toList ++ (front ++ '\x7d' :: after) =
        "\x7bIF: " ++ front ++ '\x7d' :: after := (List.append_assoc _ _ _).symm
    exact (congrArg (· ++ _) hfront).trans (List.append_assoc _ _ _)
  rw [hpage, parse]
  have hscan : ∀ tokens, Token.scan ("\x7bIF: " ++ front ++ '\x7d' ::
      (after ++ "\x7dT\x7bELSE:\x7dF\x7b/IF\x7d")) file = .ok tokens →
        ∃ span rest, tokens = ⟨.ifStart front, span⟩ :: rest :=
    fun tokens => Token.exists_cons_of_scan (starts_condition hfits _) rfl
  refine (Action.yields_ofExcept hscan).bind ?_
  rintro tokens ⟨span, rest, rfl⟩
  refine (Token.yields_cons_expand (by simp) maxIncludeDepth rest).bind ?_
  rintro expanded ⟨others, rfl⟩
  apply Action.yields_ofExcept
  intro tree htree
  obtain ⟨nodes, hrun, -⟩ := ofTokens_eq_ok_iff.mp htree
  obtain ⟨next, hstep, -⟩ := Draft.run_cons_eq_ok_iff.mp hrun
  cases hstep with
  | ifStart hcondition =>
      rw [hquote] at hcondition
      contradiction

/-- **A page that is one choice shows what its condition says exactly if no literal of the
condition holds a closing brace; with such a brace it has no tree.** -/
theorem parse_choicePage {σ : Type} (loader : Loader σ) {condition : Text} {e : Expr}
    (hline : '\n' ∉ condition) (he : Condition.parse condition = .ok e) (file : Text) (state : σ)
    (vars : Fields) (constants : Constants) :
    ('\x7d' ∉ condition →
      ∃ tree, Action.run (parse loader (choicePage condition) file) state = (.ok tree, state) ∧
        render tree vars constants =
          match e.evaluate (Page.scope { vars, constants }) with
          | .ok v => .ok (if v.truthy then "T" else "F")
          | .error message => .error (Page.failure (choiceSpan condition file) message)) ∧
    ('\x7d' ∈ condition →
      ∀ tree, (Action.run (parse loader (choicePage condition) file) state).1 ≠ .ok tree) := by
  constructor
  · intro hbrace
    have hfilled : condition ≠ [] := by
      rintro rfl
      cases he
    have hfits := fitsCondition hfilled hbrace hline
    exact ⟨_, run_parse_choicePage hfits he file state, render_choiceTree e _ vars constants⟩
  · intro hbrace tree htree
    obtain ⟨front, after, rfl, hfront⟩ := List.eq_append_cons_of_mem hbrace
    have hfrontLine : '\n' ∉ front := fun hmem => hline (List.mem_append_left _ hmem)
    exact yields_parse_choicePage hfront hfrontLine he file state tree htree

/-- The value of a variable is compared with a literal that holds marks of conditions and tags. -/
theorem parse_choicePage_sample :
    ∃ tree, Action.run (parse (Loader.ofTexts .ok) (choicePage "AB == \x27(&\x7b\x27") "page") () =
        (.ok tree, ()) ∧
      render tree [("AB", .str "(&\x7b")] [] = .ok "T" := by
  have he : Condition.parse "AB == \x27(&\x7b\x27" =
      .ok (.binary .eq (.var ⟨none, ["AB"]⟩) (.lit (.str "(&\x7b"))) := rfl
  have hline : '\n' ∉ ("AB == \x27(&\x7b\x27" : Text) := by decide
  have hbrace : '\x7d' ∉ ("AB == \x27(&\x7b\x27" : Text) := by decide
  have hvalue : Expr.evaluate (Page.scope { vars := [("AB", .str "(&\x7b")], constants := [] })
      (.binary .eq (.var ⟨none, ["AB"]⟩) (.lit (.str "(&\x7b"))) = .ok (.bool true) := rfl
  obtain ⟨tree, htree, hrender⟩ :=
    (parse_choicePage (Loader.ofTexts .ok) hline he "page" () [("AB", .str "(&\x7b")] []).1 hbrace
  rw [hvalue] at hrender
  exact ⟨tree, htree, hrender⟩

/-- A literal that is a closing brace equals itself, but the page of this condition has no tree. -/
theorem closing_brace_in_literal :
    (∃ e, Condition.parse "\x27\x7d\x27 == \x27\x7d\x27" = .ok e ∧
      ∀ scope, e.evaluate scope = .ok (.bool true)) ∧
      ∀ tree, (Action.run (parse (Loader.ofTexts .ok)
        "\x7bIF: \x27\x7d\x27 == \x27\x7d\x27\x7dT\x7bELSE:\x7dF\x7b/IF\x7d" "page") ()).1 ≠
          .ok tree := by
  have he : Condition.parse ("\x27" ++ '\x7d' :: "\x27 == \x27\x7d\x27") =
      .ok (.binary .eq (.lit (.str "\x7d")) (.lit (.str "\x7d"))) := rfl
  refine ⟨⟨_, he, fun scope => rfl⟩, fun tree htree => ?_⟩
  have hnone : Yields (fun _ => False) (parse (Loader.ofTexts .ok)
      (choicePage ("\x27" ++ '\x7d' :: "\x27 == \x27\x7d\x27")) "page") :=
    yields_parse_choicePage (by decide) (by decide) he "page"
  exact hnone () tree htree

end Node
end PageServer
