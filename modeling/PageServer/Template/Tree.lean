/-
# Building template trees

Tokens are read from left to right with a stack of the tags that are still
open. Each token either adds to the innermost open block, opens or closes one,
or does not fit.

* `Draft`: the part of a tree that has been read
* `Draft.step`: reads one token
* `Node.ofTokens`: the tree of a list of tokens
* `Node.parse`: the tree of a source, with the templates it includes
-/
import PageServer.Template.Node
import PageServer.Template.Inclusion
import PageServer.Condition.Tree

namespace PageServer

/-- A tag that is open, with what has been read of it. -/
inductive OpenTag where
  /-- A branch of the choice opened at `opened`, behind the branches `earlier`. -/
  | branch (opened : Span) (earlier : List Branch) (condition : Expr) (span : Span)
  /-- The part of a choice for when no branch is taken. -/
  | otherwise (opened : Span) (branches : List Branch)
  /-- A loop. -/
  | loop (name : Text) (parent : Option Text) (key : Text) (span : Span)

/-- A tree of which a part has been read. Open tags stand from the innermost outwards, and
instructions last one first. -/
structure Draft where
  /-- The open tags, each with the instructions before it. -/
  layers : List (OpenTag × List Node) := []
  /-- The instructions in the innermost block. -/
  nodes : List Node := []

namespace Draft

/-- A fault at a place. -/
def fault (span : Span) (message : Text) : Fault :=
  .templateSyntax span.file span.line message

/-- The draft with an instruction added; text joins text before it. -/
def push (d : Draft) (node : Node) : Draft :=
  match node, d.nodes with
  | .text t, .text before :: rest => { d with nodes := .text (before ++ t) :: rest }
  | node, nodes => { d with nodes := node :: nodes }

/-- The draft inside a tag that has just been opened. -/
def enter (d : Draft) (tag : OpenTag) : Draft :=
  { layers := (tag, d.nodes) :: d.layers, nodes := [] }

/-- The name of the innermost open loop. -/
def innermostLoop (d : Draft) : Option Text :=
  d.layers.findSome? fun layer =>
    match layer.1 with
    | .loop name .. => some name
    | _ => none

/-- Where a token stands that does not fit to the innermost open tag. -/
def place : List (OpenTag × List Node) → Text
  | [] => "without a matching opening tag"
  | (.branch opened .., _) :: _ => "inside the \x7bIF:\x7d opened at line " ++ Text.ofNat opened.line
  | (.otherwise opened _, _) :: _ =>
    "after \x7bELSE:\x7d of the \x7bIF:\x7d opened at line " ++ Text.ofNat opened.line
  | (.loop name _ _ span, _) :: _ =>
    "inside \x7bLOOP: " ++ name ++ "\x7d opened at line " ++ Text.ofNat span.line

/-- The fault of a token that does not fit. -/
def misplaced (d : Draft) (span : Span) (written : Text) : Fault :=
  fault span (written ++ ' ' :: place d.layers)

/-- The condition of a tag. -/
def conditionAt (span : Span) (source : Text) : Except Fault Expr :=
  match Condition.parse source with
  | .ok condition => .ok condition
  | .error problem =>
    .error (fault span ("invalid condition \x27" ++ source ++ "\x27: " ++ problem.message))

/-- The loop whose current row holds the rows of a loop named `name`, and the name of its rows
there. A dotted name has to go one step into the innermost open loop. -/
def loopSource (innermost : Option Text) (span : Span) (name : Text) :
    Except Fault (Option Text × Text) :=
  match Text.cutLast '.' name with
  | none => .ok (innermost, name)
  | some (parent, key) =>
    if parent.isEmpty || key.isEmpty then
      .error (fault span ("invalid loop name \x27" ++ name ++ "\x27"))
    else if innermost = some parent then .ok (some parent, key)
    else
      .error (fault span
        ("loop \x27" ++ name ++ "\x27 must be placed directly inside loop \x27" ++ parent
          ++ "\x27"))

/-- Reads one token. -/
def step (d : Draft) (token : Token) : Except Fault Draft :=
  let span := token.span
  match token.kind with
  | .text t => .ok (d.push (.text t))
  | .reference (.var v) => .ok (d.push (.print v))
  | .reference (.constant name) => .ok (d.push (.constant name))
  | .ifStart source =>
    match conditionAt span source with
    | .ok condition => .ok (d.enter (.branch span [] condition span))
    | .error problem => .error problem
  | .loop name =>
    match loopSource d.innermostLoop span name with
    | .ok (parent, key) => .ok (d.enter (.loop name parent key span))
    | .error problem => .error problem
  | .elseIf source =>
    match d.layers with
    | (.branch opened earlier condition place, outer) :: layers =>
      match conditionAt span source with
      | .ok next =>
        let branches := earlier ++ [.mk condition d.nodes.reverse place]
        .ok { layers := (.branch opened branches next span, outer) :: layers, nodes := [] }
      | .error problem => .error problem
    | _ => .error (d.misplaced span "\x7bELSEIF:\x7d")
  | .otherwise =>
    match d.layers with
    | (.branch opened earlier condition place, outer) :: layers =>
      let branches := earlier ++ [.mk condition d.nodes.reverse place]
      .ok { layers := (.otherwise opened branches, outer) :: layers, nodes := [] }
    | _ => .error (d.misplaced span "\x7bELSE:\x7d")
  | .endIf =>
    match d.layers with
    | (.branch _ earlier condition place, outer) :: layers =>
      let branches := earlier ++ [.mk condition d.nodes.reverse place]
      .ok { layers, nodes := .choice branches none :: outer }
    | (.otherwise _ branches, outer) :: layers =>
      .ok { layers, nodes := .choice branches (some d.nodes.reverse) :: outer }
    | _ => .error (d.misplaced span "\x7b/IF\x7d")
  | .endLoop closing =>
    match d.layers with
    | (.loop name parent key place, outer) :: layers =>
      if closing = name then
        .ok { layers, nodes := .loop name parent key d.nodes.reverse place :: outer }
      else .error (d.misplaced span ("\x7b/LOOP: " ++ closing ++ "\x7d"))
    | _ => .error (d.misplaced span ("\x7b/LOOP: " ++ closing ++ "\x7d"))
  | .inclusion name => .error (fault span ("unresolved include \x27" ++ name ++ "\x27"))

/-- The tree of a draft in which no tag is open any more. -/
def finish (d : Draft) : Except Fault (List Node) :=
  match d.layers with
  | [] => .ok d.nodes.reverse
  | (.loop name _ _ span, _) :: _ =>
    .error (fault span ("unterminated \x7bLOOP: " ++ name ++ "\x7d block"))
  | (.branch opened .., _) :: _ | (.otherwise opened _, _) :: _ =>
    .error (fault opened "unterminated \x7bIF:\x7d block")

/-- Reads tokens in order. -/
def run (d : Draft) : List Token → Except Fault Draft
  | [] => .ok d
  | token :: tokens =>
    match d.step token with
    | .ok d => run d tokens
    | .error problem => .error problem

end Draft

namespace Node

/-- The tree of a list of tokens without include tags. -/
def ofTokens (tokens : List Token) : Except Fault (List Node) :=
  match Draft.run {} tokens with
  | .ok d => d.finish
  | .error problem => .error problem

/-- The tree of a source, with the templates it includes. -/
def parse {σ : Type} (loader : Loader σ) (source file : Text) : Action σ (List Node) := do
  let tokens ← Action.ofExcept (Token.scan source file)
  let expanded ← Token.expand loader maxIncludeDepth tokens
  Action.ofExcept (ofTokens expanded)

end Node
end PageServer
