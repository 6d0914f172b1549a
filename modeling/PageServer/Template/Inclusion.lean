/-
# Included templates

The tokens of a template with those of the templates it includes in the place
of its include tags, down to a fixed depth.

* `Token.expand`: puts the tokens of included templates in place
* `maxIncludeDepth`: how many templates may include one another
-/
import PageServer.Template.Token
import PageServer.Action

namespace PageServer

/-- The greatest number of templates each included by the one before. -/
def maxIncludeDepth : Nat := 16

/-- Where the sources of included templates come from, by name. -/
abbrev Loader (σ : Type) := Text → Action σ Text

namespace Token

/-- An include tag nested deeper than allowed. -/
def tooDeep (span : Span) (name : Text) : Fault :=
  .templateSyntax span.file span.line
    ("include of \x27" ++ name ++ "\x27 nested deeper than " ++ Text.ofNat maxIncludeDepth
      ++ " levels, is it including itself?")

/-- Replaces the include tags among some tokens. The tokens of an included template are treated
by `inner`, without which no template may be included. -/
def expandWith {σ : Type} (loader : Loader σ)
    (inner : Option (List Token → Action σ (List Token))) :
    List Token → Action σ (List Token)
  | [] => pure []
  | token :: rest => do
    let here ←
      match token.kind, inner with
      | .inclusion name, none => throw (tooDeep token.span name)
      | .inclusion name, some expandInner => do
        let source ← loader name
        let included ← Action.ofExcept (scan source name)
        expandInner included
      | _, _ => pure [token]
    let after ← expandWith loader inner rest
    pure (here ++ after)

/-- Replaces the include tags among some tokens, `depth` being how many templates may still
include one another. -/
def expand {σ : Type} (loader : Loader σ) : Nat → List Token → Action σ (List Token)
  | 0 => expandWith loader none
  | depth + 1 => expandWith loader (some (expand loader depth))

end Token
end PageServer
