/-
# Tokens of a template

A template is cut into pieces: characters that stand for themselves, blocks to
be left alone, and tags. Neighbouring text is then joined into one token.

* `Piece.scan`: cuts a source into pieces with their lines
* `Piece.source`: the part of the source that a piece is
* `Token.scan`: the tokens of a source
-/
import PageServer.Template.Reference
import PageServer.Text.Line
import PageServer.Fault

namespace PageServer

namespace Token

/-- What a token is. -/
inductive Kind where
  /-- Text that stands for itself. -/
  | text (t : Text)
  /-- A tag that prints a value. -/
  | reference (r : Reference)
  /-- The tag that starts a choice. -/
  | ifStart (condition : Text)
  /-- The tag of a further branch. -/
  | elseIf (condition : Text)
  /-- The tag of what stands for none of the branches. -/
  | otherwise
  /-- The tag that ends a choice. -/
  | endIf
  /-- The tag that starts a loop. -/
  | loop (name : Text)
  /-- The tag that ends a loop. -/
  | endLoop (name : Text)
  /-- The tag that puts another template here. -/
  | inclusion (name : Text)
  deriving DecidableEq, Repr

end Token

/-- A token and its place. -/
structure Token where
  /-- What it is. -/
  kind : Token.Kind
  /-- Where it stands. -/
  span : Span
  deriving DecidableEq, Repr

/-! ## Tags -/

namespace Token.Kind

/-- The condition that follows a keyword: one blank, then at least one character up to a brace,
with no line feed. -/
def conditionAfter? (keyword t : Text) : Option Text :=
  match Text.after? keyword t with
  | some (blank :: first :: rest) =>
    match Text.cut '}' rest with
    | some (more, _) =>
      if Text.isBlank blank ∧ '\n' ∉ first :: more then some (first :: more) else none
    | none => none
  | _ => none

/-- Whether a text can name a loop in a tag: at least two loop characters or dots. -/
def isLoopName (name : Text) : Bool :=
  decide (2 ≤ name.length) && name.all fun c => Reference.isLoopChar c || c = '.'

/-- The tag with a given text between its braces, for all tags but conditions. -/
def ofBody? (body : Text) : Option Kind :=
  match Reference.ofTag? body with
  | some r => some (reference r)
  | none =>
    match Text.after? "ELSE:" body with
    | some [] => some otherwise
    | some [c] => if Text.isBlank c then some otherwise else none
    | some _ => none
    | none =>
      if body = "/IF" then some endIf
      else
        match Text.after? "LOOP: " body, Text.after? "/LOOP: " body,
            Text.after? "INCLUDE: " body with
        | some name, _, _ => if isLoopName name then some (loop name) else none
        | none, some name, _ => if isLoopName name then some (endLoop name) else none
        | none, none, some name =>
          if '\n' ∈ name then none else some (inclusion (Text.trim name))
        | none, none, none => none

/-- The tag at the start of a text and its length. -/
def at? (t : Text) : Option (Kind × Nat) :=
  match conditionAfter? "\x7bIF:" t, conditionAfter? "\x7bELSEIF:" t with
  | some condition, _ => some (ifStart condition, condition.length + 6)
  | none, some condition => some (elseIf condition, condition.length + 10)
  | none, none =>
    match t with
    | '{' :: inside =>
      match Text.cut '}' inside with
      | some (body, _) => (ofBody? body).map fun kind => (kind, body.length + 2)
      | none => none
    | _ => none

end Token.Kind

/-! ## Pieces -/

/-- A part of a template source. -/
inductive Piece where
  /-- A character that stands for itself. -/
  | plain (c : Char)
  /-- The inside of an IGNORE block, which is text whatever it holds. -/
  | ignored (body : Text)
  /-- A tag, with the characters it is written with. -/
  | tag (kind : Token.Kind) (written : Text)
  deriving DecidableEq, Repr

namespace Piece

/-- The mark before text to be left alone. -/
def ignoreStart : Text := "\x7bIGNORE\x7d"

/-- The mark behind text to be left alone. -/
def ignoreEnd : Text := "\x7b/IGNORE\x7d"

/-- The part of the source that a piece is. -/
def source : Piece → Text
  | plain c => [c]
  | ignored body => ignoreStart ++ body ++ ignoreEnd
  | tag _ written => written

/-- Why a source can not be cut into pieces. -/
inductive Problem where
  /-- A block to be left alone has no end. -/
  | unterminated
  /-- Such an end has no block before it. -/
  | stray
  deriving DecidableEq, Repr

/-- The wording of a problem. -/
def Problem.message : Problem → Text
  | unterminated => "unterminated \x7bIGNORE\x7d block"
  | stray => "\x7b/IGNORE\x7d without matching \x7bIGNORE\x7d"

/-- The piece at the start of a nonempty text. -/
def first (c : Char) (rest : Text) : Except Problem Piece :=
  if c ≠ '{' then .ok (plain c)
  else
    match Text.after? ignoreStart (c :: rest) with
    | some inside =>
      match Text.cutAt ignoreEnd inside with
      | some (body, _) => .ok (ignored body)
      | none => .error .unterminated
    | none =>
      if Text.startsWith ignoreEnd (c :: rest) then .error .stray
      else
        match Token.Kind.at? (c :: rest) with
        | some (kind, size) => .ok (tag kind ((c :: rest).take size))
        | none => .ok (plain c)

/-- The number of the line after a character on line `line`. -/
def lineAfter (line : Nat) (c : Char) : Nat := if c = '\n' then line + 1 else line

/-- Cuts a text that starts on line `line` into pieces with their lines, after leaving out the
rest of the last piece. A problem comes with the line it is found on. -/
def scanFrom : Nat → Nat → Text → Except (Problem × Nat) (List (Piece × Nat))
  | _, _, [] => .ok []
  | skip + 1, line, c :: rest => scanFrom skip (lineAfter line c) rest
  | 0, line, c :: rest =>
    match first c rest with
    | .error problem => .error (problem, line)
    | .ok piece =>
      match scanFrom (piece.source.length - 1) (lineAfter line c) rest with
      | .error found => .error found
      | .ok pieces => .ok ((piece, line) :: pieces)

/-- Cuts a source into pieces with their lines. -/
def scan (source : Text) : Except (Problem × Nat) (List (Piece × Nat)) :=
  scanFrom 0 1 source

end Piece

/-! ## Tokens -/

namespace Token

/-- The line on which the first of some tokens stands, or the last line of the source. -/
def lineOfNext (endLine : Nat) : List (Kind × Nat) → Nat
  | [] => endLine
  | (_, line) :: _ => line

/-- Tokens behind a text. An empty text is no token; any other has the line on which it ends. -/
def behindText (endLine : Nat) (t : Text) (tokens : List (Kind × Nat)) : List (Kind × Nat) :=
  if t.isEmpty then tokens else (.text t, lineOfNext endLine tokens) :: tokens

/-- The text before the first tag, and the tokens from that tag on. -/
def split (endLine : Nat) : List (Piece × Nat) → Text × List (Kind × Nat)
  | [] => ([], [])
  | (.plain c, _) :: pieces =>
    let (t, tokens) := split endLine pieces
    (c :: t, tokens)
  | (.ignored body, _) :: pieces =>
    let (t, tokens) := split endLine pieces
    (body ++ t, tokens)
  | (.tag kind _, line) :: pieces =>
    let (t, tokens) := split endLine pieces
    ([], (kind, line) :: behindText endLine t tokens)

/-- The tokens of some pieces: the tags, and the text between them joined. -/
def ofPieces (endLine : Nat) (pieces : List (Piece × Nat)) : List (Kind × Nat) :=
  let (t, tokens) := split endLine pieces
  behindText endLine t tokens

/-- The tokens of a source, each with its place in `file`. -/
def scan (source file : Text) : Except Fault (List Token) :=
  match Piece.scan source with
  | .error (problem, line) => .error (.templateSyntax file line problem.message)
  | .ok pieces =>
    let all := Text.lines source
    let endLine := 1 + source.count '\n'
    .ok ((ofPieces endLine pieces).map fun (kind, line) =>
      ⟨kind, ⟨file, line, Text.nearestLine all line⟩⟩)

end Token
end PageServer
