/-
# Tokens of a condition

The words, symbols and literals of a condition.

* `Condition.Token.scan`: the tokens of a text
* `Condition.Token.shown`: a token as messages show it
* `Condition.Problem`: why a text is no condition
-/
import PageServer.Condition.Expr
import PageServer.Text.Quoted

namespace PageServer.Condition

/-- A token of a condition. -/
inductive Token where
  /-- An opening parenthesis. -/
  | openParen
  /-- A closing parenthesis. -/
  | closeParen
  /-- The sign or word for a negation. -/
  | negation
  /-- The symbol or word for an operator. -/
  | op (o : Operator)
  /-- A literal. -/
  | lit (v : Value)
  /-- A name. -/
  | ref (r : Reference)
  deriving Inhabited, Repr

/-- Why a text is no condition. -/
inductive Problem where
  /-- Half of a symbol of two equal characters. -/
  | halfSymbol (c : Char)
  /-- A text literal without its end. -/
  | unterminated (quote : Char)
  /-- A word that is no operator, literal or name. -/
  | unknownWord (word : Text)
  /-- No token at all. -/
  | empty
  /-- A token where an operand has to stand. -/
  | unexpected (t : Token)
  /-- The end where an operand has to stand. -/
  | unexpectedEnd
  /-- No closing parenthesis where one has to stand. -/
  | unclosed
  /-- A token behind a whole condition. -/
  | trailing (t : Token)
  deriving Repr

/-! ## Messages -/

namespace Token

/-- A reference as messages show it. -/
def shownReference : Reference → Text
  | .constant name => "Constant(" ++ Text.quoted name ++ ")"
  | .var ⟨scope, path⟩ =>
    let shownScope : Text :=
      match scope with
      | none => "None"
      | some name => "Some(" ++ Text.quoted name ++ ")"
    "Var(VarRef \x7b scope: " ++ shownScope ++ ", path: " ++ Text.quotedList path ++ " \x7d)"

/-- A literal as messages show it; a condition has no literals that are maps or loops. -/
def shownLiteral : Value → Text
  | .null => "Null"
  | .bool b => "Bool(" ++ (if b then "true" else "false" : String) ++ ")"
  | .int n => "Int(" ++ Text.ofInt n ++ ")"
  | .float x => "Float(" ++ Decimal.general x ++ ")"
  | .str t => "Str(" ++ Text.quoted t ++ ")"
  | .map _ | .rows _ => []

/-- A token as messages show it. -/
def shown : Token → Text
  | openParen => "LParen"
  | closeParen => "RParen"
  | negation => "Not"
  | op o => "Op(" ++ o.name ++ ")"
  | lit v => "Literal(" ++ shownLiteral v ++ ")"
  | ref r => "Reference(" ++ shownReference r ++ ")"

end Token

/-- The wording of a problem. -/
def Problem.message : Problem → Text
  | halfSymbol c =>
    "unexpected \x27" ++ [c] ++ "\x27, did you mean \x27" ++ [c, c] ++ "\x27?"
  | unterminated quote => "unterminated string literal starting with " ++ [quote]
  | unknownWord word => "unexpected token \x27" ++ word ++ "\x27"
  | empty => "empty condition"
  | unexpected t => "unexpected " ++ t.shown
  | unexpectedEnd => "unexpected end of condition"
  | unclosed => "missing closing \x27)\x27"
  | trailing t => "unexpected " ++ t.shown ++ " after condition"

/-! ## Scanning -/

/-- Whether a character opens and closes text literals. -/
def isQuote (c : Char) : Bool := c = '\x27' || c = '\x22' || c = '\x60'

/-- Whether a character ends a word. -/
def isBoundary (c : Char) : Bool :=
  Text.isBlank c || isQuote c || ['(', ')', '!', '=', '<', '>', '&', '|'].contains c

namespace Token

/-- The words with a fixed meaning. -/
def keywords : List (Text × Token) :=
  let others : List (Text × Token) :=
    [("not", negation), ("true", lit (.bool true)), ("false", lit (.bool false)),
      ("null", lit .null)]
  Operator.all.map (fun o => (o.word, op o)) ++ others

/-- The token of a word: a keyword, an integer, another number, or a name, in this order. -/
def ofWord (word : Text) : Except Problem Token :=
  match keywords.lookup word with
  | some t => .ok t
  | none =>
    match Number.readInt? word, Decimal.read? word, Reference.ofWord? word with
    | some n, _, _ => .ok (lit (.int n))
    | none, some x, _ => .ok (lit (.float x))
    | none, none, some r => .ok (ref r)
    | none, none, none => .error (.unknownWord word)

/-- The token of a symbol that may have an equals sign behind it, and the number of characters
behind its first. -/
def withEquals (alone joined : Token) : Text → Token × Nat
  | '=' :: _ => (joined, 1)
  | _ => (alone, 0)

/-- What starts at a character, none for a blank, and how many characters behind the first
belong to it. -/
def first (c : Char) (rest : Text) : Except Problem (Option Token × Nat) :=
  let found (t : Token × Nat) : Except Problem (Option Token × Nat) := .ok (some t.1, t.2)
  let doubled (o : Operator) : Except Problem (Option Token × Nat) :=
    match rest with
    | d :: _ => if d = c then found (op o, 1) else .error (.halfSymbol c)
    | [] => .error (.halfSymbol c)
  if Text.isBlank c then .ok (none, 0)
  else if c = '(' then found (openParen, 0)
  else if c = ')' then found (closeParen, 0)
  else if c = '!' then found (withEquals negation (op .ne) rest)
  else if c = '=' then doubled .eq
  else if c = '>' then found (withEquals (op .gt) (op .ge) rest)
  else if c = '<' then found (withEquals (op .lt) (op .le) rest)
  else if c = '&' then doubled .and
  else if c = '|' then doubled .or
  else if isQuote c then
    match Text.cut c rest with
    | some (inside, _) => found (lit (.str inside), inside.length + 1)
    | none => .error (.unterminated c)
  else
    let more := rest.takeWhile fun d => !isBoundary d
    match ofWord (c :: more) with
    | .ok t => found (t, more.length)
    | .error problem => .error problem

/-- The tokens of a text, after leaving out the rest of the last one. -/
def scanFrom : Nat → Text → Except Problem (List Token)
  | _, [] => .ok []
  | skip + 1, _ :: rest => scanFrom skip rest
  | 0, c :: rest =>
    match first c rest with
    | .error problem => .error problem
    | .ok (found, size) =>
      match scanFrom size rest with
      | .error problem => .error problem
      | .ok tokens => .ok (found.toList ++ tokens)

/-- The tokens of a condition. -/
def scan (source : Text) : Except Problem (List Token) := scanFrom 0 source

end Token
end PageServer.Condition
