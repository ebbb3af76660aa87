import DocFilter.Token.Lexer
import DocFilter.Token.Literal

/-!
# Parsing expressions

The grammar, loosest binding first:

```text
query      = conjunct ("or" conjunct)*
conjunct   = unary ("and" unary)*
unary      = "not" unary | "(" query ")" | comparison
comparison = FIELD relation literal | FIELD "~" literal | FIELD "type" NAME
           | FIELD "exists" literal | FIELD "size" relation? literal
```

The parser is a machine that takes the tokens one by one. It keeps a
**level** for the query itself and one for each open parenthesis: the
branches of the `or` that are done, the operands of the `and` in
progress, and the negations waiting for their operand. What it can take
next is `Awaiting`. A token that has no place is refused on the spot, so
an error always points at the first token that no query could have there.

Groups are built in normal form as they close, hence so is the result.
-/

namespace DocFilter

namespace Parser

/-- **An open query**: the outermost one or one in parentheses. -/
structure Level where
  /-- The branches of the `or` that are complete. -/
  branches : List Expr
  /-- The operands of the current branch that are complete. -/
  operands : List Expr
  /-- How many negations wait for the next operand. -/
  nots : Nat

/-- What the machine can take next. -/
inductive Awaiting where
  /-- The start of an operand. -/
  | operand
  /-- The operator after a field. -/
  | operator (field : String)
  /-- What follows `size`: a relation or the length at once. -/
  | size (field : String)
  /-- The literal of a comparison. -/
  | literal (field : String) (op : Operator)
  /-- The name after `type`. -/
  | typeName (field : String)
  /-- A connective, a closing parenthesis or the end. -/
  | connective

/-- **The state of parsing.** -/
structure State where
  /-- The levels around the current one, innermost first. -/
  outer : List Level
  /-- The current level. -/
  level : Level
  /-- What can come next. -/
  awaiting : Awaiting

namespace Level

/-- A level in which nothing has been read. -/
def empty : Level := ⟨[], [], 0⟩

/-- An expression under a number of negations. -/
def negate : Nat → Expr → Expr
  | 0, e => e
  | n + 1, e => .not (negate n e)

/-- Add an operand under the negations that wait for it. -/
def push (l : Level) (e : Expr) : Level :=
  { l with operands := l.operands ++ [negate l.nots e], nots := 0 }

/-- End the current branch of the `or`. -/
def branch (l : Level) : Level :=
  { l with branches := l.branches ++ [Expr.conj l.operands], operands := [] }

/-- **The expression of a finished level.** -/
def toExpr (l : Level) : Expr :=
  Expr.disj (l.branches ++ [Expr.conj l.operands])

end Level

namespace State

/-- The state before the first token. -/
def initial : State := ⟨[], Level.empty, .operand⟩

/-- How many parentheses and negations are open. -/
def depth (s : State) : Nat :=
  s.level.nots + s.outer.foldr (fun l n => l.nots + 1 + n) 0

/-- What would have been taken in place of a token. -/
def expected (s : State) (t : Token) : Expectation :=
  match s.awaiting, t with
  | .operand, .comma => .operandNotComma
  | .operand, _ => .operand
  | .operator _, _ => .operator
  | .size _, .pattern => .sizeRelation
  | .size _, .word _ => .quotedLiteral
  | .size _, _ => .literal
  | .literal _ _, .word _ => .quotedLiteral
  | .literal _ _, _ => .literal
  | .typeName _, _ => .typeName
  | .connective, _ => if s.outer.isEmpty then .continuation else .closeParen

/-- The refusal of a token. -/
def refuse (s : State) (t : Placed) : QueryError :=
  .parse ⟨t.position, s.expected t.token, t.token.display⟩

/-- The refusal of a token that would nest too deep. -/
def refuseNesting (t : Placed) : QueryError :=
  .parse ⟨t.position, .shallowerNesting, t.token.display⟩

/-- Add a complete operand to the current level. -/
def push (s : State) (e : Expr) : State :=
  { s with level := s.level.push e, awaiting := .connective }

/-- Whether a path has an empty segment. -/
def hasEmptySegment (field : String) : Bool :=
  (Text.segments '.' field.toList).any List.isEmpty

/-- A field starts a comparison, if its path has no empty segment. -/
def takeField (s : State) (name : String) (position : Nat) : Except QueryError State :=
  if hasEmptySegment name then
    .error (.parse ⟨position, .fieldPath, "'" ++ name ++ "'"⟩)
  else .ok { s with awaiting := .operator name }

/-- A literal completes a comparison, if it meets the operator's demand. -/
def takeLiteral (s : State) (field : String) (op : Operator) (t : Placed) :
    Except QueryError State :=
  match t.token with
  | .literal raw =>
    match Literal.ofRaw raw t.position with
    | .error e => .error (.coercion e)
    | .ok value =>
      match op.unmet? value with
      | some demand => .error (.coercion (.valueKind ⟨field, op, value⟩ demand))
      | none => .ok (s.push (.comparison ⟨field, op, value⟩))
  | _ => .error (s.refuse t)

/-- Whether a token can be judged as a type name at all. -/
def canNameType : Token → Bool
  | .word _ => true
  | .literal _ => true
  | .keyword .not => true
  | .keyword .type => true
  | _ => false

/-- A type name completes a comparison. -/
def takeTypeName (s : State) (field : String) (t : Placed) : Except QueryError State :=
  if canNameType t.token then
    match Literal.ofTypeToken t.token t.position with
    | .error e => .error (.coercion e)
    | .ok value => .ok (s.push (.comparison ⟨field, .typeOf, value⟩))
  else .error (s.refuse t)

/-- A token where an operand starts. -/
def takeOperand (s : State) (t : Placed) : Except QueryError State :=
  match t.token with
  | .word name => s.takeField name t.position
  | .openParen =>
    if s.depth < nestingLimit then .ok ⟨s.level :: s.outer, Level.empty, .operand⟩
    else .error (refuseNesting t)
  | .keyword .not =>
    if s.depth < nestingLimit then
      .ok { s with level := { s.level with nots := s.level.nots + 1 } }
    else .error (refuseNesting t)
  | _ => .error (s.refuse t)

/-- A token after a field. -/
def takeOperator (s : State) (field : String) (t : Placed) : Except QueryError State :=
  match t.token with
  | .relation r => .ok { s with awaiting := .literal field (.relation r) }
  | .pattern => .ok { s with awaiting := .literal field .pattern }
  | .keyword .type => .ok { s with awaiting := .typeName field }
  | .word w =>
    if Text.sameWord w "exists" then .ok { s with awaiting := .literal field .presence }
    else if Text.sameWord w "size" then .ok { s with awaiting := .size field }
    else .error (s.refuse t)
  | _ => .error (s.refuse t)

/-- A token after a complete operand. -/
def takeConnective (s : State) (t : Placed) : Except QueryError State :=
  match t.token, s.outer with
  | .keyword .and, _ => .ok { s with awaiting := .operand }
  | .keyword .or, _ => .ok { s with level := s.level.branch, awaiting := .operand }
  | .closeParen, l :: outer => .ok (push ⟨outer, l, .operand⟩ s.level.toExpr)
  | _, _ => .error (s.refuse t)

/-- **Take one token.** -/
def step (s : State) (t : Placed) : Except QueryError State :=
  match s.awaiting with
  | .operand => s.takeOperand t
  | .operator field => s.takeOperator field t
  | .size field =>
    match t.token with
    | .relation r => .ok { s with awaiting := .literal field (.size r) }
    | _ => s.takeLiteral field (.size .eq) t
  | .literal field op => s.takeLiteral field op t
  | .typeName field => s.takeTypeName field t
  | .connective => s.takeConnective t

/-- **The end of the text**: the query must be complete. -/
def finish (s : State) (position : Nat) : Except QueryError Expr :=
  match s.awaiting, s.outer with
  | .connective, [] => .ok s.level.toExpr
  | _, _ => .error (s.refuse ⟨.eof, position⟩)

/-- Take tokens up to the end of the text. -/
def run (s : State) : List Placed → Except QueryError Expr
  | [] => s.finish 0
  | t :: rest =>
    if t.token = .eof then s.finish t.position
    else
      match s.step t with
      | .error e => .error e
      | .ok s' => run s' rest

end State

/-- The expression that a list of tokens forms. -/
def parseTokens (tokens : List Placed) : Except QueryError Expr :=
  State.initial.run tokens

end Parser

/-- **The expression that a text writes.** -/
def Expr.parse (s : String) : Except QueryError Expr :=
  match tokenize s with
  | .error e => .error (.lex e)
  | .ok tokens => Parser.parseTokens tokens

end DocFilter
