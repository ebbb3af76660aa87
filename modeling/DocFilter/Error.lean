import DocFilter.Expr.Basic

/-!
# What can go wrong with a query

A query can fail in four stages: its text cannot be cut into tokens, the
tokens do not form an expression, a literal does not fit its place, or
the expression has no document. Each failure is a cause with the facts
about it; `QueryError.message` puts it into words. Places are byte
offsets into the text of the query.
-/

namespace DocFilter

open Decimal (natText)

/-- **A text that cannot be cut into tokens.** -/
inductive LexError where
  /-- No token starts with this character here. -/
  | unexpectedChar (position : Nat) (found : Char)
  /-- The string that starts here does not end. -/
  | unterminatedString (position : Nat)
  deriving DecidableEq

/-- The error in words. -/
def LexError.message : LexError → String
  | .unexpectedChar position found =>
    "unexpected character '" ++ String.singleton found ++ "' at " ++ natText position
  | .unterminatedString position =>
    "unterminated string starting at " ++ natText position

/-- How many parentheses and negations may be open at once. -/
def nestingLimit : Nat := 128

/-- **What the grammar would have taken** where it met something else. -/
inductive Expectation where
  /-- The start of an operand. -/
  | operand
  /-- The start of an operand, where a comma stands. -/
  | operandNotComma
  /-- A place where nesting can go no deeper. -/
  | shallowerNesting
  /-- A field whose path has no empty segment. -/
  | fieldPath
  /-- An operator after a field. -/
  | operator
  /-- What can follow `size`. -/
  | sizeRelation
  /-- A literal. -/
  | literal
  /-- A literal, where a bare word stands. -/
  | quotedLiteral
  /-- A type name. -/
  | typeName
  /-- A closing parenthesis. -/
  | closeParen
  /-- More of the query, or its end. -/
  | continuation
  deriving DecidableEq

/-- The expectation in words. -/
def Expectation.text : Expectation → String
  | .operand => "field name, 'not' or '('"
  | .operandNotComma => "a comparison (',' is only valid between list items)"
  | .shallowerNesting => "nesting depth <= " ++ natText nestingLimit
  | .fieldPath => "field name without empty path segments"
  | .operator => "comparison operator"
  | .sizeRelation => "size relation or integer"
  | .literal => "literal"
  | .quotedLiteral => "literal (quote string values)"
  | .typeName => "type name"
  | .closeParen => "')'"
  | .continuation => "'and', 'or' or end of input"

/-- **A token where the grammar has no place for it.** -/
structure ParseError where
  /-- The place of the token. -/
  position : Nat
  /-- What would have been taken. -/
  expected : Expectation
  /-- What stands there, as a message shows it. -/
  found : String
  deriving DecidableEq

/-- The error in words. -/
def ParseError.message (e : ParseError) : String :=
  "parse error at " ++ natText e.position ++ ": expected " ++ e.expected.text
    ++ ", found " ++ e.found

/-- **A literal that does not fit its place.** -/
inductive CoercionError where
  /-- No type has this name. -/
  | invalidTypeName (position : Nat) (found : String)
  /-- An integer past 64 bits. -/
  | integerOutOfRange (position : Nat) (spelling : String)
  /-- A number that is no finite double. -/
  | nonFiniteNumber (position : Nat) (spelling : String)
  /-- A literal of a kind that the operator cannot take. -/
  | valueKind (c : Comparison) (demand : Demand)
  deriving DecidableEq

/-- The error in words. -/
def CoercionError.message : CoercionError → String
  | .invalidTypeName position found =>
    "invalid type name '" ++ found ++ "' at " ++ natText position
      ++ " (expected one of: string, number, bool, null, array, object)"
  | .integerOutOfRange position spelling =>
    "integer literal '" ++ spelling ++ "' at " ++ natText position ++ " is out of range"
  | .nonFiniteNumber position spelling =>
    "numeric literal '" ++ spelling ++ "' at " ++ natText position ++ " is not finite"
  | .valueKind c demand =>
    "field '" ++ c.field ++ "': operator '" ++ c.op.symbol ++ "' needs " ++ demand.text
      ++ ", got " ++ c.value.describe

/-- **An expression that has no document.** -/
inductive FilterError where
  /-- Two operands of an `and` constrain a field, and only one may. -/
  | fieldConflict (field : String)
  /-- Two pieces of code cannot be joined. -/
  | whereConflict
  /-- A field that embedded code cannot name. -/
  | unsafeField (field : String)
  /-- A comparison whose literal its operator cannot take. -/
  | invalidOperand (c : Comparison)
  deriving DecidableEq

/-- The error in words. -/
def FilterError.message : FilterError → String
  | .fieldConflict field =>
    "field '" ++ field ++ "' is constrained more than once in the same 'and' group"
  | .whereConflict =>
    "cannot combine $where clauses: only JavaScript expression strings can be joined"
  | .unsafeField field => "field '" ++ field ++ "' cannot be used in a $where expression"
  | .invalidOperand c =>
    "field '" ++ c.field ++ "': operator '" ++ c.op.symbol ++ "' cannot take a "
      ++ c.value.kind ++ " value"

/-- **A query that cannot be answered**, by the stage that failed. -/
inductive QueryError where
  /-- Cutting the text into tokens failed. -/
  | lex (e : LexError)
  /-- The tokens form no expression. -/
  | parse (e : ParseError)
  /-- A literal does not fit. -/
  | coercion (e : CoercionError)
  /-- The expression has no document. -/
  | filter (e : FilterError)
  deriving DecidableEq

/-- **The error in words.** -/
def QueryError.message : QueryError → String
  | .lex e => e.message
  | .parse e => e.message
  | .coercion e => e.message
  | .filter e => e.message

end DocFilter
