import DocFilter.Literal
import DocFilter.Relation
import DocFilter.Value.Basic

/-!
# Filter expressions

A **comparison** holds one field against one literal. An **expression**
combines comparisons by `and`, `or` and `not`; the groups take any number
of operands. A ready-made document can stand in an expression as a
**fragment**.

`Expr.simplify` brings an expression to its normal form: no group stands
directly in a group of the same kind, and no group has exactly one
operand. It is built from `Expr.conj` and `Expr.disj`, which do this for
one group whose operands are in normal form already.
-/

namespace DocFilter

/-- **How a comparison compares.** -/
inductive Operator where
  /-- An order relation. -/
  | relation (r : Relation)
  /-- A test of the field's type. -/
  | typeOf
  /-- A test whether the field is there. -/
  | presence
  /-- A match with a regular expression. -/
  | pattern
  /-- A relation on the length of a list. -/
  | size (r : Relation)
  deriving DecidableEq

namespace Operator

/-- The relation, if the operator is one. -/
def relation? : Operator → Option Relation
  | .relation r => some r
  | _ => none

/-- The operator as queries spell it. -/
def symbol : Operator → String
  | .relation r => r.symbol
  | .typeOf => "type"
  | .presence => "exists"
  | .pattern => "~"
  | .size .eq => "size"
  | .size r => "size" ++ r.symbol

end Operator

/-- **One constraint**: a field, an operator and a literal. -/
structure Comparison where
  /-- The field, a path with dots between its segments. -/
  field : String
  /-- The operator. -/
  op : Operator
  /-- The literal that the field is held against. -/
  value : Literal
  deriving DecidableEq

/-! ## What an operator asks of its literal -/

/-- **A demand on a literal** that an operator makes. -/
inductive Demand where
  /-- A number of either kind. -/
  | number
  /-- A quoted pattern. -/
  | pattern
  /-- A truth value. -/
  | truth
  /-- An integer that is not negative. -/
  | nonNegative
  /-- An integer above zero. -/
  | positive
  deriving DecidableEq

namespace Demand

/-- The demand in the words of messages. -/
def text : Demand → String
  | .number => "a number"
  | .pattern => "a quoted pattern"
  | .truth => "true or false"
  | .nonNegative => "a non-negative integer"
  | .positive => "a positive integer"

end Demand

/-- **The demand of an operator that a literal fails to meet**, if there is
one. A length below zero is never asked for, hence nor is one less than
zero. -/
def Operator.unmet? (op : Operator) (value : Literal) : Option Demand :=
  match op, value with
  | .relation .eq, _ => none
  | .relation .ne, _ => none
  | .relation _, .int _ => none
  | .relation _, .float _ => none
  | .relation _, _ => some .number
  | .pattern, .text _ => none
  | .pattern, _ => some .pattern
  | .presence, .bool _ => none
  | .presence, _ => some .truth
  | .size r, .int n =>
    if r = .lt ∧ n = 0 then some .positive
    else if 0 ≤ n then none
    else some .nonNegative
  | .size _, _ => some .nonNegative
  | .typeOf, _ => none

/-! ## Expressions -/

/-- **A filter expression.** -/
inductive Expr where
  /-- One constraint. -/
  | comparison (c : Comparison)
  /-- All operands hold. -/
  | all (operands : List Expr)
  /-- Some operand holds. -/
  | any (operands : List Expr)
  /-- The operand does not hold. -/
  | not (operand : Expr)
  /-- A ready-made document, taken as it is. -/
  | fragment (doc : Document)

namespace Expr

/-- What an expression contributes to an enclosing `and`: the operands of
an `and`, and otherwise itself. -/
def conjuncts : Expr → List Expr
  | .all operands => operands
  | e => [e]

/-- What an expression contributes to an enclosing `or`. -/
def disjuncts : Expr → List Expr
  | .any operands => operands
  | e => [e]

/-- **The `and` of expressions in normal form**, in normal form. -/
def conj (operands : List Expr) : Expr :=
  match operands.flatMap conjuncts with
  | [e] => e
  | flat => .all flat

/-- **The `or` of expressions in normal form**, in normal form. -/
def disj (operands : List Expr) : Expr :=
  match operands.flatMap disjuncts with
  | [e] => e
  | flat => .any flat

mutual

/-- **The normal form of an expression.** -/
def simplify : Expr → Expr
  | .comparison c => .comparison c
  | .all operands => conj (simplifyAll operands)
  | .any operands => disj (simplifyAll operands)
  | .not operand => .not (simplify operand)
  | .fragment doc => .fragment doc

/-- The normal forms of a list of expressions. -/
def simplifyAll : List Expr → List Expr
  | [] => []
  | e :: rest => simplify e :: simplifyAll rest

end

/-- Simplifying a list simplifies each of its expressions. -/
@[simp] theorem simplifyAll_eq_map (es : List Expr) : simplifyAll es = es.map simplify := by
  induction es with
  | nil => rfl
  | cons e rest ih => simp [simplifyAll, ih]

end Expr

end DocFilter
