import DocFilter.Filter.Conjunction
import DocFilter.Filter.Predicate

/-!
# The document of an expression

| expression        | document                                    |
|-------------------|---------------------------------------------|
| `a = 1`           | `a` under the value itself                  |
| `a > 1`           | `a` under `$gt` (`$gte`, `$lt`, `$lte`, `$ne`) |
| `a ~ 'x'`         | `a` under `$regex`                          |
| `a exists true`   | `a` under `$exists`                         |
| `a size 2`        | `a` under `$size`                           |
| `a size > 2`      | a predicate under `$where`                  |
| `a type string`   | a predicate under `$where`                  |
| `x and y`         | the two documents merged                    |
| `x or y`          | the two documents under `$or`               |

There is no entry for `not`: a negation travels down to the comparisons.
An `and` under it becomes an `or` of negations and the other way round, a
relation becomes its complement, and only a ready-made document keeps it,
under `$nor`.
-/

namespace DocFilter

/-- The key of a relation; equality needs none. -/
def Relation.operatorKey? : Relation → Option String
  | .eq => none
  | .ne => some "$ne"
  | .gt => some "$gt"
  | .ge => some "$gte"
  | .lt => some "$lt"
  | .le => some "$lte"

/-- The value of a literal. A double that is not finite has none, and a
type name outside its place is a text. -/
def Literal.toValue : Literal → Value
  | .int n => .int n
  | .float d => if d.isFinite then .float d else .null
  | .text s => .text s
  | .bool b => .bool b
  | .null => .null
  | .typeName t => .text t.name

namespace Filter

/-- A field under one operator. -/
def underOperator (field op : String) (value : Value) : Document :=
  Document.single field (.document (Document.single op value))

/-- A predicate under its key. -/
def underWhere (code : String) : Document :=
  Document.single whereKey (.text code)

/-- **The document of a comparison** on a resolved field, or of its
negation. -/
def ofComparison (o : Options) (negated : Bool) (c : Comparison) :
    Except FilterError Document :=
  let field := o.resolve c.field
  match c.op, c.value with
  | .typeOf, .typeName type =>
    match Predicate.ofType field type with
    | .error e => .error e
    | .ok code => .ok (underWhere (if negated then "!(" ++ code ++ ")" else code))
  | .presence, .bool present => .ok (underOperator field "$exists" (.bool (present != negated)))
  | .pattern, .text p =>
    let regex := Document.single "$regex" (.text p)
    if negated then .ok (underOperator field "$not" (.document regex))
    else .ok (Document.single field (.document regex))
  | .size r, .int n =>
    match r.underNegation negated with
    | .eq => .ok (underOperator field "$size" (.int n))
    | other => (Predicate.ofSize field other n).map underWhere
  | op, value =>
    match op.relation? with
    | none => .error (.invalidOperand c)
    | some r =>
      match (r.underNegation negated).operatorKey? with
      | some key => .ok (underOperator field key value.toValue)
      | none => .ok (Document.single field value.toValue)

/-- What a document contributes to a list of alternatives: the items of an
`$or` that is all it holds, and otherwise itself. -/
def alternatives : Document → List Value
  | [(key, .list items)] => if key = orKey then items else [.document [(key, .list items)]]
  | doc => [.document doc]

/-- Whether an operand of an `and` is a ready-made document that stands
there as it is. -/
def isRaw (negated : Bool) : Expr → Bool
  | .fragment _ => !negated
  | _ => false

mutual

/-- **The document of an expression**, or of its negation. -/
def ofExpr (o : Options) (negated : Bool) : Expr → Except FilterError Document
  | .comparison c => ofComparison o negated c
  | .not operand => ofExpr o (!negated) operand
  | .all operands =>
    if negated then (anyOf o true operands).map fun items => Document.single orKey (.list items)
    else (allOf o false Conjunction.empty operands).map Conjunction.toDocument
  | .any operands =>
    if negated then (allOf o true Conjunction.empty operands).map Conjunction.toDocument
    else (anyOf o false operands).map fun items => Document.single orKey (.list items)
  | .fragment doc =>
    if negated then .ok (Document.single norKey (.list [.document doc])) else .ok doc

/-- Merge the documents of operands that all hold. -/
def allOf (o : Options) (negated : Bool) (m : Conjunction) :
    List Expr → Except FilterError Conjunction
  | [] => .ok m
  | e :: rest =>
    match ofExpr o negated e with
    | .error err => .error err
    | .ok doc =>
      match m.addDocument o.collision (isRaw negated e) doc with
      | .error err => .error err
      | .ok m' => allOf o negated m' rest

/-- The alternatives of operands of which one holds. -/
def anyOf (o : Options) (negated : Bool) : List Expr → Except FilterError (List Value)
  | [] => .ok []
  | e :: rest =>
    match ofExpr o negated e with
    | .error err => .error err
    | .ok doc =>
      match anyOf o negated rest with
      | .error err => .error err
      | .ok items => .ok (alternatives doc ++ items)

end

end Filter

/-- **The filter document of an expression.** -/
def Expr.toFilter (o : Options) (e : Expr) : Except FilterError Document :=
  Filter.ofExpr o false e

end DocFilter
