import DocFilter.Error
import DocFilter.Options
import DocFilter.Text.Alphanumeric
import DocFilter.Text.Basic
import DocFilter.Text.Blank

/-!
# Merging the operands of an `and`

A document already is a conjunction of its entries, so the documents of
an `and`'s operands are merged into one, entry by entry. What happens to
an entry whose key is there already depends on the key:

* two `$where` predicates are joined with `&&` in their code;
* any other key that starts with `$` is set aside;
* two constraints on a field are united when both are maps of operators
  with no operator in common, and otherwise the policy decides.

What was set aside goes under `$and` at the end. A predicate that came
with a ready-made document is **raw**: nothing is known about its code, so
it is put in parentheses before it is joined.
-/

namespace DocFilter

/-- The key of embedded code. -/
def whereKey : String := "$where"

/-- The key of a list of documents that all hold. -/
def andKey : String := "$and"

/-- The key of a list of documents of which one holds. -/
def orKey : String := "$or"

/-- The key of a list of documents of which none holds. -/
def norKey : String := "$nor"

/-- Whether a key is an operator rather than a field. -/
def isOperatorKey (key : String) : Bool :=
  key.toList.head? == some '$'

/-! ## Joining code -/

/-- Whether code is the text of a function and not an expression. -/
def isFunctionText (code : String) : Bool :=
  let start := "function".toList
  let cs := Text.trimStart code.toList
  start.isPrefixOf cs
    && !(cs.drop start.length).head?.any fun c => Text.isAlphanumeric c || c == '_' || c == '$'

/-- Code that can stand beside `&&`: in parentheses if it is raw or might
bind looser. -/
def guarded (code : String) (raw : Bool) : String :=
  if raw || Text.occurs ['|', '|'] code.toList then "(" ++ code ++ ")" else code

/-- **The conjunction of two predicates.** Only expressions can be joined. -/
def joinWhere (left right : Value) (rawLeft rawRight : Bool) :
    Except FilterError String :=
  match left, right with
  | .text l, .text r =>
    if isFunctionText l || isFunctionText r then .error .whereConflict
    else .ok (guarded l rawLeft ++ " && " ++ guarded r rawRight)
  | _, _ => .error .whereConflict

/-! ## Uniting constraints -/

/-- Whether a document is a map of operators. -/
def Document.isOperatorMap (doc : Document) : Bool :=
  !doc.isEmpty && (Document.keys doc).all isOperatorKey

/-- **The union of two maps of operators** that share none. -/
def Value.uniteOperators? (left right : Value) : Option Value :=
  match left, right with
  | .document l, .document r =>
    if Document.isOperatorMap l && Document.isOperatorMap r
        && !(Document.keys r).any (Document.has l) then
      some (.document (Document.append l r))
    else none
  | _, _ => none

/-! ## Merging -/

/-- **A conjunction in the making.** -/
structure Conjunction where
  /-- The entries that share the document. -/
  doc : Document
  /-- The entries that were set aside, in order. -/
  deferred : List (String × Value)
  /-- Whether the predicate in the document is raw. -/
  rawWhere : Bool

namespace Conjunction

/-- The conjunction of nothing. -/
def empty : Conjunction := ⟨[], [], false⟩

/-- Set an entry aside. -/
def defer (m : Conjunction) (key : String) (value : Value) : Conjunction :=
  { m with deferred := m.deferred ++ [(key, value)] }

/-- Give a key of the document a value. -/
def put (m : Conjunction) (key : String) (value : Value) : Conjunction :=
  { m with doc := Document.insert m.doc key value }

/-- A constraint on a field that is constrained already. -/
def constrainAgain (policy : CollisionPolicy) (m : Conjunction) (key : String)
    (present value : Value) : Except FilterError Conjunction :=
  match Value.uniteOperators? present value with
  | some both => .ok (m.put key both)
  | none =>
    match policy with
    | .lastWins => .ok (m.put key value)
    | .reject => .error (.fieldConflict key)
    | .andWrap => .ok (m.defer key value)

/-- **Add one entry.** -/
def addEntry (policy : CollisionPolicy) (raw : Bool) (m : Conjunction) (key : String)
    (value : Value) : Except FilterError Conjunction :=
  match Document.get? m.doc key with
  | none => .ok { m.put key value with rawWhere := if key = whereKey then raw else m.rawWhere }
  | some present =>
    if key = whereKey then
      match joinWhere present value m.rawWhere raw with
      | .error e => .error e
      | .ok code => .ok { m.put key (.text code) with rawWhere := false }
    else if isOperatorKey key then .ok (m.defer key value)
    else constrainAgain policy m key present value

/-- **Add the entries of a document**, in order. -/
def addDocument (policy : CollisionPolicy) (raw : Bool) (m : Conjunction) :
    Document → Except FilterError Conjunction
  | [] => .ok m
  | (key, value) :: rest =>
    match m.addEntry policy raw key value with
    | .error e => .error e
    | .ok m' => addDocument policy raw m' rest

/-- The items that stand under `$and` already. -/
def andItems (doc : Document) : List Value :=
  match Document.get? doc andKey with
  | none => []
  | some (.list items) => items
  | some other => [.document (Document.single andKey other)]

/-- **The document of a conjunction.** What was set aside joins the items
of `$and`, which then is the last key. -/
def toDocument (m : Conjunction) : Document :=
  if m.deferred.isEmpty then m.doc
  else
    let items := andItems m.doc ++ m.deferred.map fun e => .document (Document.single e.1 e.2)
    Document.erase m.doc andKey ++ Document.single andKey (.list items)

/-- Add documents one after another, each with its mark of rawness. -/
def addAll (policy : CollisionPolicy) (m : Conjunction) :
    List (Document × Bool) → Except FilterError Conjunction
  | [] => .ok m
  | (doc, raw) :: rest =>
    match m.addDocument policy raw doc with
    | .error e => .error e
    | .ok m' => addAll policy m' rest

/-- **The merge of the documents of an `and`**, each with its mark of
rawness. -/
def merge (policy : CollisionPolicy) (operands : List (Document × Bool)) :
    Except FilterError Document :=
  (empty.addAll policy operands).map toDocument

end Conjunction

end DocFilter
