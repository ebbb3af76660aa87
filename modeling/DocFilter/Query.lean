import DocFilter.Expr.Parser
import DocFilter.Filter.Basic
import DocFilter.Text.Blank
import DocFilter.Value.Reader

/-!
# Queries

A **query** comes in one of three shapes: a text, a list of clauses that
must all hold, or a list of groups of clauses of which one must hold. A
**clause** is a text or a ready-made document.

As a value, a query is a text or a list; `Query.ofValue?` tells the shapes
apart and `Query.toValue` gives the value back. The empty list counts as a
list of no groups. A query that asks for nothing has no expression, and
its filter is the empty document.
-/

namespace DocFilter

/-- **One item of a list-shaped query.** -/
inductive Clause where
  /-- A text in the filter language. -/
  | text (s : String)
  /-- A ready-made document. -/
  | fragment (doc : Document)

/-- **A query in one of its shapes.** -/
inductive Query where
  /-- A text in the filter language. -/
  | text (s : String)
  /-- Groups of which one must hold, each a list of clauses that all must. -/
  | groups (gs : List (List Clause))
  /-- Clauses that must all hold. -/
  | clauses (cs : List Clause)

/-! ## Queries as values -/

/-- The clause that a value is. -/
def Clause.ofValue? : Value → Option Clause
  | .text s => some (.text s)
  | .document doc => some (.fragment doc)
  | _ => none

/-- A clause as a value. -/
def Clause.toValue : Clause → Value
  | .text s => .text s
  | .fragment doc => .document doc

/-- The clauses that a list of values is, if each of them is one. -/
def Clause.listOfValues? : List Value → Option (List Clause)
  | [] => some []
  | v :: rest =>
    match Clause.ofValue? v, listOfValues? rest with
    | some c, some cs => some (c :: cs)
    | _, _ => none

/-- The clauses that a value lists. -/
def Clause.listOfValue? : Value → Option (List Clause)
  | .list items => listOfValues? items
  | _ => none

/-- The groups that a list of values is, if each of them lists clauses. -/
def Query.groupsOfValues? : List Value → Option (List (List Clause))
  | [] => some []
  | v :: rest =>
    match Clause.listOfValue? v, groupsOfValues? rest with
    | some g, some gs => some (g :: gs)
    | _, _ => none

/-- **The query that a value is**, groups being tried before clauses. -/
def Query.ofValue? : Value → Option Query
  | .text s => some (.text s)
  | .list items =>
    match groupsOfValues? items with
    | some gs => some (.groups gs)
    | none => (Clause.listOfValues? items).map .clauses
  | _ => none

/-- **A query as a value.** -/
def Query.toValue : Query → Value
  | .text s => .text s
  | .groups gs => .list (gs.map fun g => .list (g.map Clause.toValue))
  | .clauses cs => .list (cs.map Clause.toValue)

/-- **The query that a text writes as a value.** Its shapes differ inside,
so the whole value is read before it is judged. -/
def Query.read (s : String) : Except Reader.Refusal Query :=
  Reader.closed (Reader.readShape Query.ofValue? s.toList)

/-- **The list of clauses that a text writes**, each judged as it comes. -/
def Clause.readList (s : String) : Except Reader.Refusal (List Clause) :=
  Reader.closed (Reader.readItems Clause.ofValue? s.toList)

/-- **The document that a text writes.** -/
def Document.read (s : String) : Except Reader.Refusal Document :=
  Reader.closed (Reader.readDocument s.toList)

/-! ## The expression of a query -/

/-- The expression of a clause. -/
def Clause.parse : Clause → Except QueryError Expr
  | .text s => Expr.parse s
  | .fragment doc => .ok (.fragment doc)

/-- The expressions of clauses, up to the first that has none. -/
def Clause.parseAll : List Clause → Except QueryError (List Expr)
  | [] => .ok []
  | c :: rest =>
    match c.parse with
    | .error e => .error e
    | .ok e =>
      match parseAll rest with
      | .error err => .error err
      | .ok es => .ok (e :: es)

/-- **The expression of clauses that must all hold**; none of no clauses. -/
def Clause.parseList (cs : List Clause) : Except QueryError (Option Expr) :=
  match Clause.parseAll cs with
  | .error e => .error e
  | .ok [] => .ok none
  | .ok es => .ok (some (Expr.conj es))

/-- The expressions of groups. A group of no clauses holds always, which
is what the empty document says. -/
def Query.parseGroups : List (List Clause) → Except QueryError (List Expr)
  | [] => .ok []
  | g :: rest =>
    match Clause.parseList g with
    | .error e => .error e
    | .ok e =>
      match parseGroups rest with
      | .error err => .error err
      | .ok es => .ok (e.getD (.fragment []) :: es)

/-- **The expression of a query**; none of a query that asks for nothing. -/
def Query.parse : Query → Except QueryError (Option Expr)
  | .text s => if Text.isAllBlank s then .ok none else (Expr.parse s).map some
  | .groups gs =>
    match parseGroups gs with
    | .error e => .error e
    | .ok [] => .ok none
    | .ok es => .ok (some (Expr.disj es))
  | .clauses cs => Clause.parseList cs

/-- **The filter document of a query.** -/
def Query.toFilter (o : Options) (q : Query) : Except QueryError Document :=
  match q.parse with
  | .error e => .error e
  | .ok none => .ok []
  | .ok (some e) =>
    match e.toFilter o with
    | .error err => .error (.filter err)
    | .ok doc => .ok doc

end DocFilter
