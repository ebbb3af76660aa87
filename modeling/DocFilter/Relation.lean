/-!
# Relations

The six order relations of the filter language. Each has a complement,
which is what negation turns it into, and two spellings: its symbol in
queries and its symbol in embedded code, where equality is doubled.
-/

namespace DocFilter

/-- **An order relation** between a field and a value. -/
inductive Relation where
  /-- Equal. -/
  | eq
  /-- Not equal. -/
  | ne
  /-- Greater. -/
  | gt
  /-- Greater or equal. -/
  | ge
  /-- Less. -/
  | lt
  /-- Less or equal. -/
  | le
  deriving DecidableEq

namespace Relation

/-- **The relation that holds exactly when the given one does not.** -/
def complement : Relation → Relation
  | .eq => .ne
  | .ne => .eq
  | .gt => .le
  | .ge => .lt
  | .lt => .ge
  | .le => .gt

/-- The complement of the complement is the relation itself. -/
@[simp] theorem complement_complement (r : Relation) : r.complement.complement = r := by
  cases r <;> rfl

/-- The symbol in embedded code. -/
def codeSymbol : Relation → String
  | .eq => "=="
  | .ne => "!="
  | .gt => ">"
  | .ge => ">="
  | .lt => "<"
  | .le => "<="

/-- The symbol in queries. -/
def symbol : Relation → String
  | .eq => "="
  | r => r.codeSymbol

/-- The relation, or its complement under a negation. -/
def underNegation (r : Relation) (negated : Bool) : Relation :=
  if negated then r.complement else r

end Relation

end DocFilter
