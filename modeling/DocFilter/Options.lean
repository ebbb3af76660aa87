/-!
# Options of a filter

Two things about a filter are not in the query: what to do when two
operands of an `and` constrain the same field, and by which path a field
is known in the documents that are searched.
-/

namespace DocFilter

/-- **What an `and` does when two operands constrain a field** and their
constraints cannot stand side by side. -/
inductive CollisionPolicy where
  /-- The later constraint replaces the earlier one. -/
  | lastWins
  /-- There is no filter. -/
  | reject
  /-- Both are kept, the later one under `$and`. -/
  | andWrap
  deriving DecidableEq

/-- The policies by name. -/
def CollisionPolicy.names : List (String × CollisionPolicy) :=
  [("last_wins", .lastWins), ("error", .reject), ("and_wrap", .andWrap)]

/-- The name of a policy. -/
def CollisionPolicy.name : CollisionPolicy → String
  | .lastWins => "last_wins"
  | .reject => "error"
  | .andWrap => "and_wrap"

/-- The policy of a name. -/
def CollisionPolicy.ofName? (name : String) : Option CollisionPolicy :=
  names.lookup name

/-- **The options of a filter.** -/
structure Options where
  /-- What to do when two operands constrain one field. -/
  collision : CollisionPolicy := .lastWins
  /-- The path that stands for a field, by field. -/
  aliases : List (String × String) := []
  deriving DecidableEq

/-- **The path of a field**: its alias, or the field itself. An alias is
not looked up again. -/
def Options.resolve (o : Options) (field : String) : String :=
  (o.aliases.lookup field).getD field

end DocFilter
