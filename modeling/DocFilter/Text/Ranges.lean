/-!
# Tables of code points

A Unicode property is kept as a list of closed ranges of code points in
ascending order, and a character has the property when one of the ranges
holds it.
-/

namespace DocFilter.Text

/-- Whether some range of the table holds the character. -/
def inRanges (table : List (Nat × Nat)) (c : Char) : Bool :=
  table.any fun range => range.1 ≤ c.toNat && c.toNat ≤ range.2

end DocFilter.Text
