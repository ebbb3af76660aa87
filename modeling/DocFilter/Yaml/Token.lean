/-!
# Tokens of a YAML text

The marks and scalars of a text, and the marks that are not written: a
block list or map starts where its column is deeper than that of the block
around it and ends where the column goes back, and a key is known as one
only by the colon after it. With these as tokens of their own, no token
needs a column any more.
-/

namespace DocFilter.Yaml

/-- **A token.** -/
inductive Token where
  /-- The start of a block list. -/
  | blockList
  /-- The start of a block map. -/
  | blockMap
  /-- The end of a block list or map. -/
  | blockEnd
  /-- The dash before an item of a block list. -/
  | dash
  /-- The start of a key. -/
  | key
  /-- The colon before a value. -/
  | value
  /-- The comma between parts of a flow list or map. -/
  | comma
  /-- The start of a flow list. -/
  | openList
  /-- The end of a flow list. -/
  | closeList
  /-- The start of a flow map. -/
  | openMap
  /-- The end of a flow map. -/
  | closeMap
  /-- The line that starts a document. -/
  | documentStart
  /-- The line that ends a document. -/
  | documentEnd
  /-- A scalar without quotes. -/
  | plain (text : String)
  /-- A scalar in quotes, or a block scalar. -/
  | quoted (text : String)
  deriving DecidableEq

/-- Whether a colon right after the token may be followed by its value at
once: the token is quoted or closes a bracket. -/
def Token.allowsAdjacentValue : Token → Bool
  | .quoted _ => true
  | .closeList => true
  | .closeMap => true
  | _ => false

end DocFilter.Yaml
