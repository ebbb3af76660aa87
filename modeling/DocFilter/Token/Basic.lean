import DocFilter.Relation
import DocFilter.Text.Quoted

/-!
# Tokens

The words of the filter language. A literal stays as it is spelled until
it is known which kind of value is wanted; words such as `exists` and
`size`, which mean something only in one place, are plain words here.
-/

namespace DocFilter

/-- **A reserved word.** -/
inductive Keyword where
  /-- The word `and`. -/
  | and
  /-- The word `or`. -/
  | or
  /-- The word `not`. -/
  | not
  /-- The word `type`. -/
  | type
  deriving DecidableEq

/-- The word itself. -/
def Keyword.word : Keyword → String
  | .and => "and"
  | .or => "or"
  | .not => "not"
  | .type => "type"

/-- **A literal as it is spelled.** -/
inductive RawLiteral where
  /-- A number, by its spelling. -/
  | number (spelling : String)
  /-- A quoted text, by its content. -/
  | text (content : String)
  /-- A truth value. -/
  | bool (b : Bool)
  /-- The null value. -/
  | null
  deriving DecidableEq

/-- **A token.** -/
inductive Token where
  /-- A field, or a word with a meaning in one place only. -/
  | word (name : String)
  /-- A relation symbol. -/
  | relation (r : Relation)
  /-- The pattern symbol. -/
  | pattern
  /-- A literal. -/
  | literal (raw : RawLiteral)
  /-- A reserved word. -/
  | keyword (k : Keyword)
  /-- An opening parenthesis. -/
  | openParen
  /-- A closing parenthesis. -/
  | closeParen
  /-- A comma. -/
  | comma
  /-- The end of the text. -/
  | eof
  deriving DecidableEq

/-- **The token as a message shows it.** -/
def Token.display : Token → String
  | .word name => "identifier '" ++ name ++ "'"
  | .relation r => "operator '" ++ r.symbol ++ "'"
  | .pattern => "operator '~'"
  | .literal (.number spelling) => "number " ++ spelling
  | .literal (.text content) => "string " ++ Text.quoted content
  | .literal (.bool true) => "'true'"
  | .literal (.bool false) => "'false'"
  | .literal .null => "'null'"
  | .keyword k => "keyword '" ++ k.word ++ "'"
  | .openParen => "'('"
  | .closeParen => "')'"
  | .comma => "','"
  | .eof => "end of input"

/-- **A token at its place**, the offset of its first byte. -/
structure Placed where
  /-- The token. -/
  token : Token
  /-- The offset of its first byte. -/
  position : Nat
  deriving DecidableEq

end DocFilter
