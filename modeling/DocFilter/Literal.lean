import DocFilter.Decimal.Layout
import DocFilter.Text.Basic
import DocFilter.Text.Quoted

/-!
# Literals and type names

A **literal** is the typed right-hand side of a comparison. Its type is
settled by its spelling alone: what is quoted is a text even when it looks
like a number. A **type name** is a literal of its own kind, found only to
the right of `type`.
-/

namespace DocFilter

open Decimal (Double Layout)

/-- **A type that a field can be tested for.** -/
inductive TypeName where
  /-- Texts. -/
  | string
  /-- Numbers of any kind. -/
  | number
  /-- Truth values. -/
  | bool
  /-- The null value. -/
  | null
  /-- Lists. -/
  | array
  /-- Documents. -/
  | object
  deriving DecidableEq

namespace TypeName

/-- The name of a type. -/
def name : TypeName → String
  | .string => "string"
  | .number => "number"
  | .bool => "bool"
  | .null => "null"
  | .array => "array"
  | .object => "object"

/-- The spellings of each type name, in lower case. -/
def spellings : List (String × TypeName) :=
  [("string", .string), ("str", .string),
    ("number", .number), ("int", .number), ("integer", .number), ("float", .number),
    ("bool", .bool), ("boolean", .bool),
    ("null", .null), ("array", .array), ("object", .object)]

/-- **The type that a word names**, in any case of its letters. -/
def ofName? (word : String) : Option TypeName :=
  spellings.lookup (Text.lowerCase word)

end TypeName

/-- **The right-hand side of a comparison.** -/
inductive Literal where
  /-- A whole number. -/
  | int (n : Int)
  /-- A double. -/
  | float (d : Double)
  /-- A text. -/
  | text (s : String)
  /-- A truth value. -/
  | bool (b : Bool)
  /-- The null value. -/
  | null
  /-- The name of a type. -/
  | typeName (t : TypeName)
  deriving DecidableEq

namespace Literal

/-- What kind of literal this is, in the words of messages. -/
def kind : Literal → String
  | .int _ => "integer"
  | .float _ => "float"
  | .text _ => "string"
  | .bool _ => "boolean"
  | .null => "null"
  | .typeName _ => "type name"

/-- Messages write a double without exponent and without a forced point. -/
def floatLayout : Layout where
  positional := none
  keepsPoint := false
  signsExponent := false
  tie := .away

/-- **The literal as a message shows it**: its kind, and its value where
one can be seen. -/
def describe (l : Literal) : String :=
  match l with
  | .int n => l.kind ++ " " ++ Decimal.intText n
  | .float d => l.kind ++ " " ++ floatLayout.write d
  | .text s => l.kind ++ " " ++ Text.quoted s
  | .bool b => l.kind ++ " " ++ (if b then "true" else "false")
  | .null => l.kind
  | .typeName _ => l.kind

end Literal

end DocFilter
