import DocFilter.Error
import DocFilter.Text.Basic

/-!
# Predicates in embedded code

Some constraints have no form of their own in a filter document and are
written as code, a **predicate** on the document at hand, which the code
knows as `this`. A field is never pasted into code as it stands. Each
segment of its path must be a plain identifier, written `.segment`, or a
run of digits, written `[digits]`; any other field has no predicate.
-/

namespace DocFilter.Predicate

/-- A character that an identifier can start with. -/
def isIdentifierStart (c : Char) : Bool :=
  c.isAlpha || c == '_' || c == '$'

/-- A character that an identifier can go on with. -/
def isIdentifierChar (c : Char) : Bool :=
  c.isAlphanum || c == '_' || c == '$'

/-- Whether a segment is an identifier. -/
def isIdentifier : List Char → Bool
  | [] => false
  | c :: cs => isIdentifierStart c && cs.all isIdentifierChar

/-- Whether a segment is an index. -/
def isIndex (segment : List Char) : Bool :=
  !segment.isEmpty && segment.all Char.isDigit

/-- How code goes down one segment, if it can. -/
def memberChars (segment : List Char) : Option (List Char) :=
  if isIdentifier segment then some ('.' :: segment)
  else if isIndex segment then some ('[' :: segment ++ [']'])
  else none

/-- How code goes down a list of segments. -/
def chainChars : List (List Char) → Option (List Char)
  | [] => some []
  | segment :: rest =>
    match memberChars segment, chainChars rest with
    | some cs, some ds => some (cs ++ ds)
    | _, _ => none

/-- **The code of a field**: `this` and one step for each segment. -/
def path (field : String) : Except FilterError String :=
  match chainChars (Text.segments '.' field.toList) with
  | some cs => .ok (String.ofList ("this".toList ++ cs))
  | none => .error (.unsafeField field)

/-- The test of a type, on the code of a field. The word that code has for
the type of a list or of null does not tell them apart, so these two have
tests of their own. -/
def typeTest (path : String) : TypeName → String
  | .string => "typeof " ++ path ++ " == \"string\""
  | .number => "typeof " ++ path ++ " == \"number\""
  | .bool => "typeof " ++ path ++ " == \"boolean\""
  | .object => "typeof " ++ path ++ " == \"object\""
  | .null => path ++ " === null"
  | .array => "Array.isArray(" ++ path ++ ")"

/-- **The predicate that a field has a type.** -/
def ofType (field : String) (type : TypeName) : Except FilterError String :=
  (path field).map fun p => typeTest p type

/-- **The predicate that a list has a length.** -/
def ofSize (field : String) (r : Relation) (size : Int) : Except FilterError String :=
  (path field).map fun p => p ++ ".length " ++ r.codeSymbol ++ " " ++ Decimal.intText size

end DocFilter.Predicate
