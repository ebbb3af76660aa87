import DocFilter.Decimal.Layout
import DocFilter.Text.Basic
import DocFilter.Value.Basic

/-!
# Printing values

Two written forms of a value, both JSON: the **compact** one on a single
line without spaces, and the **pretty** one with one entry or item to a
line, two spaces deeper than what encloses it. Both escape text in the
same way, so neither ever holds a raw line feed inside a text.
-/

namespace DocFilter

open Decimal (Layout)

/-- Documents write a double with its point, and turn to an exponent below
`10 ^ -5` and from `10 ^ 16` on. -/
def Value.floatLayout : Layout where
  positional := some (-5, 15)
  keepsPoint := true
  signsExponent := true
  tie := .even

/-- How one character stands in a quoted text: the quote, the backslash
and the controls are escaped, all else stands for itself. -/
def Value.escapeChar (c : Char) : List Char :=
  match c with
  | '"' => ['\\', '"']
  | '\\' => ['\\', '\\']
  | '\x08' => ['\\', 'b']
  | '\t' => ['\\', 't']
  | '\n' => ['\\', 'n']
  | '\x0c' => ['\\', 'f']
  | '\r' => ['\\', 'r']
  | c =>
    if c.toNat < 0x20 then
      ['\\', 'u', '0', '0'] ++ (if c.toNat < 0x10 then ['0'] else []) ++ Text.hexDigits c.toNat
    else [c]

/-- A text between quotes. -/
def Value.textChars (s : String) : List Char :=
  '"' :: s.toList.flatMap escapeChar ++ ['"']

/-- A scalar has one written form; lists and documents have none here. -/
def Value.scalarChars : Value → List Char
  | .null => "null".toList
  | .bool true => "true".toList
  | .bool false => "false".toList
  | .int n => Decimal.intChars n
  | .float d => if d.isFinite then (floatLayout.write d).toList else "null".toList
  | .text s => textChars s
  | .list _ => []
  | .document _ => []

/-! ## The compact form -/

mutual

/-- The characters of the compact form. -/
def Value.compactChars : Value → List Char
  | .list items => '[' :: compactItems items ++ [']']
  | .document entries => '\x7b' :: compactEntries entries ++ ['\x7d']
  | v => v.scalarChars

/-- The items of a list with commas between them. -/
def Value.compactItems : List Value → List Char
  | [] => []
  | [v] => compactChars v
  | v :: rest => compactChars v ++ ',' :: compactItems rest

/-- The entries of a document with commas between them. -/
def Value.compactEntries : List (String × Value) → List Char
  | [] => []
  | [(k, v)] => textChars k ++ ':' :: compactChars v
  | (k, v) :: rest => textChars k ++ ':' :: compactChars v ++ ',' :: compactEntries rest

end

/-! ## The pretty form -/

/-- A new line at a depth. -/
def Value.newLine (depth : Nat) : List Char :=
  '\n' :: List.replicate (2 * depth) ' '

mutual

/-- The characters of the pretty form, inside `depth` enclosing values. -/
def Value.prettyChars (depth : Nat) : Value → List Char
  | .list [] => ['[', ']']
  | .list items => '[' :: prettyItems (depth + 1) items ++ newLine depth ++ [']']
  | .document [] => ['\x7b', '\x7d']
  | .document entries =>
    '\x7b' :: prettyEntries (depth + 1) entries ++ newLine depth ++ ['\x7d']
  | v => v.scalarChars

/-- The items of a list, each on a line of its own. -/
def Value.prettyItems (depth : Nat) : List Value → List Char
  | [] => []
  | [v] => newLine depth ++ prettyChars depth v
  | v :: rest => newLine depth ++ prettyChars depth v ++ ',' :: prettyItems depth rest

/-- The entries of a document, each on a line of its own. -/
def Value.prettyEntries (depth : Nat) : List (String × Value) → List Char
  | [] => []
  | [(k, v)] => newLine depth ++ textChars k ++ ':' :: ' ' :: prettyChars depth v
  | (k, v) :: rest =>
    newLine depth ++ textChars k ++ ':' :: ' ' :: prettyChars depth v
      ++ ',' :: prettyEntries depth rest

end

/-- **A value on one line.** -/
def Value.compact (v : Value) : String :=
  String.ofList v.compactChars

/-- **A value with one entry or item to a line.** -/
def Value.pretty (v : Value) : String :=
  String.ofList (v.prettyChars 0)

/-- The written form of a document. -/
def Document.render (doc : Document) (pretty : Bool) : String :=
  if pretty then (Value.document doc).pretty else (Value.document doc).compact

end DocFilter
