import DocFilter.Text.Basic
import DocFilter.Text.Visible

/-!
# Quoted text in messages

A message shows a piece of text between double quotes, so that the reader
sees where it starts and ends and what it is made of. The quote and the
backslash get a backslash, four controls go by a letter, and every other
character that cannot be shown as itself is written as its code point in
braces.
-/

namespace DocFilter.Text

/-- How one character stands between the quotes. -/
def quoteChar (c : Char) : List Char :=
  match c with
  | '"' => ['\\', '"']
  | '\\' => ['\\', '\\']
  | '\x00' => ['\\', '0']
  | '\t' => ['\\', 't']
  | '\n' => ['\\', 'n']
  | '\r' => ['\\', 'r']
  | c =>
    if isVisible c then [c]
    else ['\\', 'u', '\x7b'] ++ hexDigits c.toNat ++ ['\x7d']

/-- **The text between double quotes**, with everything in it visible. -/
def quoted (s : String) : String :=
  String.ofList (['"'] ++ s.toList.flatMap quoteChar ++ ['"'])

end DocFilter.Text
