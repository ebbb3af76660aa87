import DocFilter.Error
import DocFilter.Text.Basic
import DocFilter.Token.Basic

/-!
# Reading literals from tokens

The spelling of a number decides its type: with a point or an exponent it
is a double, otherwise a 64-bit integer. Either way a number that does
not fit is refused, never rounded to something else. After `type`, a
word, a quoted text or `null` is read as the name of a type.
-/

namespace DocFilter

open Decimal (Double Numeral)

/-- Whether an integer fits 64 bits. -/
def fitsInt64 (n : Int) : Bool :=
  -0x8000000000000000 ≤ n && n < 0x8000000000000000

/-- Whether a number is spelled as a double: with a point or an exponent. -/
def isDoubleSpelling (cs : List Char) : Bool :=
  cs.any fun c => c == '.' || c == 'e' || c == 'E'

/-- **The literal that a number spells.** -/
def Literal.ofNumber (spelling : String) (position : Nat) : Except CoercionError Literal :=
  if isDoubleSpelling spelling.toList then
    match Double.ofText? spelling.toList with
    | some d => if d.isFinite then .ok (.float d) else .error (.nonFiniteNumber position spelling)
    | none => .error (.nonFiniteNumber position spelling)
  else
    match Numeral.ofChars? spelling.toList with
    | some n =>
      if fitsInt64 n.integerValue then .ok (.int n.integerValue)
      else .error (.integerOutOfRange position spelling)
    | none => .error (.integerOutOfRange position spelling)

/-- **The literal of a raw literal** at a place. -/
def Literal.ofRaw (raw : RawLiteral) (position : Nat) : Except CoercionError Literal :=
  match raw with
  | .number spelling => Literal.ofNumber spelling position
  | .text content => .ok (.text content)
  | .bool b => .ok (.bool b)
  | .null => .ok .null

/-- The name that a token gives for a type. -/
def Token.typeSpelling : Token → String
  | .word name => name
  | .literal (.text content) => content
  | .literal .null => "null"
  | t => t.display

/-- **The type name of a token** at a place. -/
def Literal.ofTypeToken (t : Token) (position : Nat) : Except CoercionError Literal :=
  match TypeName.ofName? t.typeSpelling with
  | some type => .ok (.typeName type)
  | none => .error (.invalidTypeName position t.typeSpelling)

end DocFilter
