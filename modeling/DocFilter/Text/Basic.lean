/-!
# Characters, offsets and segments

Text is read as a list of characters. Two things about a list of
characters are counted differently by different readers, and both are
fixed here: an **offset** is a number of bytes of the UTF-8 encoding, and
a **segment** is what stands between two separators, so that a text with
`n` separators has `n + 1` segments, empty ones included.
-/

namespace DocFilter.Text

/-- How many bytes the characters take in UTF-8. -/
def byteLength (cs : List Char) : Nat :=
  cs.foldr (fun c n => c.utf8Size + n) 0

theorem byteLength_cons (c : Char) (cs : List Char) :
    byteLength (c :: cs) = c.utf8Size + byteLength cs := rfl

/-- Offsets add up along a text. -/
@[simp] theorem byteLength_append (cs ds : List Char) :
    byteLength (cs ++ ds) = byteLength cs + byteLength ds := by
  induction cs with
  | nil => exact (Nat.zero_add _).symm
  | cons c cs ih => rw [List.cons_append, byteLength_cons, byteLength_cons, ih, Nat.add_assoc]

/-- **The segments between separators**, in order. There is always one
more segment than there are separators. -/
def segments (separator : Char) : List Char → List (List Char)
  | [] => [[]]
  | c :: cs =>
    if c = separator then [] :: segments separator cs
    else match segments separator cs with
      | [] => [[c]]
      | s :: rest => (c :: s) :: rest

/-- A space or a tab. -/
def isSpace (c : Char) : Bool :=
  c == ' ' || c == '\t'

/-- A character of a bare key: an ASCII letter or digit, `_` or `-`. -/
def isKeyChar (c : Char) : Bool :=
  c.isAlphanum || c == '_' || c == '-'

/-- The text with every ASCII letter in lower case. -/
def lowerCase (s : String) : String :=
  String.ofList (s.toList.map Char.toLower)

/-- Whether two words are equal up to the case of ASCII letters. -/
def sameWord (s t : String) : Bool :=
  lowerCase s == lowerCase t

/-- Whether `part` occurs somewhere in the text as a block. -/
def occurs (part : List Char) : List Char → Bool
  | [] => part.isEmpty
  | c :: cs => part.isPrefixOf (c :: cs) || occurs part cs

/-- Lower-case hexadecimal digits, without padding. -/
def hexDigits (n : Nat) : List Char :=
  Nat.toDigits 16 n

/-- The value of a hexadecimal digit of either case. -/
def hexValue? (c : Char) : Option Nat :=
  if '0' ≤ c ∧ c ≤ '9' then some (c.toNat - '0'.toNat)
  else if 'a' ≤ c ∧ c ≤ 'f' then some (c.toNat - 'a'.toNat + 10)
  else if 'A' ≤ c ∧ c ≤ 'F' then some (c.toNat - 'A'.toNat + 10)
  else none

/-- The number that digits spell in a base of at most sixteen; there must
be a digit, and nothing but digits of the base. -/
def baseValue? (base : Nat) (cs : List Char) : Option Nat :=
  if cs.isEmpty then none
  else cs.foldl (fun n c => n.bind fun n => (hexValue? c).bind fun d =>
    if d < base then some (base * n + d) else none) (some 0)

/-- The character whose code point hexadecimal digits spell. -/
def codePoint? (digits : List Char) : Option Char :=
  (baseValue? 16 digits).bind fun n => if n.isValidChar then some (Char.ofNat n) else none

end DocFilter.Text
