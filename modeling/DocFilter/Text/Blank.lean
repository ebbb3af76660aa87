import DocFilter.Text.Ranges

/-!
# Blank characters and trimming

A character is **blank** when it has the Unicode property `White_Space`.
Trimming takes blanks off the ends of a text and leaves those inside.
-/

namespace DocFilter.Text

/-- The code points with the property `White_Space`. -/
def blankRanges : List (Nat × Nat) :=
  [(0x9, 0xd), (0x20, 0x20), (0x85, 0x85), (0xa0, 0xa0), (0x1680, 0x1680),
    (0x2000, 0x200a), (0x2028, 0x2029), (0x202f, 0x202f), (0x205f, 0x205f),
    (0x3000, 0x3000)]

/-- **A blank of any script.** -/
def isBlank (c : Char) : Bool :=
  inRanges blankRanges c

/-- The characters from the first one that is not blank. -/
def trimStart (cs : List Char) : List Char :=
  cs.dropWhile isBlank

/-- The characters up to the last one that is not blank. -/
def trimEnd (cs : List Char) : List Char :=
  (cs.reverse.dropWhile isBlank).reverse

/-- **The text without the blanks at its two ends.** -/
def trim (s : String) : String :=
  String.ofList (trimEnd (trimStart s.toList))

/-- Whether nothing but blanks stands in the text. -/
def isAllBlank (s : String) : Bool :=
  s.toList.all isBlank

end DocFilter.Text
