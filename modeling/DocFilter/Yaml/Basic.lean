import DocFilter.Text.Basic

/-!
# Characters and places of a YAML text

YAML comes in two **editions**, 1.1 and 1.2, and the files read here are
of both kinds: queries are read by the first, settings by the second. The
editions differ in small things, and each of these is a function of the
edition, so that the scanner can be read without them.

Columns are what nests blocks in this format. A **place** therefore keeps
the column beside the line, together with what the scanner has to know
about the characters just before it.
-/

namespace DocFilter.Yaml

/-- **An edition of the format.** -/
inductive Edition where
  /-- Edition 1.1. -/
  | first
  /-- Edition 1.2. -/
  | second
  deriving DecidableEq

/-- A space or a tab. -/
def isBlank (c : Char) : Bool :=
  c == ' ' || c == '\t'

/-- A bracket or comma of the flow part. -/
def isFlowMark (c : Char) : Bool :=
  c == ',' || c == '[' || c == ']' || c == '\x7b' || c == '\x7d'

namespace Edition

/-- Whether a character ends a line, once the ends of all kinds that mean
the same are written as line feeds. The first edition also ends lines at
the line and paragraph separators. -/
def isBreak (e : Edition) (c : Char) : Bool :=
  c == '\n' || (e == .first && (c == '\u2028' || c == '\u2029'))

/-- Whether the text is at a blank, at the end of a line or at its own
end. -/
def atGap (e : Edition) : List Char → Bool
  | [] => true
  | c :: _ => isBlank c || e.isBreak c

/-- Whether a line or the text ends here. -/
def atLineEnd (e : Edition) : List Char → Bool
  | [] => true
  | c :: _ => e.isBreak c

/-- The text without blanks and a comment at its head. -/
def skipComment (e : Edition) (cs : List Char) : List Char :=
  match cs.dropWhile isBlank with
  | '#' :: rest => rest.dropWhile fun c => !e.isBreak c
  | rest => rest

/-- Whether a text may hold a character at all. The first edition takes no
controls. -/
def admits (e : Edition) (c : Char) : Bool :=
  e == .second || c == '\t' || c == '\n' || c == '\r' || (' ' ≤ c && c ≤ '~')
    || c == '\u0085' || ('\u00a0' ≤ c && c ≤ '\ufffd') || 0x10000 ≤ c.toNat

/-- Line ends that mean the same as line feeds. The next-line control is
one only in the first edition. -/
def normalizeBreaks (e : Edition) : List Char → List Char
  | [] => []
  | '\r' :: '\n' :: rest => '\n' :: normalizeBreaks e rest
  | '\r' :: rest => '\n' :: normalizeBreaks e rest
  | c :: rest => (if e = .first ∧ c = '\u0085' then '\n' else c) :: normalizeBreaks e rest

/-- Whether a mark of a document's start or end begins the text. -/
def atDocumentMark (e : Edition) (cs : List Char) : Bool :=
  (['-', '-', '-'].isPrefixOf cs || ['.', '.', '.'].isPrefixOf cs) && e.atGap (cs.drop 3)

end Edition

/-- **A place in a text.** -/
structure Place where
  /-- The line. -/
  line : Nat
  /-- The column. -/
  column : Nat
  /-- How many characters come before. -/
  index : Nat
  /-- Whether only blanks come before on the line. -/
  fresh : Bool
  /-- Whether a blank or the start of a line comes just before. -/
  spaced : Bool

namespace Place

/-- The start of a text. -/
def start : Place := ⟨0, 0, 0, true, true⟩

/-- The place after a character. -/
def step (e : Edition) (p : Place) (c : Char) : Place :=
  if e.isBreak c then ⟨p.line + 1, 0, p.index + 1, true, true⟩
  else ⟨p.line, p.column + 1, p.index + 1, p.fresh && isBlank c, isBlank c⟩

/-- The place after some characters. -/
def steps (e : Edition) (p : Place) (cs : List Char) : Place :=
  cs.foldl (step e) p

end Place

end DocFilter.Yaml
