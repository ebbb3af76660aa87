import DocFilter.Yaml.Basic

/-!
# Scalars of a YAML text

A scalar can go on over several lines, and what stands between its words
is then **folded**: one line end is a space, more are one line end fewer,
and the blanks around them do not count. Plain and quoted scalars fold
alike, which is what `Folding` keeps track of. They differ in where they
end. A plain one ends before a comment, a colon, a bracket of the flow
part it is in, or a line that is not indented deep enough; a quoted one
ends at its quote. Block scalars, which start with `|` or `>`, keep their
lines or fold them by a rule of their own.
-/

namespace DocFilter.Yaml

/-! ## Folding -/

/-- **A scalar that is being read.** -/
structure Folding where
  /-- The characters so far, the latest first. -/
  read : List Char
  /-- The blanks since then, the latest first. -/
  blanks : List Char
  /-- Whether a line has ended since then. -/
  folded : Bool
  /-- The first line end since then, unless it was escaped. -/
  firstBreak : List Char
  /-- The further line ends since then, the latest first. -/
  moreBreaks : List Char

namespace Folding

/-- A scalar of which some characters are known, the latest first. -/
def ofRead (read : List Char) : Folding := ⟨read, [], false, [], []⟩

/-- The characters with what stands for the gap after them. -/
def joined (f : Folding) : List Char :=
  if f.folded then
    if f.firstBreak = ['\n'] then
      if f.moreBreaks.isEmpty then ' ' :: f.read else f.moreBreaks ++ f.read
    else f.moreBreaks ++ f.firstBreak ++ f.read
  else f.blanks ++ f.read

/-- Whether there is a gap after the characters so far. -/
def inGap (f : Folding) : Bool :=
  f.folded || !f.blanks.isEmpty

/-- Add a character. -/
def push (f : Folding) (c : Char) : Folding :=
  ofRead (c :: f.joined)

/-- Add a blank. After a line end it does not count. -/
def pushBlank (f : Folding) (c : Char) : Folding :=
  if f.folded then f else { f with blanks := c :: f.blanks }

/-- Add a line end. -/
def pushBreak (f : Folding) (c : Char) : Folding :=
  if f.folded then { f with moreBreaks := c :: f.moreBreaks }
  else { f with folded := true, blanks := [], firstBreak := [c] }

/-- Add a line end that is escaped: it folds lines and stands for
nothing. -/
def pushEscapedBreak (f : Folding) : Folding :=
  ⟨f.joined, [], true, [], []⟩

end Folding

/-! ## Plain scalars -/

/-- Whether a character that is no blank ends a plain scalar: a colon with
a gap after it or, in the flow part, a comma or bracket. -/
def endsPlain (e : Edition) (flow : Bool) (c : Char) (rest : List Char) : Bool :=
  (c == ':' && (e.atGap rest || (e == .second && flow && rest.head?.any isFlowMark)))
    || (flow && isFlowMark c)

/-- Whether a colon stands where the first edition refuses it: in the flow
part, right before a mark of it. -/
def isStrayColon (e : Edition) (flow : Bool) (c : Char) (rest : List Char) : Bool :=
  e == .first && flow && c == ':' && rest.head?.any fun d => isFlowMark d || d == '?'

/-- Whether a plain scalar stops after a gap: before a comment, a mark of
the document or, in the block part, in a column before `least`. -/
def stopsPlain (e : Edition) (flow : Bool) (least : Nat) (p : Place) (cs : List Char) : Bool :=
  (!flow && p.column < least) || (p.column == 0 && e.atDocumentMark cs) || cs.head? == some '#'

/-- Whether a tab in front of a line is refused: in the first edition
always, in the second if there is anything on the line. -/
def refusesTab (e : Edition) (rest : List Char) : Bool :=
  e == .first || !e.atLineEnd (e.skipComment rest)

/-- **A plain scalar** from its second character on, with the place and the
text after it and after the gap that follows it. -/
def scanPlain (e : Edition) (flow : Bool) (least : Nat) (f : Folding) (p : Place) :
    List Char → Option (Folding × Place × List Char)
  | [] => some (f, p, [])
  | c :: rest =>
    if e.isBreak c then scanPlain e flow least (f.pushBreak c) (p.step e c) rest
    else if isBlank c then
      if f.folded && c == '\t' && p.column < least && refusesTab e rest then none
      else scanPlain e flow least (f.pushBlank c) (p.step e c) rest
    else if f.inGap && stopsPlain e flow least p (c :: rest) then some (f, p, c :: rest)
    else if isStrayColon e flow c rest then none
    else if endsPlain e flow c rest then some (f, p, c :: rest)
    else scanPlain e flow least (f.push c) (p.step e c) rest

/-! ## Quoted scalars -/

/-- The character of a one-letter escape. -/
def escapeLetter? : Char → Option Char
  | '0' => some '\x00'
  | 'a' => some '\x07'
  | 'b' => some '\x08'
  | 't' => some '\t'
  | '\t' => some '\t'
  | 'n' => some '\n'
  | 'v' => some '\x0b'
  | 'f' => some '\x0c'
  | 'r' => some '\r'
  | 'e' => some '\x1b'
  | ' ' => some ' '
  | '"' => some '"'
  | '/' => some '/'
  | '\\' => some '\\'
  | 'N' => some '\u0085'
  | '_' => some '\u00a0'
  | 'L' => some '\u2028'
  | 'P' => some '\u2029'
  | _ => none

/-- How many digits an escape by code point has. -/
def codeLength? : Char → Option Nat
  | 'x' => some 2
  | 'u' => some 4
  | 'U' => some 8
  | _ => none

/-- The part of a quoted scalar that is being read. -/
inductive QuoteState where
  /-- Characters. -/
  | text
  /-- A single quote after a single quote. -/
  | quote
  /-- A character after a backslash. -/
  | escape
  /-- A code point of which so many digits are to come. -/
  | code (digits : List Char) (missing : Nat)

/-- Whether a line of a quoted scalar starts where it may not: at a mark of
the document or, in the second edition, in a column before `least`. -/
def refusesLine (e : Edition) (least : Nat) (f : Folding) (p : Place) (cs : List Char) : Bool :=
  (p.column == 0 && e.atDocumentMark cs) || (e == .second && f.folded && p.column < least)

/-- **A quoted scalar** after its opening quote, with the place and the text
after its closing one. -/
def scanQuoted (e : Edition) (least : Nat) (quote : Char) (f : Folding) (p : Place) :
    QuoteState → List Char → Option (List Char × Place × List Char)
  | _, [] => none
  | .text, c :: rest =>
    let next := p.step e c
    if e.isBreak c then scanQuoted e least quote (f.pushBreak c) next .text rest
    else if isBlank c then scanQuoted e least quote (f.pushBlank c) next .text rest
    else if refusesLine e least f p (c :: rest) then none
    else if c = quote then
      if quote = '\'' ∧ rest.head? = some '\'' then scanQuoted e least quote f next .quote rest
      else some (f.joined.reverse, next, rest)
    else if c = '\\' ∧ quote = '"' then scanQuoted e least quote f next .escape rest
    else scanQuoted e least quote (f.push c) next .text rest
  | .quote, c :: rest => scanQuoted e least quote (f.push c) (p.step e c) .text rest
  | .escape, c :: rest =>
    let next := p.step e c
    if e.isBreak c then scanQuoted e least quote f.pushEscapedBreak next .text rest
    else
      match escapeLetter? c, codeLength? c with
      | some d, _ => scanQuoted e least quote (f.push d) next .text rest
      | none, some n => scanQuoted e least quote f next (.code [] n) rest
      | none, none => none
  | .code digits missing, c :: rest =>
    let next := p.step e c
    if missing ≤ 1 then
      match Text.codePoint? (digits ++ [c]) with
      | some d => scanQuoted e least quote (f.push d) next .text rest
      | none => none
    else scanQuoted e least quote f next (.code (digits ++ [c]) (missing - 1)) rest

/-! ## Block scalars -/

/-- What happens to the line ends at the end of a block scalar. -/
inductive Chomping where
  /-- None is kept. -/
  | strip
  /-- One is kept. -/
  | clip
  /-- All are kept. -/
  | keep
  deriving DecidableEq

/-- The chomping that a sign stands for. -/
def Chomping.ofSign? : Char → Option Chomping
  | '-' => some .strip
  | '+' => some .keep
  | _ => none

/-- The depth that a digit of a block scalar's first line gives. -/
def depthDigit? (c : Char) : Option Nat :=
  if '1' ≤ c ∧ c ≤ '9' then some (c.toNat - '0'.toNat) else none

/-- What the first line of a block scalar says after its mark: chomping and
depth, in either order, the depth being zero when it is left open. -/
def blockHeader (cs : List Char) : Chomping × Nat × List Char :=
  match cs with
  | [] => (.clip, 0, [])
  | c :: rest =>
    match Chomping.ofSign? c, depthDigit? c with
    | some chomping, _ =>
      match rest with
      | d :: more =>
        match depthDigit? d with
        | some depth => (chomping, depth, more)
        | none => (chomping, 0, rest)
      | [] => (chomping, 0, [])
    | none, some depth =>
      match rest with
      | d :: more =>
        match Chomping.ofSign? d with
        | some chomping => (chomping, depth, more)
        | none => (.clip, depth, rest)
      | [] => (.clip, depth, [])
    | none, none => (.clip, 0, c :: rest)

/-- The indentation and the empty lines before a line of a block scalar:
the line ends, the latest first, the deepest column met, and the place and
text after them. A depth of zero is not known yet. No tab may stand in the
indentation. -/
def scanIndentation (e : Edition) (depth deepest : Nat) (breaks : List Char) (p : Place) :
    List Char → Option (List Char × Nat × Place × List Char)
  | [] => some (breaks, max deepest p.column, p, [])
  | c :: rest =>
    let within := depth == 0 || p.column < depth
    if c = ' ' ∧ within then scanIndentation e depth deepest breaks (p.step e c) rest
    else if c = '\t' ∧ within then none
    else if e.isBreak c then
      scanIndentation e depth (max deepest p.column) (c :: breaks) (p.step e c) rest
    else some (breaks, max deepest p.column, p, c :: rest)

/-- The lines of a block scalar in the column `depth`. `read` are its
characters so far and `breaks` the further line ends since then, the latest
first; `lineBreak` is the end of the last line, which `indented` says to
have started with a blank. -/
def scanLines (e : Edition) (literal : Bool) (depth : Nat) :
    Nat → List Char → List Char → List Char → Bool → Place → List Char →
      Option (List Char × List Char × List Char × Place × List Char)
  | 0, _, _, _, _, _, _ => none
  | fuel + 1, read, lineBreak, breaks, indented, p, cs =>
    match cs with
    | [] => some (read, lineBreak, breaks, p, [])
    | c :: _ =>
      if p.column ≠ depth then some (read, lineBreak, breaks, p, cs)
      else
        let folds := !literal && lineBreak == ['\n'] && !indented && !isBlank c
        let read := if folds then (if breaks.isEmpty then ' ' :: read else read)
          else lineBreak ++ read
        let line := cs.takeWhile fun d => !e.isBreak d
        let read := line.reverse ++ breaks ++ read
        let rest := cs.drop line.length
        let p := p.steps e line
        let ended := rest.take 1
        match scanIndentation e depth 0 [] (p.steps e ended) (rest.drop 1) with
        | none => none
        | some (breaks, _, p, rest) =>
          scanLines e literal depth fuel read ended breaks (isBlank c) p rest

/-- **A block scalar** after its mark, in a block of which `least` is the
first column inside, with the place and the text after it. -/
def scanBlock (e : Edition) (literal : Bool) (least : Nat) (p : Place) (cs : List Char) :
    Option (List Char × Place × List Char) :=
  let (chomping, increment, afterHeader) := blockHeader cs
  let rest := e.skipComment afterHeader
  if !e.atLineEnd rest then none
  else
    let p := p.steps e (cs.take (cs.length - rest.length + 1))
    let known := if increment = 0 then 0 else (least - 1) + increment
    match scanIndentation e known 0 [] p (rest.drop 1) with
    | none => none
    | some (breaks, deepest, p, rest) =>
      let depth := if known = 0 then max deepest (max least 1) else known
      match scanLines e literal depth (rest.length + 1) [] [] breaks false p rest with
      | none => none
      | some (read, lineBreak, breaks, p, rest) =>
        let read := if chomping = .strip then read else lineBreak ++ read
        let read := if chomping = .keep then breaks ++ read else read
        some (read.reverse, p, rest)

end DocFilter.Yaml
