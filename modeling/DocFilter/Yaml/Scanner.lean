import DocFilter.Yaml.Scalar
import DocFilter.Yaml.Token

/-!
# Cutting a YAML text into tokens

The scanner goes through the text once. It keeps the columns of the block
lists and maps that are open, innermost first, and adds their starts and
ends to the tokens.

Whether something is a key shows only when its colon comes. The scanner
therefore remembers, for each open bracket and for the block part around
them, the last **spot** where a key may have started, and puts the key's
token there when it meets the colon. A spot is given up on the next line,
and after 1024 characters.

Covered are block and flow lists and maps, scalars of all styles, comments
and the marks of documents. Anchors, tags and directives are not.
-/

namespace DocFilter.Yaml

/-- **A spot where a key may have started.** -/
structure Spot where
  /-- Whether nothing but a key can stand here. -/
  required : Bool
  /-- How many tokens come before. -/
  tokens : Nat
  /-- The place. -/
  place : Place

/-- **The state of scanning.** -/
structure Scanner where
  /-- Where the scanner is. -/
  place : Place
  /-- The columns of the open block lists and maps, innermost first. -/
  indents : List Nat
  /-- Whether a key may start here. -/
  keyAllowed : Bool
  /-- The spot of the innermost open bracket, or of the block part. -/
  spot : Option Spot
  /-- The spots of what is around it, innermost first: one for each open
  bracket. -/
  outer : List (Option Spot)
  /-- The tokens so far, the latest first. -/
  tokens : List Token

namespace Scanner

/-- The state before the first character. -/
def initial : Scanner := ⟨Place.start, [], true, none, [], []⟩

/-- Whether the scanner is in the flow part. -/
def inFlow (s : Scanner) : Bool :=
  !s.outer.isEmpty

/-- The first column inside the innermost open block. -/
def least (s : Scanner) : Nat :=
  match s.indents with
  | [] => 0
  | column :: _ => column + 1

/-- Go past some characters. -/
def past (e : Edition) (s : Scanner) (cs : List Char) : Scanner :=
  { s with place := s.place.steps e cs }

/-- Add a token. -/
def emit (s : Scanner) (t : Token) : Scanner :=
  { s with tokens := t :: s.tokens }

/-- Add a token after the first `n` ones. -/
def emitAt (s : Scanner) (n : Nat) (t : Token) : Scanner :=
  let later := s.tokens.length - n
  { s with tokens := s.tokens.take later ++ t :: s.tokens.drop later }

/-! ## Blocks -/

/-- Open a block in a column deeper than that of the innermost one. In the
flow part there are no blocks. -/
def roll (s : Scanner) (column : Nat) (opening : Scanner → Scanner) : Scanner :=
  if s.inFlow ∨ column < s.least then s
  else { opening s with indents := column :: s.indents }

/-- Close the blocks that are deeper than a column. -/
def unroll (s : Scanner) (column : Nat) : Scanner :=
  if s.inFlow then s
  else
    let closed := s.indents.takeWhile (column < ·)
    { s with
      indents := s.indents.drop closed.length
      tokens := closed.map (fun _ => Token.blockEnd) ++ s.tokens }

/-- Close all blocks. -/
def unrollAll (s : Scanner) : Scanner :=
  if s.inFlow then s
  else { s with indents := [], tokens := s.indents.map (fun _ => Token.blockEnd) ++ s.tokens }

/-! ## Keys -/

/-- Give up the current spot, which must not be one that needs a key. -/
def dropSpot (s : Scanner) : Option Scanner :=
  if s.spot.any Spot.required then none else some { s with spot := none }

/-- Remember this place as one where a key may start, if it is. In the
block part, what stands in the column of the block must be a key. -/
def saveSpot (s : Scanner) : Option Scanner :=
  if s.keyAllowed then
    let required := !s.inFlow && s.indents.head? == some s.place.column
    s.dropSpot.map fun s => { s with spot := some ⟨required, s.tokens.length, s.place⟩ }
  else some s

/-- Whether a spot is too far back for a key. -/
def isStale (s : Scanner) (spot : Spot) : Bool :=
  spot.place.line < s.place.line || spot.place.index + 1024 < s.place.index

/-- Give up the spots that are too far back. In the second edition a key of
the flow part can go on over lines. -/
def dropStale (e : Edition) (s : Scanner) : Option Scanner :=
  if e = .second ∧ s.inFlow then some s
  else
    let spots := s.spot :: s.outer
    if spots.any fun o => o.any fun k => k.required && s.isStale k then none
    else
      let fresh : Option Spot → Option Spot := Option.filter fun k => !s.isStale k
      some { s with spot := fresh s.spot, outer := s.outer.map fresh }

/-! ## Gaps -/

/-- Whether a tab may stand here between tokens. In the first edition it
may where no key can start; in the second it may not indent what is in a
block. -/
def admitsTab (e : Edition) (s : Scanner) (rest : List Char) : Bool :=
  match e with
  | .first => s.inFlow || !s.keyAllowed
  | .second => !(s.place.fresh && s.place.column < s.least) || !refusesTab e rest

/-- Skip blanks, line ends and comments; `comment` says whether a comment
is being skipped. In the block part a key may start on a new line. -/
def skipGap (e : Edition) (comment : Bool) (s : Scanner) :
    List Char → Option (Scanner × List Char)
  | [] => some (s, [])
  | c :: rest =>
    let next := s.past e [c]
    if e.isBreak c then
      skipGap e false { next with keyAllowed := s.keyAllowed || !s.inFlow } rest
    else if comment || c == ' ' then skipGap e comment next rest
    else if c = '\t' then if s.admitsTab e rest then skipGap e false next rest else none
    else if c = '#' then
      if e = .first ∨ s.place.spaced then skipGap e true next rest else none
    else if e = .first ∧ c = '\ufeff' ∧ s.place.index = 0 then skipGap e false next rest
    else some (s, c :: rest)

/-! ## Marks -/

/-- The dash of a block list. -/
def takeDash (s : Scanner) : Option Scanner :=
  if s.inFlow || s.keyAllowed then
    (s.roll s.place.column fun s => s.emit .blockList).dropSpot.map fun s =>
      { s.emit .dash with keyAllowed := true }
  else none

/-- The mark of a key that is marked as one. -/
def takeKey (s : Scanner) : Option Scanner :=
  if s.inFlow || s.keyAllowed then
    (s.roll s.place.column fun s => s.emit .blockMap).dropSpot.map fun s =>
      { s.emit .key with keyAllowed := !s.inFlow }
  else none

/-- The colon before a value. What came before it on its line is its key;
with nothing there, it goes with a key that was marked. -/
def takeValue (s : Scanner) : Option Scanner :=
  match s.spot with
  | some spot =>
    let keyed := s.emitAt spot.tokens .key
    let rolled := keyed.roll spot.place.column fun s => s.emitAt spot.tokens .blockMap
    some { rolled.emit .value with spot := none, keyAllowed := false }
  | none =>
    if s.inFlow || s.keyAllowed then
      let rolled := s.roll s.place.column fun s => s.emit .blockMap
      some { rolled.emit .value with keyAllowed := !s.inFlow }
    else none

/-- An opening bracket, which can also start a key. -/
def takeOpen (s : Scanner) (t : Token) : Option Scanner :=
  s.saveSpot.map fun s =>
    { s.emit t with spot := none, outer := s.spot :: s.outer, keyAllowed := true }

/-- A closing bracket. -/
def takeClose (s : Scanner) (t : Token) : Option Scanner :=
  s.dropSpot.map fun s =>
    { s.emit t with
      spot := s.outer.head?.getD none
      outer := s.outer.drop 1
      keyAllowed := false }

/-- A comma. -/
def takeComma (s : Scanner) : Option Scanner :=
  s.dropSpot.map fun s => { s.emit .comma with keyAllowed := true }

/-- A mark of a document. -/
def takeDocumentMark (s : Scanner) (t : Token) : Option Scanner :=
  s.unrollAll.dropSpot.map fun s => { s.emit t with keyAllowed := false }

/-- Whether a colon is the mark of a value. In the flow part of the second
edition it needs a gap or a mark after it, or a quoted key before it. -/
def isValueMark (e : Edition) (s : Scanner) (rest : List Char) : Bool :=
  e.atGap rest || (s.inFlow && (e == .first || rest.head?.any isFlowMark
    || s.tokens.head?.any Token.allowsAdjacentValue))

/-- Whether tabs alone part a colon from a word after it, which the second
edition refuses. -/
def refusesValue (e : Edition) (rest : List Char) : Bool :=
  let after := rest.dropWhile (· == '\t')
  e == .second && rest.head? == some '\t'
    && after.head?.any fun c => c.isAlphanum || c == '_' || c == '-'

/-- Whether a plain scalar can start with a character. -/
def startsPlain (e : Edition) (s : Scanner) (c : Char) (rest : List Char) : Bool :=
  match e with
  | .first =>
    if c == '-' then !(rest.head?.any isBlank)
    else if c == '?' || c == ':' then !s.inFlow && !e.atGap rest
    else !(isBlank c || e.isBreak c || isFlowMark c || "#&*!|>'\"%@".toList.contains c
      || c == Char.ofNat 0x60)
  | .second =>
    if c == '-' then !(s.inFlow && rest.head?.any isFlowMark)
    else !("&*!%@".toList.contains c || c == Char.ofNat 0x60)

/-! ## The whole text -/

/-- A scalar of any style at the head of the text. -/
def takeScalar (e : Edition) (s : Scanner) (c : Char) (rest : List Char) :
    Option (Scanner × List Char) :=
  let after := s.place.step e c
  if (c = '|' ∨ c = '>') ∧ !s.inFlow then do
    let s' ← s.dropSpot
    let (text, place, rest) ← scanBlock e (c == '|') s.least after rest
    some ({ s'.emit (.quoted (String.ofList text)) with place, keyAllowed := true }, rest)
  else if c = '\'' ∨ c = '"' then do
    let s' ← s.saveSpot
    let (text, place, rest) ← scanQuoted e s.least c (Folding.ofRead []) after .text rest
    some ({ s'.emit (.quoted (String.ofList text)) with place, keyAllowed := false }, rest)
  else if s.startsPlain e c rest then do
    let s' ← s.saveSpot
    let (f, place, rest) ← scanPlain e s.inFlow s.least (Folding.ofRead [c]) after rest
    let s' := s'.emit (.plain (String.ofList f.read.reverse))
    some ({ s' with place, keyAllowed := f.folded }, rest)
  else none

/-- **Take the token at the head of the text.** -/
def take (e : Edition) (s : Scanner) (c : Char) (rest : List Char) :
    Option (Scanner × List Char) :=
  let one (s : Option Scanner) : Option (Scanner × List Char) :=
    s.map fun s => (s.past e [c], rest)
  if s.place.column = 0 ∧ e.atDocumentMark (c :: rest) then do
    let after := rest.drop 2
    let s ← s.takeDocumentMark (if c = '-' then .documentStart else .documentEnd)
    if e = .second ∧ c = '.' ∧ !e.atLineEnd (e.skipComment after) then none
    else some (s.past e ((c :: rest).take 3), after)
  else if e = .second ∧ s.inFlow ∧ s.place.column < s.least then none
  else
    match c with
    | '%' => if s.place.column = 0 then none else s.takeScalar e c rest
    | '[' => one (s.takeOpen .openList)
    | '\x7b' => one (s.takeOpen .openMap)
    | ']' => one (s.takeClose .closeList)
    | '\x7d' => one (s.takeClose .closeMap)
    | ',' => one s.takeComma
    | '-' => if e.atGap rest then one s.takeDash else s.takeScalar e c rest
    | '?' =>
      if e.atGap rest || (e == .first && s.inFlow) then one s.takeKey
      else s.takeScalar e c rest
    | ':' =>
      if s.isValueMark e rest then if refusesValue e rest then none else one s.takeValue
      else s.takeScalar e c rest
    | c => s.takeScalar e c rest

/-- The end of the text. -/
def finish (s : Scanner) : Option (List Token) :=
  s.unrollAll.dropSpot.map fun s => s.tokens.reverse

/-- Take tokens up to the end of the text; each takes a character at
least. -/
def run (e : Edition) : Nat → Scanner → List Char → Option (List Token)
  | 0, _, _ => none
  | fuel + 1, s, cs => do
    let (s, cs) ← s.skipGap e false cs
    let s ← s.dropStale e
    let s := s.unroll s.place.column
    match cs with
    | [] => s.finish
    | c :: rest =>
      let (s, rest) ← s.take e c rest
      run e fuel s rest

end Scanner

/-- **The tokens of a text.** -/
def tokenize (e : Edition) (s : String) : Option (List Token) :=
  let cs := s.toList
  if cs.all e.admits then
    Scanner.run e (cs.length + 1) Scanner.initial (e.normalizeBreaks cs)
  else none

end DocFilter.Yaml
