import DocFilter.Yaml.Scanner

/-!
# Nodes of a YAML text

The tokens of a text form a tree of **nodes**:

```text
block list = blockList ("dash" node?)* blockEnd
block map  = blockMap ("key" node? ("value" node?)?)* blockEnd
flow list  = "[" (item ("," item)* ","?)? "]"
flow map   = "{" (entry ("," entry)* ","?)? "}"
item       = node | "key" node ("value" node?)?
entry      = node | "key" node? ("value" node?)?
```

A node that is left out is an empty scalar. The value of a key in a block
map may be a list whose dashes stand in the column of the key; such a list
has no start and no end of its own. In a flow list an item with a colon is
a map of one entry. A scalar keeps whether it was quoted, for only a plain
one can be anything but a text.
-/

namespace DocFilter.Yaml

/-- **A node.** -/
inductive Node where
  /-- A scalar without quotes; the empty one stands for nothing at all. -/
  | plain (text : String)
  /-- A scalar in quotes. -/
  | quoted (text : String)
  /-- A list. -/
  | list (items : List Node)
  /-- A map: keys and values in order. -/
  | map (entries : List (Node × Node))

/-- What is there when nothing is written. -/
def Node.absent : Node := .plain ""

/-- **Where a node stands**, which decides what it can be. -/
inductive Position where
  /-- In a block list, or at the top. -/
  | block
  /-- A key or value of a block map. -/
  | entry
  /-- In the flow part. -/
  | flow
  deriving DecidableEq

/-- Whether one of some tokens is next. -/
def isNext (ts stops : List Token) : Bool :=
  ts.head?.any stops.contains

mutual

/-- A node in a position. -/
def node : Nat → Position → List Token → Option (Node × List Token)
  | 0, _, _ => none
  | fuel + 1, position, ts =>
    match ts with
    | .plain text :: rest => some (.plain text, rest)
    | .quoted text :: rest => some (.quoted text, rest)
    | .openList :: rest => (flowItems fuel true rest).map fun r => (.list r.1, r.2)
    | .openMap :: rest => (flowEntries fuel true rest).map fun r => (.map r.1, r.2)
    | .dash :: _ =>
      if position = .entry then (looseItems fuel ts).map fun r => (.list r.1, r.2) else none
    | .blockList :: rest =>
      if position = .flow then none
      else (blockItems fuel rest).map fun r => (.list r.1, r.2)
    | .blockMap :: rest =>
      if position = .flow then none
      else (blockEntries fuel rest).map fun r => (.map r.1, r.2)
    | _ => none

/-- A node, unless one of some tokens is next and shows that there is
none. -/
def nodeUnless : Nat → List Token → Position → List Token → Option (Node × List Token)
  | 0, _, _, _ => none
  | fuel + 1, stops, position, ts =>
    if isNext ts stops then some (.absent, ts) else node fuel position ts

/-- The value after a key, if there is one. -/
def valueOf : Nat → List Token → Position → List Token → Option (Node × List Token)
  | 0, _, _, _ => none
  | fuel + 1, stops, position, ts =>
    match ts with
    | .value :: rest => nodeUnless fuel stops position rest
    | ts => some (.absent, ts)

/-- The items of a block list up to its end. -/
def blockItems : Nat → List Token → Option (List Node × List Token)
  | 0, _ => none
  | fuel + 1, ts =>
    match ts with
    | .blockEnd :: rest => some ([], rest)
    | .dash :: rest => do
      let (item, rest) ← nodeUnless fuel [.dash, .blockEnd] .block rest
      let (items, rest) ← blockItems fuel rest
      some (item :: items, rest)
    | _ => none

/-- The items of a list in the column of its key. -/
def looseItems : Nat → List Token → Option (List Node × List Token)
  | 0, _ => none
  | fuel + 1, ts =>
    match ts with
    | .dash :: rest => do
      let (item, rest) ← nodeUnless fuel [.dash, .key, .value, .blockEnd] .block rest
      let (items, rest) ← looseItems fuel rest
      some (item :: items, rest)
    | ts => some ([], ts)

/-- The entries of a block map up to its end. -/
def blockEntries : Nat → List Token → Option (List (Node × Node) × List Token)
  | 0, _ => none
  | fuel + 1, ts =>
    match ts with
    | .blockEnd :: rest => some ([], rest)
    | .key :: rest => do
      let stops := [.key, .value, .blockEnd]
      let (key, rest) ← nodeUnless fuel stops .entry rest
      let (value, rest) ← valueOf fuel stops .entry rest
      let (entries, rest) ← blockEntries fuel rest
      some ((key, value) :: entries, rest)
    | _ => none

/-- The items of a flow list up to its end; all but the first come after a
comma. -/
def flowItems : Nat → Bool → List Token → Option (List Node × List Token)
  | 0, _, _ => none
  | fuel + 1, first, ts =>
    match ts, first with
    | .closeList :: rest, _ => some ([], rest)
    | .comma :: .closeList :: rest, false => some ([], rest)
    | .comma :: rest, false => do
      let (item, rest) ← flowItem fuel rest
      let (items, rest) ← flowItems fuel false rest
      some (item :: items, rest)
    | ts, true => do
      let (item, rest) ← flowItem fuel ts
      let (items, rest) ← flowItems fuel false rest
      some (item :: items, rest)
    | _, false => none

/-- An item of a flow list. -/
def flowItem : Nat → List Token → Option (Node × List Token)
  | 0, _ => none
  | fuel + 1, ts =>
    match ts with
    | .key :: rest => do
      let (key, rest) ← node fuel .flow rest
      let (value, rest) ← valueOf fuel [.comma, .closeList] .flow rest
      some (.map [(key, value)], rest)
    | ts => node fuel .flow ts

/-- The entries of a flow map up to its end. -/
def flowEntries : Nat → Bool → List Token → Option (List (Node × Node) × List Token)
  | 0, _, _ => none
  | fuel + 1, first, ts =>
    match ts, first with
    | .closeMap :: rest, _ => some ([], rest)
    | .comma :: .closeMap :: rest, false => some ([], rest)
    | .comma :: rest, false => do
      let (entry, rest) ← flowEntry fuel rest
      let (entries, rest) ← flowEntries fuel false rest
      some (entry :: entries, rest)
    | ts, true => do
      let (entry, rest) ← flowEntry fuel ts
      let (entries, rest) ← flowEntries fuel false rest
      some (entry :: entries, rest)
    | _, false => none

/-- An entry of a flow map. A node that is no key has no value. -/
def flowEntry : Nat → List Token → Option ((Node × Node) × List Token)
  | 0, _ => none
  | fuel + 1, ts =>
    match ts with
    | .key :: rest => do
      let (key, rest) ← nodeUnless fuel [.value, .comma, .closeMap] .flow rest
      let (value, rest) ← valueOf fuel [.comma, .closeMap] .flow rest
      some ((key, value), rest)
    | ts => (node fuel .flow ts).map fun r => ((r.1, .absent), r.2)

end

/-- The node of the first document of a text, with what follows it. -/
def documentNode (ts : List Token) : Option (Node × List Token) :=
  let fuel := 4 * ts.length + 4
  match ts with
  | .documentStart :: rest =>
    if rest.isEmpty || isNext rest [.documentStart, .documentEnd] then some (.absent, rest)
    else node fuel .block rest
  | ts => node fuel .block ts

/-- **The node that a text writes**; nothing of an empty text. A text
writes one document at most. -/
def read (e : Edition) (s : String) : Option (Option Node) :=
  match tokenize e s with
  | none => none
  | some [] => some none
  | some ts =>
    match documentNode ts with
    | none => none
    | some (node, rest) => if rest.all (· == .documentEnd) then some (some node) else none

mutual

/-- How deep the lists and maps of a node nest. -/
def Node.depth : Node → Nat
  | .plain _ => 0
  | .quoted _ => 0
  | .list items => itemsDepth items + 1
  | .map entries => entriesDepth entries + 1

/-- How deep the items of a list nest. -/
def Node.itemsDepth : List Node → Nat
  | [] => 0
  | item :: rest => max (depth item) (itemsDepth rest)

/-- How deep the entries of a map nest. -/
def Node.entriesDepth : List (Node × Node) → Nat
  | [] => 0
  | (key, value) :: rest => max (max (depth key) (depth value)) (entriesDepth rest)

end

end DocFilter.Yaml
