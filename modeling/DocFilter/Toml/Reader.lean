import DocFilter.Toml.Scalar
import DocFilter.Toml.Table

/-!
# Reading TOML

A TOML text is a sequence of lines that each give a **path** of keys a
value, or name the table that the following lines are in, its **header**.
Values are scalars, lists, and tables in braces; lists and braces may
spread over lines and end with a comma.
-/

namespace DocFilter.Toml

open Text (isSpace isKeyChar)

/-- Spaces, line ends and comments. -/
def skipBlank : Nat → List Char → List Char
  | 0, cs => cs
  | fuel + 1, cs =>
    match cs with
    | [] => []
    | c :: rest =>
      if isSpace c || c == '\n' then skipBlank fuel rest
      else if c == '#' then skipBlank fuel (rest.dropWhile isText)
      else c :: rest

/-! ## Keys -/

/-- One key. -/
def scanKey (cs : List Char) : Option (String × List Char) :=
  match cs with
  | '"' :: rest => (scanShort '"' (rest.length + 1) [] rest).map fun r => (String.ofList r.1, r.2)
  | '\'' :: rest => (scanShort '\'' (rest.length + 1) [] rest).map fun r => (String.ofList r.1, r.2)
  | _ =>
    let key := cs.takeWhile isKeyChar
    if key.isEmpty then none else some (String.ofList key, cs.dropWhile isKeyChar)

/-- Keys with points between them. -/
def scanPath : Nat → List Char → Option (List String × List Char)
  | 0, _ => none
  | fuel + 1, cs =>
    match scanKey (cs.dropWhile isSpace) with
    | none => none
    | some (key, rest) =>
      match rest.dropWhile isSpace with
      | '.' :: rest' => (scanPath fuel rest').map fun r => (key :: r.1, r.2)
      | rest' => some ([key], rest')

/-! ## Values -/

mutual

/-- A value at the head of the text. -/
def scanValue : Nat → List Char → Option (Value × List Char)
  | 0, _ => none
  | fuel + 1, cs =>
    match cs with
    | '"' :: _ => (scanString cs).map fun r => (.text r.1, r.2)
    | '\'' :: _ => (scanString cs).map fun r => (.text r.1, r.2)
    | '[' :: rest => (scanItems fuel rest).map fun r => (.list r.1, r.2)
    | '\x7b' :: rest =>
      (scanEntries fuel [] rest).map fun r => (.document (Item.entryValues r.1), r.2)
    | _ =>
      let (word, rest) := scanWord cs
      (wordValue? word).map fun v => (v, rest)

/-- The items of a list up to its end; lines may end between them. -/
def scanItems : Nat → List Char → Option (List Value × List Char)
  | 0, _ => none
  | fuel + 1, cs =>
    match skipBlank cs.length cs with
    | ']' :: rest => some ([], rest)
    | cs =>
      match scanValue fuel cs with
      | none => none
      | some (v, rest) =>
        match skipBlank rest.length rest with
        | ',' :: rest' => (scanItems fuel rest').map fun r => (v :: r.1, r.2)
        | ']' :: rest' => some ([v], rest')
        | _ => none

/-- The entries of a table in braces up to its end. -/
def scanEntries : Nat → Table → List Char → Option (Table × List Char)
  | 0, _, _ => none
  | fuel + 1, table, cs =>
    match skipBlank cs.length cs with
    | '\x7d' :: rest => some (table, rest)
    | cs =>
      match scanPath cs.length cs with
      | some (path, '=' :: rest) =>
        match scanValue fuel (rest.dropWhile isSpace) with
        | none => none
        | some (v, rest) =>
          match table.assign v path, skipBlank rest.length rest with
          | some table, ',' :: rest' => scanEntries fuel table rest'
          | some table, '\x7d' :: rest' => some (table, rest')
          | _, _ => none
      | _ => none

end

/-! ## The whole text -/

/-- What is left of a line must be blank or a comment; the text after it. -/
def endLine (cs : List Char) : Option (List Char) :=
  let rest := match cs.dropWhile isSpace with
    | '#' :: rest => rest.dropWhile isText
    | rest => rest
  match rest with
  | [] => some []
  | '\n' :: rest => some rest
  | _ => none

/-- The path of a header and whether it is one of a row, after its bracket. -/
def scanHeader (cs : List Char) : Option (Bool × List String × List Char) :=
  match cs with
  | '[' :: rest =>
    match scanPath rest.length rest with
    | some (path, ']' :: ']' :: rest) => some (true, path, rest)
    | _ => none
  | cs =>
    match scanPath cs.length cs with
    | some (path, ']' :: rest) => some (false, path, rest)
    | _ => none

/-- Read lines into the root table; `header` is the path of the table that
they are in. -/
def readLines : Nat → Table → List String → List Char → Option Table
  | 0, _, _, _ => none
  | fuel + 1, root, header, cs =>
    match skipBlank cs.length cs with
    | [] => some root
    | '[' :: rest => do
      let (isRow, path, rest) ← scanHeader rest
      let root ← root.enter isRow path
      let rest ← endLine rest
      readLines fuel root path rest
    | cs =>
      match scanPath cs.length cs with
      | some (path, '=' :: rest) => do
        let (v, rest) ← scanValue (2 * rest.length + 2) (rest.dropWhile isSpace)
        let root ← root.assignUnder header path v
        let rest ← endLine rest
        readLines fuel root header rest
      | _ => none

/-- **The table that a text writes.** A mark of the byte order at its start
does not count. -/
def read (s : String) : Option Document :=
  let cs := normalizeBreaks s.toList
  let cs := if cs.head? = some '\ufeff' then cs.drop 1 else cs
  (readLines (cs.length + 1) [] [] cs).map Item.entryValues

end DocFilter.Toml
