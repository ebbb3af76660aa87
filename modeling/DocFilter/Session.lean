import DocFilter.Query
import DocFilter.Value.Printer

/-!
# Sessions

A **session** answers queries line by line until a blank line or the end
of the input. A query that fails is answered with its message, and the
session goes on; a line that is not UTF-8 ends it. The outcome is all
that was written, how many queries had a filter, and whether the session
broke off.
-/

namespace DocFilter.Session

/-- **How a session went.** -/
structure Outcome where
  /-- How many queries had a filter. -/
  count : Nat
  /-- Everything that was written. -/
  out : String
  /-- Whether a line could not be read. -/
  broken : Bool
  deriving DecidableEq

/-- What is written before each line is read, if prompting is wanted. -/
def prompt (wanted : Bool) : String :=
  if wanted then "Enter query: " else ""

/-- A line feed. -/
def lineFeed : UInt8 := 10

/-- A carriage return. -/
def carriageReturn : UInt8 := 13

/-- The line without one carriage return at its end. -/
def dropReturn (line : List UInt8) : List UInt8 :=
  if line.getLast? = some carriageReturn then line.dropLast else line

/-- The lines of the input, given the bytes of the current line so far, the
latest first. A line ends with a line feed, which is not part of it, nor is
a carriage return just before; after the last line feed, what is left is a
line if it is not empty. -/
def linesFrom (current : List UInt8) : List UInt8 → List (List UInt8)
  | [] => if current.isEmpty then [] else [current.reverse]
  | b :: rest =>
    if b = lineFeed then dropReturn current.reverse :: linesFrom [] rest
    else linesFrom (b :: current) rest

/-- **The lines of the input.** -/
def lines (input : List UInt8) : List (List UInt8) :=
  linesFrom [] input

/-- The text that bytes encode. -/
def decode? (line : List UInt8) : Option String :=
  String.fromUTF8? ⟨line.toArray⟩

/-- **The answer to one query**, with the end of its line, and how many
filters that makes. -/
def answer (o : Options) (pretty : Bool) (query : String) : Nat × String :=
  match Query.toFilter o (.text query) with
  | .ok doc => (1, Document.render doc pretty ++ "\n")
  | .error e => (0, "error: " ++ e.message ++ "\n")

/-- **What a session does with a line.** -/
inductive Reply where
  /-- The line is not UTF-8, and the session breaks off. -/
  | broken
  /-- The line is blank, and the session is over. -/
  | over
  /-- The line is a query, with what is written for it and how many filters
  that makes. -/
  | answered (count : Nat) (written : String)
  deriving DecidableEq

/-- **The reply to a line.** Blanks around a query do not count. -/
def reply (o : Options) (pretty : Bool) (line : List UInt8) : Reply :=
  match decode? line with
  | none => .broken
  | some text =>
    let query := Text.trim text
    if query.isEmpty then .over
    else
      let (count, written) := answer o pretty query
      .answered count written

/-- Reply to the lines that are left. -/
def runLines (o : Options) (pretty prompting : Bool) : List (List UInt8) → Outcome
  | [] => ⟨0, prompt prompting, false⟩
  | line :: rest =>
    match reply o pretty line with
    | .broken => ⟨0, prompt prompting, true⟩
    | .over => ⟨0, prompt prompting, false⟩
    | .answered count written =>
      let later := runLines o pretty prompting rest
      ⟨count + later.count, prompt prompting ++ written ++ later.out, later.broken⟩

/-- **A session on an input.** -/
def run (o : Options) (pretty prompting : Bool) (input : List UInt8) : Outcome :=
  runLines o pretty prompting (lines input)

end DocFilter.Session
