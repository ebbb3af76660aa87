import DocFilter.Literal
import DocFilter.Options
import DocFilter.Text.Basic
import DocFilter.Token.Literal
import DocFilter.Value.Basic

/-!
# Options from settings

Settings are a document of which two keys count: `collision` gives the
policy and `aliases` the paths of fields. Both may be left out, and other
keys say nothing.

A key of the top level is a **path**: `aliases.t` gives the key `t` of
`aliases`, and `aliases[0]` makes a list of `aliases`. A key that is not
spelled as a path stands for itself, and so does every key further down.

A policy is given by its name, or by a document whose one key is its name;
what stands under that key does not matter.
-/

namespace DocFilter

namespace Settings

open Text (isSpace isKeyChar)

/-! ## Paths -/

/-- **A step from a value to a part of it.** -/
inductive Step where
  /-- To what a document has under a key. -/
  | key (name : String)
  /-- To an item of a list. No option is read from a list, so it does not
  matter which. -/
  | item
  deriving DecidableEq

/-- **A path into settings**: a key of the top level and the steps from
there. -/
structure Path where
  /-- The key of the top level. -/
  root : String
  /-- The steps from its value. -/
  steps : List Step
  deriving DecidableEq

/-- The magnitude of a run of digits. -/
def digits? (cs : List Char) : Option Int :=
  (Text.baseValue? 10 cs).map fun n => (n : Int)

/-- Whether a text is the place of an item: a 64-bit integer, which counts
from the end if it is negative, with space on either side. -/
def isPlace (cs : List Char) : Bool :=
  let trimmed := ((cs.dropWhile isSpace).reverse.dropWhile isSpace).reverse
  let place := match trimmed with
    | '-' :: digits => (digits? digits).map fun n => -n
    | digits => digits? digits
  place.any fitsInt64

/-- Whether a text is a place and the bracket that closes it. -/
def isSubscript (cs : List Char) : Bool :=
  cs.getLast? == some ']' && isPlace cs.dropLast

/-- The key that a part of a path begins with, and a step for each
subscript after it. -/
def scanPart (cs : List Char) : Option (String × List Step) :=
  match Text.segments '[' cs with
  | [] => none
  | key :: subscripts =>
    if !key.isEmpty && key.all isKeyChar && subscripts.all isSubscript then
      some (String.ofList key, subscripts.map fun _ => .item)
    else none

/-- **The path that a key of the top level spells.** -/
def Path.ofKey (key : String) : Path :=
  match (Text.segments '.' key.toList).mapM scanPart with
  | some ((root, steps) :: rest) =>
    ⟨root, steps ++ rest.flatMap fun part => .key part.1 :: part.2⟩
  | _ => ⟨key, []⟩

/-- What a key holds after it is given a value: a document adds to a
document, and any other value takes the place of what was there. -/
def overlay (present : Option Value) (value : Value) : Value :=
  match present, value with
  | some (.document old), .document new => .document (Document.append old new)
  | _, v => v

/-- What is there after a value is given to the end of some steps. A step
makes a document or a list of anything else. -/
def place (value : Value) : List Step → Option Value → Value
  | [], present => overlay present value
  | .item :: _, _ => .list []
  | .key name :: rest, present =>
    let entries : Document := match present with
      | some (.document d) => d
      | _ => []
    .document (Document.insert entries name (place value rest (Document.get? entries name)))

/-- **Settings with the paths of their keys followed.** -/
def resolve (settings : Document) : Document :=
  settings.foldl (fun tree entry =>
    let path := Path.ofKey entry.1
    Document.insert tree path.root (place entry.2 path.steps (Document.get? tree path.root))) []

/-! ## Options -/

/-- The path that a value gives for an alias: a text, or the text of a
scalar. -/
def aliasTarget? : Value → Option String
  | .text s => some s
  | .bool b => some (if b then "true" else "false")
  | .int n =>
    if fitsInt64 n then some (Decimal.intText n)
    else some (Literal.floatLayout.write (Decimal.Double.ofNat n.toNat))
  | .float d => some (Literal.floatLayout.write d)
  | _ => none

/-- The aliases that entries give, if every one of them gives one. -/
def aliasTable? : Document → Option (List (String × String))
  | [] => some []
  | (name, value) :: rest =>
    match aliasTarget? value, aliasTable? rest with
    | some target, some table => some ((name, target) :: table)
    | _, _ => none

/-- The policy that a value gives: by its name, alone or as the one key of a
document. -/
def policy? : Value → Option CollisionPolicy
  | .text name => CollisionPolicy.ofName? name
  | .document [(name, _)] => CollisionPolicy.ofName? name
  | _ => none

/-- The aliases that a value gives. -/
def aliases? : Value → Option (List (String × String))
  | .document entries => aliasTable? entries
  | _ => none

end Settings

/-- **The options that settings give**; what they leave out has its
default. -/
def Options.ofSettings? : Value → Option Options
  | .document entries =>
    let settings := Settings.resolve entries
    let collision := match Document.get? settings "collision" with
      | some value => Settings.policy? value
      | none => some .lastWins
    let aliases := match Document.get? settings "aliases" with
      | some value => Settings.aliases? value
      | none => some []
    match collision, aliases with
    | some collision, some aliases => some ⟨collision, aliases⟩
    | _, _ => none
  | _ => none

end DocFilter
