import DocFilter.Value.Basic
import DocFilter.Yaml.Reader

/-!
# Values of YAML nodes

A plain scalar means what it looks like: nothing, a truth value, a number
or else a text. Two **schemas** say how it looks, one for queries and one
for settings; they differ in the spellings of nothing and of numbers. A
number that no 64-bit integer can hold is no value in a query as long as
128 bits hold it, and a double beyond.

A map whose keys the schema does not take has no value, and in settings
neither has one that gives a key twice. The keys of settings are told apart
by what they look like, so `1` and `"1"` are two keys of one name; the
later one counts. The lists and maps of a query nest at most 128 deep.
-/

namespace DocFilter.Yaml

open Decimal (Double Numeral)

/-- The text without a plus sign at its head. -/
def dropPlus : List Char → List Char
  | '+' :: cs => cs
  | cs => cs

/-- Whether a sign is at the head of the text. -/
def startsSigned (cs : List Char) : Bool :=
  cs.head? == some '+' || cs.head? == some '-'

/-- Digits after a leading zero are no number. -/
def hasLeadingZero (cs : List Char) : Bool :=
  let digits := if startsSigned cs then cs.drop 1 else cs
  digits.head? == some '0' && 1 < digits.length && digits.all Char.isDigit

/-- The magnitude of digits with an optional mark of their base. -/
def magnitude? (cs : List Char) : Option Nat :=
  match cs with
  | '0' :: 'x' :: digits => Text.baseValue? 16 digits
  | '0' :: 'o' :: digits => Text.baseValue? 8 digits
  | '0' :: 'b' :: digits => Text.baseValue? 2 digits
  | digits => Text.baseValue? 10 digits

/-- The integer that a plain scalar spells, of any size. -/
def integer? (cs : List Char) : Option Int :=
  if hasLeadingZero cs then none
  else
    match cs with
    | '-' :: digits => (magnitude? digits).map fun n => -(n : Int)
    | cs => (magnitude? (dropPlus cs)).map fun n => (n : Int)

/-- The double that a plain scalar spells: a finite number, or one of the
words for infinity and for no number. -/
def double? (cs : List Char) : Option Double :=
  let unsigned := dropPlus cs
  if unsigned.length < cs.length ∧ startsSigned unsigned then none
  else if [".inf", ".Inf", ".INF"].contains (String.ofList unsigned) then some (.infinity false)
  else if ["-.inf", "-.Inf", "-.INF"].contains (String.ofList cs) then some (.infinity true)
  else if [".nan", ".NaN", ".NAN"].contains (String.ofList cs) then some .nan
  else (Numeral.ofChars? unsigned).bind fun n =>
    if n.toDouble.isFinite then some n.toDouble else none

/-- The truth value that a plain scalar spells, in one of three cases of its
letters. -/
def truth? (text : String) : Option Bool :=
  if ["true", "True", "TRUE"].contains text then some true
  else if ["false", "False", "FALSE"].contains text then some false
  else none

/-- **The value of a plain scalar in a query**, if it has one. -/
def queryScalar? (text : String) : Option Value :=
  let cs := text.toList
  if ["", "~", "null", "Null", "NULL"].contains text then some .null
  else if let some b := truth? text then some (.bool b)
  else
    let wide : Option Int := (integer? cs).filter fun n =>
      -0x80000000000000000000000000000000 ≤ n && n < 0x100000000000000000000000000000000
    match wide with
    | some n => if -0x8000000000000000 ≤ n ∧ n < 0x10000000000000000 then some (.int n) else none
    | none =>
      if hasLeadingZero cs then some (.text text)
      else
        match double? cs with
        | some d => some (if d.isFinite then .float d else .null)
        | none => some (.text text)

/-- The integer of digits in a base after an optional sign. -/
def signed? (base : Nat) : List Char → Option Int
  | '-' :: digits => (Text.baseValue? base digits).map fun n => -(n : Int)
  | cs => (Text.baseValue? base (dropPlus cs)).map fun n => (n : Int)

/-- **The 64-bit integer that a plain scalar of a settings file spells.** A
mark of the base, or a plus, stands before a sign. -/
def settingsInteger? (cs : List Char) : Option Int :=
  let n := match cs with
    | '0' :: 'x' :: digits => signed? 16 digits
    | '0' :: 'o' :: digits => signed? 8 digits
    | '+' :: digits => signed? 10 digits
    | cs => signed? 10 cs
  n.filter fun n => -0x8000000000000000 ≤ n && n < 0x8000000000000000

/-- **The value of a plain scalar in a settings file**, if it has one. -/
def settingsScalar? (text : String) : Option Value :=
  let cs := text.toList
  if ["", "~", "null"].contains text then some .null
  else if let some b := truth? text then some (.bool b)
  else
    match settingsInteger? cs with
    | some n => some (.int n)
    | none =>
      if cs.any Char.isDigit then
        match Numeral.ofChars? cs with
        | some n => some (.float n.toDouble)
        | none => some (.text text)
      else if (double? cs).isSome then none
      else some (.text text)

/-! ## Keys -/

/-- **What a key looks like.** -/
inductive KeyKind where
  /-- A text. -/
  | text
  /-- A truth value. -/
  | bool
  /-- An integer. -/
  | int
  /-- A double. -/
  | float
  deriving DecidableEq

/-- **A key of a map**: its name, and what it looks like. -/
structure Key where
  /-- What the key looks like. -/
  kind : KeyKind
  /-- The name under which the value is found. -/
  name : String
  deriving DecidableEq

/-- The key that a scalar is, by its value and its spelling. A double keeps
its spelling. -/
def Key.ofScalar? (spelling : String) : Value → Option Key
  | .text s => some ⟨.text, s⟩
  | .bool b => some ⟨.bool, if b then "true" else "false"⟩
  | .int n => some ⟨.int, Decimal.intText n⟩
  | .float _ => some ⟨.float, spelling⟩
  | _ => none

/-! ## Schemas -/

/-- **How nodes are read**: the value of a plain scalar, and which keys a map
may have. -/
structure Schema where
  /-- The value of a plain scalar, if it has one. -/
  scalar : String → Option Value
  /-- Whether keys of a kind are taken. -/
  takes : KeyKind → Bool
  /-- Whether a map may give a key more than once, the last time counting. -/
  repeatsKeys : Bool

/-- Queries take only texts for keys. -/
def querySchema : Schema where
  scalar := queryScalar?
  takes := fun kind => kind = .text
  repeatsKeys := true

/-- Settings take every scalar but nothing for a key. -/
def settingsSchema : Schema where
  scalar := settingsScalar?
  takes := fun _ => true
  repeatsKeys := false

/-- The key that a node is, if the schema takes it. -/
def Schema.key? (schema : Schema) (node : Node) : Option Key :=
  let key := match node with
    | .plain text => (schema.scalar text).bind (Key.ofScalar? text)
    | .quoted text => some ⟨.text, text⟩
    | _ => none
  key.filter fun k => schema.takes k.kind

/-- Whether one of the entries has a key. -/
def gives (entries : List (Key × Value)) (key : Key) : Bool :=
  entries.any fun entry => entry.1 = key

mutual

/-- The value of a node under a schema. -/
def Node.toValue? (schema : Schema) : Node → Option Value
  | .plain text => schema.scalar text
  | .quoted text => some (.text text)
  | .list items => (itemValues? schema items).map .list
  | .map entries => (entryValues? schema entries).map fun es =>
    .document (Document.append [] (es.map fun e => (e.1.name, e.2)))

/-- The values of items. -/
def Node.itemValues? (schema : Schema) : List Node → Option (List Value)
  | [] => some []
  | item :: rest =>
    match toValue? schema item, itemValues? schema rest with
    | some v, some vs => some (v :: vs)
    | _, _ => none

/-- The keys and values of entries. -/
def Node.entryValues? (schema : Schema) :
    List (Node × Node) → Option (List (Key × Value))
  | [] => some []
  | (key, value) :: rest =>
    match schema.key? key, toValue? schema value, entryValues? schema rest with
    | some k, some v, some es =>
      if schema.repeatsKeys || !gives es k then some ((k, v) :: es) else none
    | _, _, _ => none

end

/-- How deep the lists and maps of a query may nest. -/
def depthLimit : Nat := 128

/-- **The value that a text writes for a query.** -/
def queryValue? (s : String) : Option Value :=
  match read .first s with
  | some (some node) => if node.depth ≤ depthLimit then node.toValue? querySchema else none
  | some none => some .null
  | none => none

/-- **The value that a text writes for settings**; an empty text is an
empty document. -/
def settingsValue? (s : String) : Option Value :=
  match read .second s with
  | some (some node) => node.toValue? settingsSchema
  | some none => some (.document [])
  | none => none

end DocFilter.Yaml
