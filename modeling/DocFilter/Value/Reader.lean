import DocFilter.Text.Basic
import DocFilter.Value.Number

/-!
# Reading values

A written value is a sequence of **pieces** (brackets, commas, colons and
scalars) with gaps between them. A machine takes the pieces one by one:
it keeps a stack of the lists and documents that are open, and knows what
may come next. Nesting is therefore the height of the stack, and at most
`Reader.depthLimit` values may be open at once.

`Reader.readValue` reads the first value of a text and gives back what
follows it, so that a caller may judge the value before it looks at the
rest. It has one way to fail: the text is not a written value.

Where a value of a certain **shape** is wanted, the text can also hold a
value of another one. `Reader.readItems` and `Reader.readDocument` refuse
a misshapen value as soon as it shows, so a fault later in the text does
not count any more.
-/

namespace DocFilter

open Decimal (Numeral)

namespace Reader

/-- A character that may stand between pieces. -/
def isGap (c : Char) : Bool :=
  c == ' ' || c == '\t' || c == '\n' || c == '\r'

/-- **A piece of a written value.** -/
inductive Piece where
  /-- The start of a list. -/
  | openList
  /-- The end of a list. -/
  | closeList
  /-- The start of a document. -/
  | openDocument
  /-- The end of a document. -/
  | closeDocument
  /-- A comma. -/
  | comma
  /-- A colon. -/
  | colon
  /-- A scalar; a text may also be a key. -/
  | scalar (v : Value)

/-! ## Texts -/

/-- Four hexadecimal digits at the head of a text, as a number. -/
def scanUnit : List Char → Option (Nat × List Char)
  | a :: b :: c :: d :: rest => do
    let a ← Text.hexValue? a
    let b ← Text.hexValue? b
    let c ← Text.hexValue? c
    let d ← Text.hexValue? d
    some (((a * 16 + b) * 16 + c) * 16 + d, rest)
  | _ => none

/-- A character by number, after the `u` of its escape. Characters past
the first plane are written as two units, a high one and a low one, which
never stand alone. -/
def scanCodePoint (cs : List Char) : Option (Char × List Char) :=
  match scanUnit cs with
  | none => none
  | some (unit, rest) =>
    if 0xdc00 ≤ unit ∧ unit ≤ 0xdfff then none
    else if 0xd800 ≤ unit ∧ unit ≤ 0xdbff then
      match rest with
      | '\\' :: 'u' :: more =>
        match scanUnit more with
        | none => none
        | some (low, rest) =>
          if 0xdc00 ≤ low ∧ low ≤ 0xdfff then
            some (Char.ofNat (0x10000 + (unit - 0xd800) * 0x400 + (low - 0xdc00)), rest)
          else none
      | _ => none
    else some (Char.ofNat unit, rest)

/-- The character that an escape stands for, after its backslash. -/
def scanEscape : List Char → Option (Char × List Char)
  | [] => none
  | c :: rest =>
    match c with
    | '"' => some ('"', rest)
    | '\\' => some ('\\', rest)
    | '/' => some ('/', rest)
    | 'b' => some ('\x08', rest)
    | 'f' => some ('\x0c', rest)
    | 'n' => some ('\n', rest)
    | 'r' => some ('\r', rest)
    | 't' => some ('\t', rest)
    | 'u' => scanCodePoint rest
    | _ => none

/-- Four digits are taken off the text. -/
theorem scanUnit_length {cs rest : List Char} {n : Nat} (h : scanUnit cs = some (n, rest)) :
    rest.length < cs.length := by
  match cs, h with
  | a :: b :: c :: d :: r, h =>
    simp only [scanUnit, Option.bind_eq_bind, Option.bind_eq_some_iff] at h
    obtain ⟨_, _, _, _, _, _, _, _, h⟩ := h
    simp only [Option.some.injEq, Prod.mk.injEq] at h
    obtain ⟨_, rfl⟩ := h
    simp only [List.length_cons]
    omega

/-- A character by number is taken off the text. -/
theorem scanCodePoint_length {cs rest : List Char} {c : Char}
    (h : scanCodePoint cs = some (c, rest)) : rest.length < cs.length := by
  unfold scanCodePoint at h
  split at h
  · cases h
  · rename_i unit r hu
    have hr := scanUnit_length hu
    split at h
    · cases h
    · split at h
      · split at h
        · split at h
          · cases h
          · rename_i more low r' hl
            have hr' := scanUnit_length hl
            split at h
            · simp only [Option.some.injEq, Prod.mk.injEq] at h
              obtain ⟨_, rfl⟩ := h
              simp only [List.length_cons] at hr
              omega
            · cases h
        · cases h
      · simp only [Option.some.injEq, Prod.mk.injEq] at h
        obtain ⟨_, rfl⟩ := h
        exact hr

/-- An escape is taken off the text. -/
theorem scanEscape_length {cs rest : List Char} {c : Char}
    (h : scanEscape cs = some (c, rest)) : rest.length < cs.length := by
  cases cs with
  | nil => simp [scanEscape] at h
  | cons a r =>
    simp only [scanEscape] at h
    split at h
    case h_9 =>
      have hr := scanCodePoint_length h
      simp only [List.length_cons]
      omega
    case h_10 => cases h
    all_goals
      simp only [Option.some.injEq, Prod.mk.injEq] at h
      obtain ⟨_, rfl⟩ := h
      simp

/-- The characters of a text up to its closing quote, escapes resolved.
A control character may not stand in a text. -/
def scanText (cs : List Char) : Option (List Char × List Char) :=
  match cs with
  | [] => none
  | '"' :: rest => some ([], rest)
  | '\\' :: rest =>
    match _h : scanEscape rest with
    | none => none
    | some (c, rest') => (scanText rest').map fun r => (c :: r.1, r.2)
  | c :: rest =>
    if c.toNat < 0x20 then none
    else (scanText rest).map fun r => (c :: r.1, r.2)
termination_by cs.length
decreasing_by
  · have := scanEscape_length _h
    simp only [List.length_cons]
    omega
  · simp

/-- A text is taken off together with its closing quote. -/
theorem scanText_length {cs rest s : List Char} (h : scanText cs = some (s, rest)) :
    rest.length < cs.length := by
  fun_induction scanText cs generalizing s rest with
  | case1 => cases h
  | case2 r =>
    simp only [Option.some.injEq, Prod.mk.injEq] at h
    obtain ⟨_, rfl⟩ := h
    simp
  | case3 => cases h
  | case4 r c r' he ih =>
    simp only [Option.map_eq_some_iff, Prod.mk.injEq] at h
    obtain ⟨⟨s', rest'⟩, hs, _, rfl⟩ := h
    have := ih hs
    have := scanEscape_length he
    simp only [List.length_cons]
    omega
  | case5 => cases h
  | case6 c r _ _ _ ih =>
    simp only [Option.map_eq_some_iff, Prod.mk.injEq] at h
    obtain ⟨⟨s', rest'⟩, hs, _, rfl⟩ := h
    have := ih hs
    simp only [List.length_cons]
    omega

/-! ## Pieces -/

/-- Whether an exponent starts right after a numeral that has none: its
mark is there, but not its digits. -/
def hasBareMark (n : Numeral) (rest : List Char) : Bool :=
  n.exponent.isNone && (rest.head? == some 'e' || rest.head? == some 'E')

/-- A number at the head of a text. -/
def scanNumber (cs : List Char) : Option (Value × List Char) :=
  match Numeral.scan cs with
  | none => none
  | some (n, rest) =>
    if !Value.isNumberSpelling n || hasBareMark n rest then none
    else (Value.ofNumeral? n).map fun v => (v, rest)

/-- **The piece at the head of a text**, with the rest. -/
def scanPiece : List Char → Option (Piece × List Char)
  | '[' :: rest => some (.openList, rest)
  | ']' :: rest => some (.closeList, rest)
  | '\x7b' :: rest => some (.openDocument, rest)
  | '\x7d' :: rest => some (.closeDocument, rest)
  | ',' :: rest => some (.comma, rest)
  | ':' :: rest => some (.colon, rest)
  | '"' :: rest => (scanText rest).map fun r => (.scalar (.text (String.ofList r.1)), r.2)
  | 'n' :: 'u' :: 'l' :: 'l' :: rest => some (.scalar .null, rest)
  | 't' :: 'r' :: 'u' :: 'e' :: rest => some (.scalar (.bool true), rest)
  | 'f' :: 'a' :: 'l' :: 's' :: 'e' :: rest => some (.scalar (.bool false), rest)
  | cs => (scanNumber cs).map fun r => (.scalar r.1, r.2)

/-- A number is taken off the text. -/
theorem scanNumber_length {cs rest : List Char} {v : Value}
    (h : scanNumber cs = some (v, rest)) : rest.length < cs.length := by
  unfold scanNumber at h
  split at h
  · cases h
  · rename_i n r hn
    split at h
    · cases h
    · simp only [Option.map_eq_some_iff, Prod.mk.injEq] at h
      obtain ⟨_, _, _, rfl⟩ := h
      exact Numeral.scan_length_lt hn

/-- A piece is taken off the text. -/
theorem scanPiece_length {cs rest : List Char} {p : Piece}
    (h : scanPiece cs = some (p, rest)) : rest.length < cs.length := by
  unfold scanPiece at h
  split at h
  case h_7 =>
    simp only [Option.map_eq_some_iff, Prod.mk.injEq] at h
    obtain ⟨⟨s, r⟩, hs, _, rfl⟩ := h
    have := scanText_length hs
    simp only [List.length_cons]
    omega
  case h_11 =>
    simp only [Option.map_eq_some_iff, Prod.mk.injEq] at h
    obtain ⟨⟨v, r⟩, hv, _, rfl⟩ := h
    exact scanNumber_length hv
  all_goals
    simp only [Option.some.injEq, Prod.mk.injEq] at h
    obtain ⟨_, rfl⟩ := h
    simp only [List.length_cons]
    omega

/-! ## The machine -/

/-- **A value that is open**: what it holds so far. -/
inductive Frame where
  /-- A list; its items, the last one first. -/
  | list (items : List Value)
  /-- A document between two entries. -/
  | document (entries : Document)
  /-- A document whose next entry has its key and waits for its value. -/
  | entry (entries : Document) (key : String)

/-- What may come next. -/
inductive Awaiting where
  /-- A value. -/
  | value
  /-- A value, or the end of the list that was just opened. -/
  | firstItem
  /-- A key. -/
  | key
  /-- A key, or the end of the document that was just opened. -/
  | firstKey
  /-- The colon after a key. -/
  | colon (key : String)
  /-- A comma, or the end of what is open. -/
  | separator

/-- **The state of reading**: what is open, innermost first, and what may
come next. -/
structure State where
  /-- The values that are open. -/
  frames : List Frame
  /-- What may come next. -/
  awaiting : Awaiting

/-- How many lists and documents of a text may be open at once. -/
def depthLimit : Nat := 127

/-- The end of a step: the value is complete, or reading goes on. -/
abbrev Progress := Value ⊕ State

/-- Hand a complete value to what is open. -/
def State.supply (v : Value) : List Frame → Option Progress
  | [] => some (.inl v)
  | .list items :: outer => some (.inr ⟨.list (v :: items) :: outer, .separator⟩)
  | .entry entries key :: outer =>
    some (.inr ⟨.document (Document.insert entries key v) :: outer, .separator⟩)
  | .document _ :: _ => none

/-- Open a list or document, unless as many are open as may be. -/
def State.enter (limit : Nat) (s : State) (frame : Frame) (awaiting : Awaiting) :
    Option Progress :=
  if s.frames.length < limit then some (.inr ⟨frame :: s.frames, awaiting⟩) else none

/-- **Take one piece**, with at most `limit` values open at once. -/
def State.step (limit : Nat) (s : State) (p : Piece) : Option Progress :=
  match s.awaiting, p, s.frames with
  | .value, .scalar v, frames => supply v frames
  | .value, .openList, _ => s.enter limit (.list []) .firstItem
  | .value, .openDocument, _ => s.enter limit (.document []) .firstKey
  | .firstItem, .scalar v, frames => supply v frames
  | .firstItem, .openList, _ => s.enter limit (.list []) .firstItem
  | .firstItem, .openDocument, _ => s.enter limit (.document []) .firstKey
  | .firstItem, .closeList, .list items :: outer => supply (.list items.reverse) outer
  | .firstKey, .closeDocument, .document entries :: outer => supply (.document entries) outer
  | .firstKey, .scalar (.text k), frames => some (.inr ⟨frames, .colon k⟩)
  | .key, .scalar (.text k), frames => some (.inr ⟨frames, .colon k⟩)
  | .colon k, .colon, .document entries :: outer =>
    some (.inr ⟨.entry entries k :: outer, .value⟩)
  | .separator, .comma, .list items :: outer => some (.inr ⟨.list items :: outer, .value⟩)
  | .separator, .closeList, .list items :: outer => supply (.list items.reverse) outer
  | .separator, .comma, .document entries :: outer =>
    some (.inr ⟨.document entries :: outer, .key⟩)
  | .separator, .closeDocument, .document entries :: outer => supply (.document entries) outer
  | _, _, _ => none

/-- Gaps only shorten a text. -/
theorem length_dropWhile_le (p : Char → Bool) (cs : List Char) :
    (cs.dropWhile p).length ≤ cs.length :=
  (List.dropWhile_sublist p).length_le

/-- Take pieces until a value is complete. -/
def run (limit : Nat) (s : State) (cs : List Char) : Option (Value × List Char) :=
  match _h : scanPiece (cs.dropWhile isGap) with
  | none => none
  | some (p, rest) =>
    match s.step limit p with
    | none => none
    | some (.inl v) => some (v, rest)
    | some (.inr s') => run limit s' rest
termination_by cs.length
decreasing_by
  have h1 := scanPiece_length _h
  have h2 := length_dropWhile_le isGap cs
  omega

/-- A value is taken off the text. -/
theorem run_length {limit : Nat} {s : State} {cs rest : List Char} {v : Value}
    (h : run limit s cs = some (v, rest)) : rest.length < cs.length := by
  fun_induction run limit s cs with
  | case1 => cases h
  | case2 => cases h
  | case3 s cs p r hp v' hs =>
    simp only [Option.some.injEq, Prod.mk.injEq] at h
    obtain ⟨_, rfl⟩ := h
    exact Nat.lt_of_lt_of_le (scanPiece_length hp) (length_dropWhile_le isGap cs)
  | case4 s cs p r hp s' hs ih =>
    have h1 := scanPiece_length hp
    have h2 := length_dropWhile_le isGap cs
    have h3 := ih h
    omega

/-- **The first value of a text**, with what follows it; at most `limit`
lists and documents may be open at once. -/
def readValue (limit : Nat) (cs : List Char) : Option (Value × List Char) :=
  run limit ⟨[], .value⟩ cs

/-! ## Shapes -/

/-- **Why nothing of the wanted shape could be read from a text.** -/
inductive Refusal where
  /-- The text is not a written value. -/
  | malformed
  /-- It is one, as far as it was looked at, but of another shape. -/
  | misshapen
  deriving DecidableEq

/-- The refusal of a text that starts with something other than the list
or document that is wanted. A scalar is read to its end, a list or a
document is refused by its first bracket. -/
def refusal (cs : List Char) : Refusal :=
  match scanPiece cs with
  | some (.scalar _, _) => .misshapen
  | some (.openList, _) => .misshapen
  | some (.openDocument, _) => .misshapen
  | _ => .malformed

/-- The items of a list that is open, up to its end. Each item is judged
when it is complete, before the text goes on. -/
def itemsFrom {α : Type} (shape : Value → Option α) (cs : List Char) :
    Except Refusal (List α × List Char) :=
  match _h : readValue (depthLimit - 1) cs with
  | none => .error .malformed
  | some (v, rest) =>
    match shape v with
    | none => .error .misshapen
    | some a =>
      match _hr : rest.dropWhile isGap with
      | ']' :: more => .ok ([a], more)
      | ',' :: more => (itemsFrom shape more).map fun r => (a :: r.1, r.2)
      | _ => .error .malformed
termination_by cs.length
decreasing_by
  have h1 := run_length _h
  have h2 := length_dropWhile_le isGap rest
  rw [_hr, List.length_cons] at h2
  omega

/-- **A list of items of one shape** at the head of a text, with what
follows it. -/
def readItems {α : Type} (shape : Value → Option α) (cs : List Char) :
    Except Refusal (List α × List Char) :=
  match cs.dropWhile isGap with
  | '[' :: rest =>
    match rest.dropWhile isGap with
    | ']' :: more => .ok ([], more)
    | _ => itemsFrom shape rest
  | cs => .error (refusal cs)

/-- **A document** at the head of a text, with what follows it. -/
def readDocument (cs : List Char) : Except Refusal (Document × List Char) :=
  match cs.dropWhile isGap with
  | '\x7b' :: rest =>
    match readValue depthLimit ('\x7b' :: rest) with
    | some (.document doc, more) => .ok (doc, more)
    | _ => .error .malformed
  | cs => .error (refusal cs)

/-- **A value of some shape** at the head of a text, with what follows it.
The value is complete before it is judged. -/
def readShape {α : Type} (shape : Value → Option α) (cs : List Char) :
    Except Refusal (α × List Char) :=
  match readValue depthLimit cs with
  | none => .error .malformed
  | some (v, rest) =>
    match shape v with
    | none => .error .misshapen
    | some a => .ok (a, rest)

/-- What was read, if nothing but gaps follows it. -/
def closed {α : Type} (r : Except Refusal (α × List Char)) : Except Refusal α :=
  match r with
  | .error e => .error e
  | .ok (a, rest) => if rest.all isGap then .ok a else .error .malformed

end Reader

/-- **The value that a whole text writes.** -/
def Value.ofText? (s : String) : Option Value :=
  (Reader.closed (Reader.readShape some s.toList)).toOption

end DocFilter
