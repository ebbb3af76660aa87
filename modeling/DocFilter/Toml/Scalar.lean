import DocFilter.Text.Basic
import DocFilter.Value.Basic

/-!
# Scalars of TOML

A scalar is a string or a word. **Strings** stand in double quotes, where a
backslash escapes, or in single quotes, where nothing does; with three
quotes on either side they may hold line ends. **Words** are truth values,
integers, doubles, dates and times.

A date or a time has no value of its own: it is the text that writes it,
with `T` before the time, no zeros at the end of the seconds, and at most
nine digits after their point.
-/

namespace DocFilter.Toml

open Decimal (Double Numeral)
open Text (isSpace isKeyChar)

/-- A character that may stand in a comment or a string: no control but the
tab. -/
def isText (c : Char) : Bool :=
  c == '\t' || (' ' ≤ c && c != '\x7f')

/-- Line ends of both kinds as line feeds. -/
def normalizeBreaks : List Char → List Char
  | [] => []
  | '\r' :: '\n' :: rest => '\n' :: normalizeBreaks rest
  | c :: rest => c :: normalizeBreaks rest

/-! ## Strings -/

/-- The character of a one-letter escape. -/
def escapeLetter? : Char → Option Char
  | 'b' => some '\x08'
  | 't' => some '\t'
  | 'n' => some '\n'
  | 'f' => some '\x0c'
  | 'r' => some '\r'
  | 'e' => some '\x1b'
  | '"' => some '"'
  | '\\' => some '\\'
  | _ => none

/-- How many digits follow the letter of a numeric escape. -/
def escapeWidth? : Char → Option Nat
  | 'x' => some 2
  | 'u' => some 4
  | 'U' => some 8
  | _ => none

/-- The character that an escape stands for, after its backslash. -/
def scanEscape : List Char → Option (Char × List Char)
  | [] => none
  | c :: rest =>
    match escapeWidth? c with
    | some width =>
      if rest.length < width then none
      else (Text.codePoint? (rest.take width)).map fun d => (d, rest.drop width)
    | none => (escapeLetter? c).map fun d => (d, rest)

/-- A string on one line, after its quote; `read` holds its characters so far
in reverse. -/
def scanShort (quote : Char) : Nat → List Char → List Char → Option (List Char × List Char)
  | 0, _, _ => none
  | fuel + 1, read, cs =>
    match cs with
    | [] => none
    | c :: rest =>
      if c = quote then some (read.reverse, rest)
      else if c = '\\' ∧ quote = '"' then
        (scanEscape rest).bind fun r => scanShort quote fuel (r.1 :: read) r.2
      else if isText c then scanShort quote fuel (c :: read) rest
      else none

/-- A string on several lines, after its three quotes. Up to two more quotes
may stand right before the three that end it. A backslash at the end of a line takes
the space up to the next word away. -/
def scanLong (quote : Char) : Nat → List Char → List Char → Option (List Char × List Char)
  | 0, _, _ => none
  | fuel + 1, read, cs =>
    match cs with
    | [] => none
    | c :: rest =>
      if c = quote then
        let run := (cs.takeWhile (· == quote)).length
        if run < 3 then scanLong quote fuel (c :: read) rest
        else
          let extra := min (run - 3) 2
          some ((List.replicate extra quote ++ read).reverse, cs.drop (extra + 3))
      else if c = '\\' ∧ quote = '"' then
        match rest.dropWhile isSpace with
        | '\n' :: more =>
          scanLong quote fuel read (more.dropWhile fun c => isSpace c || c == '\n')
        | _ => (scanEscape rest).bind fun r => scanLong quote fuel (r.1 :: read) r.2
      else if isText c || c == '\n' then scanLong quote fuel (c :: read) rest
      else none

/-- The text without a line end at its head. -/
def dropBreak : List Char → List Char
  | '\n' :: cs => cs
  | cs => cs

/-- **A string of any kind**, at its quote. A line end right after three
quotes does not count. -/
def scanString : List Char → Option (String × List Char)
  | [] => none
  | quote :: rest =>
    let scanned := match rest with
      | c :: d :: more =>
        if c = quote ∧ d = quote then scanLong quote (more.length + 1) [] (dropBreak more)
        else scanShort quote (rest.length + 1) [] rest
      | _ => scanShort quote (rest.length + 1) [] rest
    scanned.map fun r => (String.ofList r.1, r.2)

/-! ## Numbers -/

/-- A number without the underscores between its digits; an underscore
anywhere else spoils it. -/
def dropUnderscores (isDigit : Char → Bool) : List Char → Option (List Char)
  | [] => some []
  | [c] => if c == '_' then none else some [c]
  | c :: '_' :: d :: rest =>
    if isDigit c && isDigit d then (dropUnderscores isDigit (d :: rest)).map (c :: ·) else none
  | c :: rest => if c == '_' then none else (dropUnderscores isDigit rest).map (c :: ·)

/-- The value of digits in a base, with underscores between them. -/
def baseInteger? (base : Nat) (cs : List Char) : Option Int :=
  (dropUnderscores (fun c => (Text.hexValue? c).isSome) cs).bind fun digits =>
    (Text.baseValue? base digits).map fun n => (n : Int)

/-- An integer that fits 64 bits. -/
def integer? (n : Int) : Option Value :=
  if -0x8000000000000000 ≤ n ∧ n < 0x8000000000000000 then some (.int n) else none

/-- The double that a word stands for. -/
def doubleWord? (word : List Char) : Option Double :=
  [("inf", Double.infinity false), ("+inf", .infinity false), ("-inf", .infinity true),
    ("nan", .nan), ("+nan", .nan), ("-nan", .nan)].lookup (String.ofList word)

/-- The value of a decimal number. -/
def decimal? (cs : List Char) : Option Value :=
  match Numeral.ofChars? cs with
  | none => none
  | some n =>
    if n.whole.isEmpty || (n.whole.head? == some '0' && 1 < n.whole.length)
        || n.fraction == some [] then none
    else if n.isInteger then integer? n.integerValue
    else if n.toDouble.isFinite then some (.float n.toDouble)
    else none

/-! ## Dates and times -/

/-- A number of so many digits. -/
def scanField (width : Nat) (cs : List Char) : Option (Nat × List Char) :=
  let digits := cs.take width
  if digits.length = width ∧ digits.all Char.isDigit then
    (Text.baseValue? 10 digits).map fun n => (n, cs.drop width)
  else none

/-- How many days a month has. -/
def daysIn (year month : Nat) : Nat :=
  if month = 2 then
    if year % 4 = 0 ∧ (year % 100 ≠ 0 ∨ year % 400 = 0) then 29 else 28
  else if month = 4 ∨ month = 6 ∨ month = 9 ∨ month = 11 then 30
  else 31

/-- A date at the head of the text. -/
def scanDate (cs : List Char) : Option (List Char × List Char) :=
  match scanField 4 cs with
  | some (year, '-' :: rest) =>
    match scanField 2 rest with
    | some (month, '-' :: rest) =>
      match scanField 2 rest with
      | some (day, rest) =>
        if 1 ≤ month ∧ month ≤ 12 ∧ 1 ≤ day ∧ day ≤ daysIn year month then
          some (cs.take 10, rest)
        else none
      | none => none
    | _ => none
  | _ => none

/-- The digits after the point of the seconds: at least one, of which nine
count. -/
def scanFraction : List Char → Option (List Char × List Char)
  | '.' :: rest =>
    let digits := rest.takeWhile Char.isDigit
    let kept := ((digits.take 9).reverse.dropWhile (· == '0')).reverse
    if digits.isEmpty then none
    else some (if kept.isEmpty then [] else '.' :: kept, rest.dropWhile Char.isDigit)
  | rest => some ([], rest)

/-- A time of day at the head of the text. The seconds may be left out. -/
def scanTime (cs : List Char) : Option (List Char × List Char) :=
  match scanField 2 cs with
  | some (hour, ':' :: rest) =>
    match scanField 2 rest with
    | some (minute, rest) =>
      if 23 < hour ∨ 59 < minute then none
      else
        match rest with
        | ':' :: more =>
          match scanField 2 more with
          | some (second, after) =>
            if 60 < second then none
            else (scanFraction after).map fun r => (cs.take 8 ++ r.1, r.2)
          | none => none
        | rest => some (cs.take 5 ++ ":00".toList, rest)
    | none => none
  | _ => none

/-- The difference to universal time at the end of a text, if there is any. -/
def offset? : List Char → Option (List Char)
  | [] => some []
  | ['Z'] => some ['Z']
  | ['z'] => some ['Z']
  | sign :: cs =>
    if sign = '+' ∨ sign = '-' then
      match scanField 2 cs with
      | some (hours, ':' :: rest) =>
        match scanField 2 rest with
        | some (minutes, []) =>
          if 23 < hours ∨ 59 < minutes then none
          else some ((if hours = 0 ∧ minutes = 0 then '+' else sign) :: cs)
        | _ => none
      | _ => none
    else none

/-- **The text of a date, a time, or both**, and of how they differ from
universal time. -/
def moment? (cs : List Char) : Option (List Char) :=
  match scanDate cs with
  | some (date, []) => some date
  | some (date, mark :: rest) =>
    if mark = 'T' ∨ mark = 't' ∨ mark = ' ' then
      match scanTime rest with
      | some (time, rest) => (offset? rest).map fun offset => date ++ 'T' :: time ++ offset
      | none => none
    else none
  | none =>
    match scanTime cs with
    | some (time, []) => some time
    | _ => none

/-! ## Words -/

/-- A character of a word. -/
def isWordChar (c : Char) : Bool :=
  isKeyChar c || c == '+' || c == '.' || c == ':'

/-- A word and the text after it. A date and a time with one space between
them are one word. -/
def scanWord (cs : List Char) : List Char × List Char :=
  let word := cs.takeWhile isWordChar
  match scanDate word, cs.dropWhile isWordChar with
  | some (_, []), ' ' :: c :: rest =>
    if c.isDigit then
      (word ++ ' ' :: c :: rest.takeWhile isWordChar, rest.dropWhile isWordChar)
    else (word, ' ' :: c :: rest)
  | _, rest => (word, rest)

/-- The value of a number or of a word for one. -/
def numberValue? (word : List Char) : Option Value :=
  match doubleWord? word with
  | some d => some (.float d)
  | none =>
    match word with
    | '0' :: 'x' :: digits => (baseInteger? 16 digits).bind integer?
    | '0' :: 'o' :: digits => (baseInteger? 8 digits).bind integer?
    | '0' :: 'b' :: digits => (baseInteger? 2 digits).bind integer?
    | cs => (dropUnderscores Char.isDigit cs).bind decimal?

/-- **The value of a word.** -/
def wordValue? (word : List Char) : Option Value :=
  if word = "true".toList then some (.bool true)
  else if word = "false".toList then some (.bool false)
  else
    match numberValue? word with
    | some v => some v
    | none => (moment? word).map fun text => .text (String.ofList text)

end DocFilter.Toml
