import DocFilter.Decimal.Numeral
import DocFilter.Error
import DocFilter.Text.Basic
import DocFilter.Token.Basic

/-!
# Cutting a text into tokens

At each place the lexer skips the gap and takes one **lexeme**: a symbol,
a quoted string, a number or a word, tried in that order. A number must
not run into a word, so `2nd` is a word and `5.x` is one too. Every scan
gives the token, its lexeme and the rest of the text, and the lexeme and
the rest always make up what was scanned (`Token.scan_append`); positions
are the sums of what lies before.
-/

namespace DocFilter

open Decimal (Numeral)

namespace Token

/-- A character of a gap between tokens. -/
def isGap (c : Char) : Bool :=
  c == ' ' || c == '\t' || c == '\r' || c == '\n'

/-- A character that a word can consist of. -/
def isWordChar (c : Char) : Bool :=
  c.isAlphanum || c == '_' || c == '.'

/-- A character that a string can start and end with. -/
def isQuote (c : Char) : Bool :=
  c == '"' || c == '\''

/-- **A token, its lexeme and the rest of the text.** -/
structure Scan where
  /-- The token. -/
  token : Token
  /-- The characters it was read from. -/
  lexeme : List Char
  /-- What follows. -/
  rest : List Char

/-- Why no token could be scanned. -/
inductive Fault where
  /-- A string has no end. -/
  | unterminated
  /-- No token starts with this character. -/
  | unexpected (c : Char)

/-- The symbols, the longer ones first. -/
def scanSymbol : List Char → Option Scan
  | '!' :: '=' :: rest => some ⟨.relation .ne, ['!', '='], rest⟩
  | '<' :: '=' :: rest => some ⟨.relation .le, ['<', '='], rest⟩
  | '>' :: '=' :: rest => some ⟨.relation .ge, ['>', '='], rest⟩
  | '=' :: rest => some ⟨.relation .eq, ['='], rest⟩
  | '<' :: rest => some ⟨.relation .lt, ['<'], rest⟩
  | '>' :: rest => some ⟨.relation .gt, ['>'], rest⟩
  | '~' :: rest => some ⟨.pattern, ['~'], rest⟩
  | '(' :: rest => some ⟨.openParen, ['('], rest⟩
  | ')' :: rest => some ⟨.closeParen, [')'], rest⟩
  | ',' :: rest => some ⟨.comma, [','], rest⟩
  | _ => none

/-! ## Strings -/

/-- What a backslash and the character after it stand for: the quote and
the backslash lose the backslash, everything else keeps it. -/
def unescape (quote c : Char) : List Char :=
  if c = quote ∨ c = '\\' then [c] else ['\\', c]

/-- **The content of a string**, the characters it was read from up to and
with the closing quote, and the rest; `none` when there is no closing
quote. -/
def scanString (quote : Char) : List Char → Option (List Char × List Char × List Char)
  | [] => none
  | c :: cs =>
    if c = quote then some ([], [c], cs)
    else if c = '\\' then
      match cs with
      | [] => none
      | d :: ds =>
        (scanString quote ds).map fun r => (unescape quote d ++ r.1, c :: d :: r.2.1, r.2.2)
    else (scanString quote cs).map fun r => (c :: r.1, c :: r.2.1, r.2.2)

/-- The characters of a string and the rest make up the text. -/
theorem scanString_append {quote : Char} {cs content lexeme rest : List Char}
    (h : scanString quote cs = some (content, lexeme, rest)) : lexeme ++ rest = cs := by
  fun_induction scanString quote cs generalizing content lexeme rest with
  | case1 => cases h
  | case2 =>
    simp only [Option.some.injEq, Prod.mk.injEq] at h
    obtain ⟨_, rfl, rfl⟩ := h
    rfl
  | case3 => cases h
  | case4 d ds _ ih =>
    simp only [Option.map_eq_some_iff, Prod.mk.injEq] at h
    obtain ⟨⟨a, b, c⟩, hs, _, rfl, rfl⟩ := h
    simp [ih hs]
  | case5 c cs _ _ ih =>
    simp only [Option.map_eq_some_iff, Prod.mk.injEq] at h
    obtain ⟨⟨a, b, d⟩, hs, _, rfl, rfl⟩ := h
    simp [ih hs]

/-! ## Numbers and words -/

/-- A number that does not run into a word. -/
def scanNumber (cs : List Char) : Option Scan :=
  match Numeral.scan cs with
  | none => none
  | some (n, rest) =>
    if rest.head?.any isWordChar then none
    else some ⟨.literal (.number (String.ofList n.chars)), n.chars, rest⟩

/-- **The token of a word**: a reserved word or a literal in any case of
its letters, and otherwise a plain word. -/
def ofWord (word : String) : Token :=
  match Text.lowerCase word with
  | "and" => .keyword .and
  | "or" => .keyword .or
  | "not" => .keyword .not
  | "type" => .keyword .type
  | "true" => .literal (.bool true)
  | "false" => .literal (.bool false)
  | "null" => .literal .null
  | _ => .word word

/-- The longest word at the head of the text. -/
def scanWord (cs : List Char) : Option Scan :=
  let word := cs.takeWhile isWordChar
  if word = [] then none
  else some ⟨ofWord (String.ofList word), word, cs.dropWhile isWordChar⟩

/-- **The token that starts with a character.** -/
def scan (c : Char) (cs : List Char) : Except Fault Scan :=
  match scanSymbol (c :: cs) with
  | some s => .ok s
  | none =>
    if isQuote c then
      match scanString c cs with
      | some (content, lexeme, rest) =>
        .ok ⟨.literal (.text (String.ofList content)), c :: lexeme, rest⟩
      | none => .error .unterminated
    else
      match scanNumber (c :: cs) with
      | some s => .ok s
      | none =>
        match scanWord (c :: cs) with
        | some s => .ok s
        | none => .error (.unexpected c)

/-! ## Nothing is lost -/

/-- A symbol and the rest make up the text, and a symbol has characters. -/
theorem scanSymbol_append {cs : List Char} {s : Scan} (h : scanSymbol cs = some s) :
    s.lexeme ++ s.rest = cs ∧ s.lexeme ≠ [] := by
  unfold scanSymbol at h
  split at h
  case h_11 => cases h
  all_goals
    obtain rfl := Option.some.inj h
    exact ⟨rfl, by simp⟩

/-- A number and the rest make up the text, and a number has characters. -/
theorem scanNumber_append {cs : List Char} {s : Scan} (h : scanNumber cs = some s) :
    s.lexeme ++ s.rest = cs ∧ s.lexeme ≠ [] := by
  unfold scanNumber at h
  split at h
  · cases h
  · rename_i n rest hn
    split at h
    · cases h
    · obtain rfl := Option.some.inj h
      exact ⟨Numeral.scan_append hn, Numeral.chars_ne_nil hn⟩

/-- A word and the rest make up the text, and a word has characters. -/
theorem scanWord_append {cs : List Char} {s : Scan} (h : scanWord cs = some s) :
    s.lexeme ++ s.rest = cs ∧ s.lexeme ≠ [] := by
  simp only [scanWord] at h
  split at h
  · cases h
  · rename_i hw
    obtain rfl := Option.some.inj h
    exact ⟨List.takeWhile_append_dropWhile, hw⟩

/-- **A lexeme and the rest make up the text**, and a lexeme has
characters. -/
theorem scan_append {c : Char} {cs : List Char} {s : Scan} (h : scan c cs = .ok s) :
    s.lexeme ++ s.rest = c :: cs ∧ s.lexeme ≠ [] := by
  unfold scan at h
  split at h
  · rename_i s' hs
    obtain rfl := Except.ok.inj h
    exact scanSymbol_append hs
  · split at h
    · split at h
      · rename_i content lexeme rest hs
        obtain rfl := Except.ok.inj h
        exact ⟨by simp [scanString_append hs], by simp⟩
      · cases h
    · split at h
      · rename_i s' hs
        obtain rfl := Except.ok.inj h
        exact scanNumber_append hs
      · split at h
        · rename_i s' hs
          obtain rfl := Except.ok.inj h
          exact scanWord_append hs
        · cases h

/-- What follows a lexeme is shorter than the text. -/
theorem scan_length_lt {c : Char} {cs : List Char} {s : Scan} (h : scan c cs = .ok s) :
    s.rest.length < (c :: cs).length := by
  obtain ⟨happ, hne⟩ := scan_append h
  have hlen := congrArg List.length happ
  have hpos := List.length_pos_iff.2 hne
  rw [List.length_append] at hlen
  omega

/-! ## The whole text -/

/-- The error of a fault at a place. -/
def Fault.toError (position : Nat) : Fault → LexError
  | .unterminated => .unterminatedString position
  | .unexpected c => .unexpectedChar position c

/-- The tokens of a text that starts at an offset, the end of the text as
the last one. -/
def tokensFrom (offset : Nat) (cs : List Char) : Except LexError (List Placed) :=
  let position := offset + Text.byteLength (cs.takeWhile isGap)
  match _hcs : cs.dropWhile isGap with
  | [] => .ok [⟨.eof, position⟩]
  | c :: more =>
    match _h : scan c more with
    | .error fault => .error (fault.toError position)
    | .ok s =>
      match tokensFrom (position + Text.byteLength s.lexeme) s.rest with
      | .error e => .error e
      | .ok tokens => .ok (⟨s.token, position⟩ :: tokens)
termination_by cs.length
decreasing_by
  have h1 := scan_length_lt _h
  have h2 := (List.dropWhile_sublist (l := cs) isGap).length_le
  rw [_hcs] at h2
  omega

end Token

/-- **The tokens of a text**, each at its place, with the end of the text
as the last one. -/
def tokenize (s : String) : Except LexError (List Placed) :=
  Token.tokensFrom 0 s.toList

end DocFilter
