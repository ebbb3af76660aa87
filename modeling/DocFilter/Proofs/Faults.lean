import DocFilter.Proofs.Lexemes
import Mathlib.Algebra.Group.Nat.Even
import Mathlib.Data.List.DropRight

/-!
# Where a text cannot be cut into tokens

A text has no tokens for one of two reasons, and the place that is reported
is where the reason lies. A **string is unclosed** if every quote of its
kind that follows the opening one is escaped, which can be told by counting
the backslashes right before it (`Unclosed`). Any other fault is a
character that **no token starts with**, given what follows it
(`Unexpected`).

Up to the place of the fault the lexer has found tokens, and the text that
ends there has the same ones (`Reached.lexes`). This does not go without
saying, since a lexeme is as long as it can be, and what follows it decides
where it ends: the word `5e` at the head of `5e+3x` would be the beginning
of a number if the text ended before the `x`.
-/

namespace DocFilter

open Decimal (IsNumeral isNumeralChar)

namespace Token

/-! ## Strings that do not end -/

/-- **A character is escaped** if an odd number of backslashes stands right
before it. -/
def IsEscaped (inside : List Char) : Prop :=
  Odd (inside.rtakeWhile (· == '\\')).length

/-- **A string is unclosed** if every quote of its kind is escaped. -/
def Unclosed (quote : Char) (after : List Char) : Prop :=
  ∀ inside more, after = inside ++ quote :: more → IsEscaped inside

/-- A run at the end of a text reaches its first character only if it is
all of it. -/
theorem rtakeWhile_cons (p : Char → Bool) (c : Char) (cs : List Char) :
    (c :: cs).rtakeWhile p
      = if (c :: cs).all p = true then c :: cs else cs.rtakeWhile p := by
  split
  · rename_i hall
    exact List.rtakeWhile_eq_self_iff.mpr (List.all_eq_true.mp hall)
  · rename_i hall
    rw [List.rtakeWhile, List.reverse_cons, List.takeWhile_append]
    split
    · rename_i hlength
      -- everything but the first character is of the run, which is therefore not
      have hrun : ∀ d ∈ cs, p d = true := by
        have hself := (List.takeWhile_prefix p).eq_of_length hlength
        simpa using List.takeWhile_eq_self_iff.mp hself
      have hc : p c = false := by
        rw [List.all_cons, List.all_eq_true.mpr hrun, Bool.and_true] at hall
        exact Bool.eq_false_iff.mpr hall
      rw [List.takeWhile_cons, hc, List.rtakeWhile_eq_self_iff.mpr hrun]
      simp
    · rfl

theorem isEscaped_cons_of_ne {c : Char} (h : c ≠ '\\') (inside : List Char) :
    IsEscaped (c :: inside) ↔ IsEscaped inside := by
  rw [IsEscaped, rtakeWhile_cons, if_neg (by simp [h]), IsEscaped]

/-- **A backslash and the character after it are a pair**, whatever that
character is. -/
theorem isEscaped_cons_cons (d : Char) (inside : List Char) :
    IsEscaped ('\\' :: d :: inside) ↔ IsEscaped inside := by
  by_cases hd : d = '\\'
  · rw [IsEscaped, IsEscaped, rtakeWhile_cons, rtakeWhile_cons, hd]
    by_cases hall : inside.all (· == '\\') = true
    · rw [List.rtakeWhile_eq_self_iff.mpr (List.all_eq_true.mp hall)]
      simp [hall, parity_simps]
    · simp [hall]
  · rw [IsEscaped, rtakeWhile_cons, if_neg (by simp [hd]), ← IsEscaped, isEscaped_cons_of_ne hd]

section Unclosed

variable {quote : Char} (hquote : quote ≠ '\\') {cs : List Char}

theorem unclosed_cons_of_ne {c : Char} (hq : c ≠ quote) (hb : c ≠ '\\') :
    Unclosed quote (c :: cs) ↔ Unclosed quote cs := by
  constructor
  · rintro h inside more rfl
    exact (isEscaped_cons_of_ne hb inside).mp (h (c :: inside) more rfl)
  · rintro h inside more heq
    cases inside with
    | nil => exact absurd (List.cons.inj heq).1 hq
    | cons b inside =>
      obtain ⟨rfl, rfl⟩ := List.cons.inj heq
      exact (isEscaped_cons_of_ne hb inside).mpr (h inside more rfl)

include hquote

theorem unclosed_cons_cons (d : Char) :
    Unclosed quote ('\\' :: d :: cs) ↔ Unclosed quote cs := by
  constructor
  · rintro h inside more rfl
    exact (isEscaped_cons_cons d inside).mp (h ('\\' :: d :: inside) more rfl)
  · rintro h inside more heq
    rcases inside with - | ⟨b, - | ⟨b', inside⟩⟩
    · exact absurd (List.cons.inj heq).1.symm hquote
    · -- the backslash escapes the quote
      obtain rfl := (List.cons.inj heq).1
      exact odd_one
    · simp only [List.cons_append, List.cons.injEq] at heq
      obtain ⟨rfl, rfl, rfl⟩ := heq
      exact (isEscaped_cons_cons d inside).mpr (h inside more rfl)

/-- **A string has no end exactly if it is unclosed.** -/
theorem scanString_eq_none_iff : scanString quote cs = none ↔ Unclosed quote cs := by
  fun_induction scanString quote cs with
  | case1 => simp [Unclosed]
  | case2 cs =>
    simp only [reduceCtorEq, false_iff]
    intro h
    have hopen : IsEscaped [] := h [] cs rfl
    simp [IsEscaped] at hopen
  | case3 =>
    -- a backslash at the end of the text escapes nothing
    simp only [true_iff]
    intro inside more heq
    rcases inside with - | ⟨b, inside⟩
    · exact absurd (List.cons.inj heq).1.symm hquote
    · simp at heq
  | case4 d ds _ ih => rw [Option.map_eq_none_iff, ih, unclosed_cons_cons hquote]
  | case5 c cs hq hb ih => rw [Option.map_eq_none_iff, ih, unclosed_cons_of_ne hq hb]

end Unclosed

-- A quote and a backslash that are both escaped, and a second escaped quote.
example : Unclosed '\'' ['a', '\\', '\'', '\\', '\\', '\\', '\''] :=
  (scanString_eq_none_iff (by decide)).mp rfl

/-! ## Characters that start no token -/

/-- **A character that no token starts with**, given what follows it. -/
structure Unexpected (c : Char) (after : List Char) : Prop where
  /-- It is not part of a gap. -/
  not_gap : isGap c = false
  /-- It is not part of a word. -/
  not_word : isWordChar c = false
  /-- It does not open a string. -/
  not_quote : isQuote c = false
  /-- It is not a symbol. -/
  not_symbol : c ∉ ['=', '<', '>', '~', '(', ')', ',']
  /-- It is not the first of two characters that are a symbol. -/
  not_two : c = '!' → after.head? ≠ some '='
  /-- It is not the sign of a number. A number that a word character
  follows is none. -/
  not_sign : c = '+' ∨ c = '-' → ∀ spelling rest, c :: after = spelling ++ rest →
    IsNumeral spelling → ∃ d, rest.head? = some d ∧ isWordChar d = true

/-- Where no symbol is scanned, there is no symbol. -/
theorem not_symbol_of_scanSymbol {c : Char} {after : List Char}
    (h : scanSymbol (c :: after) = none) :
    c ∉ ['=', '<', '>', '~', '(', ')', ','] ∧ (c = '!' → after.head? ≠ some '=') := by
  unfold scanSymbol at h
  split at h
  case h_11 hne _ _ heq hlt hgt htilde hopen hclose hcomma =>
    constructor
    · intro hmem
      simp only [List.mem_cons, List.not_mem_nil, or_false] at hmem
      rcases hmem with rfl | rfl | rfl | rfl | rfl | rfl | rfl
      · exact heq after rfl
      · exact hlt after rfl
      · exact hgt after rfl
      · exact htilde after rfl
      · exact hopen after rfl
      · exact hclose after rfl
      · exact hcomma after rfl
    · rintro rfl hhead
      obtain ⟨more, rfl⟩ := List.head?_eq_some_iff.mp hhead
      exact hne more rfl
  all_goals cases h

/-- Where no word is scanned, there is no word character. -/
theorem isWordChar_of_scanWord {c : Char} {after : List Char}
    (h : scanWord (c :: after) = none) : isWordChar c = false := by
  cases hc : isWordChar c with
  | false => rfl
  | true => simp [scanWord, hc] at h

/-- **What it means that no token is scanned**: every kind of token was
tried. -/
theorem scan_eq_error {c : Char} {after : List Char} {fault : Fault}
    (h : scan c after = .error fault) :
    (fault = .unterminated ∧ isQuote c = true ∧ scanString c after = none)
      ∨ (fault = .unexpected c ∧ isQuote c = false ∧ scanSymbol (c :: after) = none
        ∧ scanNumber (c :: after) = none ∧ scanWord (c :: after) = none) := by
  unfold scan at h
  split at h
  · cases h
  · rename_i hsymbol
    split at h
    · rename_i hq
      split at h
      · cases h
      · rename_i hstring
        exact .inl ⟨(Except.error.inj h).symm, hq, hstring⟩
    · rename_i hq
      split at h
      · cases h
      · rename_i hnumber
        split at h
        · cases h
        · rename_i hword
          exact .inr ⟨(Except.error.inj h).symm, Bool.eq_false_iff.mpr hq, hsymbol, hnumber, hword⟩

/-- **The faults**: a string that is unclosed, and a character that no
token starts with. -/
theorem fault_of_scan {c : Char} {after : List Char} {fault : Fault} (hgap : isGap c = false)
    (h : scan c after = .error fault) :
    (fault = .unterminated ∧ isQuote c = true ∧ Unclosed c after)
      ∨ (fault = .unexpected c ∧ Unexpected c after) := by
  rcases scan_eq_error h with ⟨rfl, hq, hstring⟩ | ⟨rfl, hq, hsymbol, hnumber, hword⟩
  · have hne : c ≠ '\\' := by
      rintro rfl
      exact absurd hq (by decide)
    exact .inl ⟨rfl, hq, (scanString_eq_none_iff hne).mp hstring⟩
  · obtain ⟨hsingle, htwo⟩ := not_symbol_of_scanSymbol hsymbol
    refine .inr ⟨rfl, hgap, isWordChar_of_scanWord hword, hq, hsingle, htwo, ?_⟩
    intro _ spelling rest hsplit hnum
    by_contra hnext
    -- nothing goes on with the number, so it would have been scanned
    have hend : ∀ d, rest.head? = some d → isWordChar d = false := fun d hd =>
      Bool.eq_false_iff.mpr fun hd' => hnext ⟨d, hd, hd'⟩
    rw [hsplit, scanNumber_of_isNumeral hnum hend] at hnumber
    cases hnumber

/-! ## What was scanned before -/

/-- What starts like a number is a word or a number. -/
theorem IsLexeme.isRun_of_head {t : Token} {c : Char} {cs : List Char} (h : IsLexeme t (c :: cs))
    (hc : isNumeralChar c = true) : t.isRun = true := by
  obtain ⟨hsymbol, hquote⟩ := not_symbol_of_isRun (.inr hc)
  generalize hlexeme : c :: cs = lexeme at h
  cases h with
  | relation r =>
    cases r <;>
      (obtain ⟨rfl, -⟩ := List.cons.inj hlexeme; exact absurd hsymbol (by decide))
  | pattern | openParen | closeParen | comma =>
    obtain ⟨rfl, -⟩ := List.cons.inj hlexeme
    exact absurd hsymbol (by decide)
  | text hq _ =>
    obtain ⟨rfl, -⟩ := List.cons.inj hlexeme
    rw [hq] at hquote
    cases hquote
  | keyword _ | bool _ | null _ | number _ | word _ => rfl

theorem isNumeral_of_scanNumber {cs : List Char} {s : Scan} (h : scanNumber cs = some s) :
    IsNumeral s.lexeme := by
  unfold scanNumber at h
  split at h
  · cases h
  · rename_i n rest hscan
    split at h
    · cases h
    · obtain rfl := Option.some.inj h
      exact ⟨n, Decimal.Numeral.spelled_of_scan hscan, rfl⟩

/-- **A number is scanned before any other token** is tried. -/
theorem scan_of_scanNumber {c : Char} {cs : List Char} {s : Scan}
    (h : scanNumber (c :: cs) = some s) : scan c cs = .ok s := by
  obtain ⟨happ, hne⟩ := scanNumber_append h
  obtain ⟨d, ds, hlexeme⟩ := List.exists_cons_of_ne_nil hne
  have hd : isNumeralChar d = true :=
    (isNumeral_of_scanNumber h).chars d (hlexeme ▸ List.mem_cons_self)
  rw [hlexeme] at happ
  obtain rfl := (List.cons.inj happ).1
  obtain ⟨hsymbol, hquote⟩ := not_symbol_of_isRun (.inr hd)
  rw [scan, scanSymbol_eq_none hsymbol, hquote, h]
  rfl

/-- **A token that is scanned ends where it does.** -/
theorem ends_of_scan {c : Char} {cs rest : List Char} {t : Token}
    (h : scan c (cs ++ rest) = .ok ⟨t, c :: cs, rest⟩) : Ends t (c :: cs) rest where
  run := (isLexeme_of_scan h).2
  symbol := by
    intro hopen hhead
    obtain ⟨more, rfl⟩ := List.head?_eq_some_iff.mp hhead
    have hlexeme : IsLexeme t (c :: cs) := (isLexeme_of_scan h).1
    generalize hcs : c :: cs = lexeme at hlexeme
    -- the longer symbol would have been scanned
    cases hlexeme with
    | relation r =>
      cases r with
      | lt | gt =>
        obtain ⟨rfl, rfl⟩ := List.cons.inj hcs
        cases h
      | eq | ne | le | ge => cases hopen
    | _ => cases hopen
  number := by
    intro hrun hn
    cases hnumber : scanNumber (c :: cs ++ rest) with
    | none => rfl
    | some s =>
      obtain rfl : s = ⟨t, c :: cs, rest⟩ :=
        Except.ok.inj ((scan_of_scanNumber hnumber).symm.trans h)
      exact absurd (isNumeral_of_scanNumber hnumber) hn

/-- **A lexeme ends where the text is cut off**, if it ended before. There
is one thing to see to: where the text goes on like a number up to the cut,
no word character may stand behind it. -/
theorem Ends.cut {t : Token} {lexeme before rest : List Char} (h : Ends t lexeme (before ++ rest))
    (hcut : before ≠ [] → (∀ c ∈ before, isNumeralChar c = true) →
      ∀ c, rest.head? = some c → isWordChar c = false) : Ends t lexeme before where
  run hrun c hc := h.run hrun c (by rw [List.head?_append, hc]; rfl)
  symbol hopen hhead := h.symbol hopen (by rw [List.head?_append, hhead]; rfl)
  number hrun hn := by
    cases hnumber : scanNumber (lexeme ++ before) with
    | none => rfl
    | some s =>
      have happ := (scanNumber_append hnumber).1
      have hnum := isNumeral_of_scanNumber hnumber
      -- the same number is there when the text goes on
      have hnext : ∀ c, (s.rest ++ rest).head? = some c → isWordChar c = false := by
        intro c hc
        cases hrest : s.rest with
        | cons d more =>
          refine (isLexeme_of_scanNumber hnumber).2 c ?_
          rw [hrest] at hc ⊢
          exact hc
        | nil =>
          rw [hrest, List.append_nil] at happ
          rw [hrest, List.nil_append] at hc
          have hbefore : before ≠ [] := by
            rintro rfl
            rw [List.append_nil] at happ
            exact hn (happ ▸ hnum)
          refine hcut hbefore (fun d hd => hnum.chars d ?_) c hc
          rw [happ]
          exact List.mem_append_right lexeme hd
      have hfull := scanNumber_of_isNumeral hnum hnext
      rw [← List.append_assoc, happ, List.append_assoc, h.number hrun hn] at hfull
      cases hfull

/-! ## Getting to a place -/

/-- **The lexer gets to a place**: the text before it is a gap, or a gap, a
lexeme and what is left, where lexemes are scanned with the rest of the
text in sight. -/
inductive Reached (rest : List Char) : List Char → List Token → Prop where
  /-- There is nothing but a gap. -/
  | gap {gap : List Char} (hgap : ∀ c ∈ gap, isGap c = true) : Reached rest gap []
  /-- A gap, a lexeme, and what is left. -/
  | token {gap cs before : List Char} {c : Char} {t : Token} {ts : List Token}
    (hgap : ∀ c ∈ gap, isGap c = true) (hc : isGap c = false)
    (hscan : scan c (cs ++ (before ++ rest)) = .ok ⟨t, c :: cs, before ++ rest⟩)
    (h : Reached rest before ts) : Reached rest (gap ++ c :: (cs ++ before)) (t :: ts)

/-- Where the text goes on like a number up to a place, no word character
stands there, since it would go on with the last lexeme. -/
theorem Reached.not_isWordChar {rest before : List Char} {ts : List Token}
    (h : Reached rest before ts) (hne : before ≠ [])
    (hchars : ∀ c ∈ before, isNumeralChar c = true) :
    ∀ c, rest.head? = some c → isWordChar c = false := by
  induction h with
  | @gap gap hgap =>
    obtain ⟨c, hc⟩ := List.exists_mem_of_ne_nil gap hne
    have hnot := (not_of_isDelimiter (c := c) (by simp [isDelimiter, hgap c hc])).2.1
    rw [hchars c hc] at hnot
    cases hnot
  | @token gap cs before c t ts hgap hc hscan h ih =>
    simp only [List.forall_mem_append, List.forall_mem_cons] at hchars
    obtain ⟨-, hhead, -, hbefore⟩ := hchars
    cases before with
    | cons b before => exact ih (List.cons_ne_nil b before) hbefore
    | nil =>
      obtain ⟨hlexeme, hend⟩ := isLexeme_of_scan hscan
      exact hend (hlexeme.isRun_of_head hhead)

/-- **The text before a place has the tokens that were found there.** -/
theorem Reached.lexes {rest before : List Char} {ts : List Token} (h : Reached rest before ts) :
    Lexes before ts := by
  induction h with
  | @gap gap hgap =>
    refine .gap ?_
    have hdrop := Text.dropWhile_run (b := []) hgap (by simp)
    rwa [List.append_nil] at hdrop
  | @token gap cs before c t ts hgap hc hscan h ih =>
    have hend := (ends_of_scan hscan).cut h.not_isWordChar
    refine .token (s := ⟨t, c :: cs, before⟩) ?_
      (scan_of_ends (isLexeme_of_scan hscan).1 hend) ih
    refine Text.dropWhile_run hgap fun d hd => ?_
    obtain rfl := Option.some.inj hd
    exact hc

/-- A gap and what follows it. -/
theorem gap_append {cs more : List Char} {c : Char} (h : cs.dropWhile isGap = c :: more) :
    cs = cs.takeWhile isGap ++ c :: more ∧ (∀ d ∈ cs.takeWhile isGap, isGap d = true)
      ∧ isGap c = false := by
  refine ⟨?_, List.all_eq_true.mp List.all_takeWhile, ?_⟩
  · rw [← h, List.takeWhile_append_dropWhile]
  · have hnot := List.head?_dropWhile_not isGap cs
    rwa [h] at hnot

/-- **The lexer gets to the place of the error**, and finds a fault there. -/
theorem tokensFrom_eq_error {offset : Nat} {cs : List Char} {err : LexError}
    (h : tokensFrom offset cs = .error err) :
    ∃ before c after fault ts, cs = before ++ c :: after ∧ isGap c = false
      ∧ scan c after = .error fault ∧ err = fault.toError (offset + Text.byteLength before)
      ∧ Reached (c :: after) before ts := by
  fun_induction tokensFrom offset cs with
  | case1 => cases h
  | case2 offset cs position c more hcs fault hscan =>
    obtain ⟨hsplit, hgap, hc⟩ := gap_append hcs
    exact ⟨_, c, more, fault, [], hsplit, hc, hscan, (Except.error.inj h).symm, .gap hgap⟩
  | case3 offset cs position c more hcs s hscan err' herr ih =>
    obtain rfl := Except.error.inj h
    obtain ⟨hsplit, hgap, hc⟩ := gap_append hcs
    obtain ⟨before, d, after, fault, ts, hrest, hd, hfault, herr', hreached⟩ := ih herr
    obtain ⟨t, lexeme, rest⟩ := s
    obtain ⟨happ, hne⟩ := scan_append hscan
    obtain ⟨b, lexeme, rfl⟩ := List.exists_cons_of_ne_nil hne
    obtain ⟨rfl, rfl⟩ := List.cons.inj happ
    obtain rfl : rest = before ++ d :: after := hrest
    refine ⟨cs.takeWhile isGap ++ b :: (lexeme ++ before), d, after, fault, t :: ts, ?_, hd, hfault,
      ?_, .token hgap hc hscan hreached⟩
    · rw [List.append_assoc, List.cons_append, List.append_assoc]
      exact hsplit
    · rw [herr', ← List.cons_append, Text.byteLength_append,
        Text.byteLength_append, ← Nat.add_assoc, ← Nat.add_assoc]
  | case4 => cases h

end Token

/-- **Errors are located exactly.** A text that has no tokens splits at a
character, whose offset is the place of the error and lies before the end
of the text. The text before it has tokens. Either the character opens a
string that is unclosed, or no token starts with it, and the error says
which. -/
theorem tokenize_error_located (s : String) (err : LexError) (h : tokenize s = .error err) :
    ∃ before c after, s.toList = before ++ c :: after
      ∧ (String.ofList before).utf8ByteSize < s.utf8ByteSize
      ∧ (∃ placed, tokenize (String.ofList before) = .ok placed)
      ∧ ((err = .unterminatedString (String.ofList before).utf8ByteSize
          ∧ Token.isQuote c = true ∧ Token.Unclosed c after)
        ∨ (err = .unexpectedChar (String.ofList before).utf8ByteSize c
          ∧ Token.Unexpected c after)) := by
  obtain ⟨before, c, after, fault, ts, hsplit, hgap, hscan, rfl, hreached⟩ :=
    Token.tokensFrom_eq_error h
  have hplace : 0 + Text.byteLength before = (String.ofList before).utf8ByteSize := by
    rw [Nat.zero_add, ← Text.byteLength_toList, String.toList_ofList]
  refine ⟨before, c, after, hsplit, ?_, ?_, ?_⟩
  · rw [← hplace, ← Text.byteLength_toList, hsplit, Text.byteLength_append, Text.byteLength_cons]
    have hsize := c.utf8Size_pos
    omega
  · obtain ⟨placed, hplaced, -⟩ := Token.lexes_iff.mp hreached.lexes
    exact ⟨placed, by rw [tokenize, String.toList_ofList]; exact hplaced⟩
  · rw [hplace]
    rcases Token.fault_of_scan hgap hscan with ⟨rfl, hq, hopen⟩ | ⟨rfl, hunexpected⟩
    · exact .inl ⟨rfl, hq, hopen⟩
    · exact .inr ⟨rfl, hunexpected⟩

/-- A word that would be the beginning of a number but for the `x`, and so
a sign that no number follows. The `é` takes two bytes. -/
theorem tokenize_error_located_sign :
    tokenize "a='é'5e+3x" = .error (.unexpectedChar 8 '+')
    ∧ ∃ before after, "a='é'5e+3x".toList = before ++ '+' :: after
      ∧ (String.ofList before).utf8ByteSize = 8
      ∧ (∃ placed, tokenize (String.ofList before) = .ok placed) ∧ Token.Unexpected '+' after := by
  have herr : tokenize "a='é'5e+3x" = .error (.unexpectedChar 8 '+') := by cbv
  obtain ⟨before, c, after, hsplit, -, hplaced, ⟨hstring, -⟩ | ⟨hplace, hunexpected⟩⟩ :=
    tokenize_error_located _ _ herr
  · cases hstring
  · obtain ⟨hsize, rfl⟩ := LexError.unexpectedChar.inj hplace
    exact ⟨herr, before, after, hsplit, hsize.symm, hplaced, hunexpected⟩

end DocFilter
