import DocFilter.Proofs.Numerals

/-!
# How tokens are written

A token stands in a text as its **lexeme**, and which lexemes it has is
said here without the lexer (`Token.IsLexeme`): a symbol, a reserved word
in any case of its letters, a plain word, a numeral, or a text in quotes
in which a backslash may stand before a quote or a backslash
(`Token.Quoted`).

The lexer cuts a text into lexemes and gaps and nothing else, with every
token at the offset of its lexeme (`tokenize_cut`), and a word or a
numeral is never cut short. The other way round, tokens that are written
with a gap between them come back as they were (`tokenize_rendered`). Both
rest on one fact about single lexemes, in two directions: what is scanned
is a lexeme of its token (`Token.isLexeme_of_scan`), and a lexeme is
scanned as its token where nothing goes on with it (`Token.scan_of_ends`),
as before a gap, a parenthesis or a comma.
-/

namespace DocFilter

open Decimal (IsNumeral Numeral)

namespace Token

/-! ## Lexemes -/

/-- The words that are no plain words: keywords, and literals that are
words. -/
def reservedWords : List String :=
  ["and", "or", "not", "type", "true", "false", "null"]

/-- **A plain word**: word characters that spell neither a reserved word,
in any case of its letters, nor a number. -/
structure IsPlainWord (cs : List Char) : Prop where
  /-- It has a character. -/
  ne_nil : cs ≠ []
  /-- It has word characters only. -/
  chars : ∀ c ∈ cs, isWordChar c = true
  /-- It is not reserved. -/
  not_reserved : Text.lowerCase (String.ofList cs) ∉ reservedWords
  /-- It is not a number. -/
  not_numeral : ¬ IsNumeral cs

/-- **A text between quotes**: its content, and the characters that it is
written with. A backslash goes away before the quote and before another
backslash, and stays before any other character. -/
inductive Quoted (quote : Char) : List Char → List Char → Prop where
  /-- Nothing is written. -/
  | nil : Quoted quote [] []
  /-- A character that stands for itself. -/
  | plain {c : Char} {content chars : List Char} (hq : c ≠ quote) (hb : c ≠ '\\')
    (h : Quoted quote content chars) : Quoted quote (c :: content) (c :: chars)
  /-- The quote or a backslash, behind a backslash. -/
  | escaped {c : Char} {content chars : List Char} (hc : c = quote ∨ c = '\\')
    (h : Quoted quote content chars) : Quoted quote (c :: content) ('\\' :: c :: chars)
  /-- A backslash that stands before any other character. -/
  | kept {c : Char} {content chars : List Char} (hc : ¬ (c = quote ∨ c = '\\'))
    (h : Quoted quote content chars) : Quoted quote ('\\' :: c :: content) ('\\' :: c :: chars)

/-- **The lexemes of a token.** The end of the text has none. -/
inductive IsLexeme : Token → List Char → Prop where
  /-- A relation is written as its symbol. -/
  | relation (r : Relation) : IsLexeme (.relation r) r.symbol.toList
  /-- So is the pattern symbol. -/
  | pattern : IsLexeme .pattern ['~']
  /-- So is a parenthesis. -/
  | openParen : IsLexeme .openParen ['(']
  /-- So is a closing one. -/
  | closeParen : IsLexeme .closeParen [')']
  /-- So is a comma. -/
  | comma : IsLexeme .comma [',']
  /-- A keyword is written in any case of its letters. -/
  | keyword {k : Keyword} {cs : List Char} (h : Text.lowerCase (String.ofList cs) = k.word) :
    IsLexeme (.keyword k) cs
  /-- So is a truth value. -/
  | bool {b : Bool} {cs : List Char}
    (h : Text.lowerCase (String.ofList cs) = if b then "true" else "false") :
    IsLexeme (.literal (.bool b)) cs
  /-- So is the null value. -/
  | null {cs : List Char} (h : Text.lowerCase (String.ofList cs) = "null") :
    IsLexeme (.literal .null) cs
  /-- A number is written as it is spelled. -/
  | number {cs : List Char} (h : IsNumeral cs) :
    IsLexeme (.literal (.number (String.ofList cs))) cs
  /-- A text is written in quotes of either kind. -/
  | text {quote : Char} {content chars : List Char} (hq : isQuote quote = true)
    (h : Quoted quote content chars) :
    IsLexeme (.literal (.text (String.ofList content))) (quote :: (chars ++ [quote]))
  /-- A plain word is written as it is. -/
  | word {cs : List Char} (h : IsPlainWord cs) : IsLexeme (.word (String.ofList cs)) cs

/-- Whether a token is written as a run of characters, a word or a number,
and so has to end where another character could go on with it. -/
def isRun : Token → Bool
  | .word _ => true
  | .keyword _ => true
  | .literal (.text _) => false
  | .literal _ => true
  | _ => false

/-! ## Letters -/

/-- A letter in upper case is a letter. -/
theorem isAlpha_of_isAlpha_toLower {c : Char} (h : c.toLower.isAlpha = true) :
    c.isAlpha = true := by
  unfold Char.toLower at h
  split at h
  · rename_i hupper
    have hisUpper : c.isUpper = true := by simpa [Char.isUpper] using hupper
    simp [Char.isAlpha, hisUpper]
  · exact h

/-- **A reserved word has letters only.** -/
theorem isAlpha_of_reserved {cs : List Char}
    (h : Text.lowerCase (String.ofList cs) ∈ reservedWords) : ∀ c ∈ cs, c.isAlpha = true := by
  have hletters : ∀ w ∈ reservedWords, w.toList.all Char.isAlpha = true := by decide
  intro c hc
  refine isAlpha_of_isAlpha_toLower (List.all_eq_true.mp (hletters _ h) _ ?_)
  simp only [Text.lowerCase, String.toList_ofList]
  exact List.mem_map_of_mem hc

theorem isWordChar_of_isAlpha {c : Char} (h : c.isAlpha = true) : isWordChar c = true := by
  simp [isWordChar, Char.isAlphanum, h]

/-- A letter is not a digit. -/
theorem isDigit_of_isAlpha {c : Char} (h : c.isAlpha = true) : c.isDigit = false := by
  simp only [Char.isAlpha, Char.isUpper, Char.isLower, Char.isDigit, Bool.or_eq_true,
    Bool.and_eq_true, decide_eq_true_eq, Bool.and_eq_false_iff, decide_eq_false_iff_not,
    ge_iff_le, UInt32.le_iff_toNat_le] at h ⊢
  simp at h ⊢
  omega

/-- **A reserved word is not a number.** -/
theorem not_isNumeral_of_reserved {cs : List Char}
    (h : Text.lowerCase (String.ofList cs) ∈ reservedWords) : ¬ IsNumeral cs := by
  intro hn
  obtain ⟨d, hd, hdigit⟩ := hn.exists_digit
  rw [isDigit_of_isAlpha (isAlpha_of_reserved h d hd)] at hdigit
  cases hdigit

/-- A word that is not a number has word characters only. -/
theorem IsLexeme.isWordChar_of_not_isNumeral {t : Token} {lexeme : List Char}
    (h : IsLexeme t lexeme) (hrun : t.isRun = true) (hn : ¬ IsNumeral lexeme) :
    ∀ c ∈ lexeme, isWordChar c = true := by
  have hreserved : Text.lowerCase (String.ofList lexeme) ∈ reservedWords →
      ∀ c ∈ lexeme, isWordChar c = true :=
    fun hmem c hc => isWordChar_of_isAlpha (isAlpha_of_reserved hmem c hc)
  cases h with
  | relation _ | pattern | openParen | closeParen | comma | text _ _ => cases hrun
  | @keyword k _ hword => exact hreserved (by rw [hword]; cases k <;> decide)
  | @bool b _ hword => exact hreserved (by rw [hword]; cases b <;> decide)
  | null hword => exact hreserved (by rw [hword]; decide)
  | number hnum => exact absurd hnum hn
  | word hword => exact hword.chars

/-! ## What is scanned is a lexeme -/

/-- **A word is a lexeme**, of a reserved word or of a plain one. -/
theorem isLexeme_ofWord {cs : List Char} (hne : cs ≠ []) (hc : ∀ c ∈ cs, isWordChar c = true)
    (hn : ¬ IsNumeral cs) : IsLexeme (ofWord (String.ofList cs)) cs := by
  unfold ofWord
  split
  · exact .keyword ‹_›
  · exact .keyword ‹_›
  · exact .keyword ‹_›
  · exact .keyword ‹_›
  · exact .bool ‹_›
  · exact .bool ‹_›
  · exact .null ‹_›
  · refine .word ⟨hne, hc, ?_, hn⟩
    simp_all [reservedWords]

/-- A string that is scanned is in quotes. -/
theorem quoted_of_scanString {quote : Char} {cs content lexeme rest : List Char}
    (h : scanString quote cs = some (content, lexeme, rest)) :
    ∃ chars, lexeme = chars ++ [quote] ∧ Quoted quote content chars := by
  fun_induction scanString quote cs generalizing content lexeme rest with
  | case1 => cases h
  | case2 cs =>
    simp only [Option.some.injEq, Prod.mk.injEq] at h
    obtain ⟨rfl, rfl, -⟩ := h
    exact ⟨[], rfl, .nil⟩
  | case3 => cases h
  | case4 d ds _ ih =>
    simp only [Option.map_eq_some_iff, Prod.mk.injEq] at h
    obtain ⟨⟨content, lexeme, rest⟩, hs, rfl, rfl, rfl⟩ := h
    obtain ⟨chars, rfl, hquoted⟩ := ih hs
    refine ⟨'\\' :: d :: chars, rfl, ?_⟩
    unfold unescape
    split
    · exact .escaped ‹_› hquoted
    · exact .kept ‹_› hquoted
  | case5 c cs hq hb ih =>
    simp only [Option.map_eq_some_iff, Prod.mk.injEq] at h
    obtain ⟨⟨content, lexeme, rest⟩, hs, rfl, rfl, rfl⟩ := h
    obtain ⟨chars, rfl, hquoted⟩ := ih hs
    exact ⟨c :: chars, rfl, .plain hq hb hquoted⟩

/-- A symbol that is scanned is that of its token. -/
theorem isLexeme_of_scanSymbol {cs : List Char} {s : Scan} (h : scanSymbol cs = some s) :
    IsLexeme s.token s.lexeme ∧ s.token.isRun = false := by
  unfold scanSymbol at h
  split at h
  case h_11 => cases h
  case h_7 =>
    obtain rfl := Option.some.inj h
    exact ⟨.pattern, rfl⟩
  case h_8 =>
    obtain rfl := Option.some.inj h
    exact ⟨.openParen, rfl⟩
  case h_9 =>
    obtain rfl := Option.some.inj h
    exact ⟨.closeParen, rfl⟩
  case h_10 =>
    obtain rfl := Option.some.inj h
    exact ⟨.comma, rfl⟩
  all_goals
    obtain rfl := Option.some.inj h
    exact ⟨.relation _, rfl⟩

/-- A number that is scanned is a numeral and runs into no word. -/
theorem isLexeme_of_scanNumber {cs : List Char} {s : Scan} (h : scanNumber cs = some s) :
    IsLexeme s.token s.lexeme ∧ ∀ c, s.rest.head? = some c → isWordChar c = false := by
  unfold scanNumber at h
  split at h
  · cases h
  · rename_i n rest hscan
    split at h
    · cases h
    · rename_i hend
      obtain rfl := Option.some.inj h
      refine ⟨.number ⟨n, Numeral.spelled_of_scan hscan, rfl⟩, fun c hc => ?_⟩
      have hc : rest.head? = some c := hc
      rw [hc] at hend
      exact Bool.not_eq_true _ ▸ hend

/-- What follows a run of word characters is none. -/
theorem head_dropWhile_isWordChar (cs : List Char) (c : Char)
    (hc : (cs.dropWhile isWordChar).head? = some c) : isWordChar c = false := by
  have hnot := List.head?_dropWhile_not isWordChar cs
  rw [hc] at hnot
  exact hnot

/-- A numeral that no word character follows is scanned as a number. -/
theorem scanNumber_of_isNumeral {cs rest : List Char} (h : IsNumeral cs)
    (hrest : ∀ c, rest.head? = some c → isWordChar c = false) :
    scanNumber (cs ++ rest) = some ⟨.literal (.number (String.ofList cs)), cs, rest⟩ := by
  obtain ⟨n, hn, rfl⟩ := h
  have hend : Decimal.EndsNumeral rest := by
    intro c hc
    have hword := hrest c hc
    simp only [isWordChar, Char.isAlphanum, Bool.or_eq_false_iff, beq_eq_false_iff_ne] at hword
    simp only [Decimal.continuesNumeral, Bool.or_eq_false_iff, beq_eq_false_iff_ne]
    refine ⟨⟨⟨hword.1.1.2, hword.2⟩, ?_⟩, ?_⟩
    · rintro rfl
      exact absurd hword.1.1.1 (by decide)
    · rintro rfl
      exact absurd hword.1.1.1 (by decide)
  have hnext : rest.head?.any isWordChar = false := by
    cases hhead : rest.head? with
    | none => rfl
    | some c => exact hrest c hhead
  unfold scanNumber
  rw [Numeral.scan_chars_append hn hend]
  dsimp only
  rw [hnext]
  rfl

/-- A word that is scanned, where there is no number, is a lexeme. -/
theorem isLexeme_of_scanWord {cs : List Char} {s : Scan} (hn : scanNumber cs = none)
    (h : scanWord cs = some s) :
    IsLexeme s.token s.lexeme ∧ ∀ c, s.rest.head? = some c → isWordChar c = false := by
  by_cases hnil : cs.takeWhile isWordChar = []
  · rw [scanWord, if_pos hnil] at h
    cases h
  · rw [scanWord, if_neg hnil] at h
    obtain rfl := Option.some.inj h
    have hend := head_dropWhile_isWordChar cs
    refine ⟨isLexeme_ofWord hnil (List.all_eq_true.mp List.all_takeWhile) (fun hnum => ?_), hend⟩
    -- as a numeral, the word would have been scanned as a number
    have hscan := scanNumber_of_isNumeral hnum hend
    rw [List.takeWhile_append_dropWhile, hn] at hscan
    cases hscan

/-- **What is scanned is a lexeme of its token**, and no word character
follows a word or a number. -/
theorem isLexeme_of_scan {c : Char} {cs : List Char} {s : Scan} (h : scan c cs = .ok s) :
    IsLexeme s.token s.lexeme
      ∧ (s.token.isRun = true → ∀ d, s.rest.head? = some d → isWordChar d = false) := by
  unfold scan at h
  split at h
  · rename_i s' hs
    obtain rfl := Except.ok.inj h
    obtain ⟨hlexeme, hrun⟩ := isLexeme_of_scanSymbol hs
    exact ⟨hlexeme, fun ht => absurd (hrun.symm.trans ht) Bool.noConfusion⟩
  · split at h
    · rename_i hq
      split at h
      · rename_i content lexeme rest hs
        obtain rfl := Except.ok.inj h
        obtain ⟨chars, rfl, hquoted⟩ := quoted_of_scanString hs
        exact ⟨.text hq hquoted, fun ht => by cases ht⟩
      · cases h
    · split at h
      · rename_i s' hs
        obtain rfl := Except.ok.inj h
        obtain ⟨hlexeme, hend⟩ := isLexeme_of_scanNumber hs
        exact ⟨hlexeme, fun _ => hend⟩
      · rename_i hn
        split at h
        · rename_i s' hs
          obtain rfl := Except.ok.inj h
          obtain ⟨hlexeme, hend⟩ := isLexeme_of_scanWord hn hs
          exact ⟨hlexeme, fun _ => hend⟩
        · cases h

/-! ## A lexeme is scanned -/

/-- A character that ends every lexeme but a string, which ends by
itself: one of a gap, a parenthesis or a comma. -/
def isDelimiter (c : Char) : Bool :=
  isGap c || c == '(' || c == ')' || c == ','

/-- **What follows a lexeme and cannot go on with it.** -/
def EndsLexeme (rest : List Char) : Prop :=
  ∀ c, rest.head? = some c → isDelimiter c = true

/-- A delimiter is part of no word and of no number, and it completes no
symbol. -/
theorem not_of_isDelimiter {c : Char} (h : isDelimiter c = true) :
    isWordChar c = false ∧ Decimal.isNumeralChar c = false ∧ c ≠ '=' := by
  simp only [isDelimiter, isGap, Bool.or_eq_true, beq_iff_eq] at h
  rcases h with (((((rfl | rfl) | rfl) | rfl) | rfl) | rfl) | rfl <;> decide

/-- The characters that symbols start with. -/
def symbolStarts : List Char := ['!', '<', '>', '=', '~', '(', ')', ',']

theorem scanSymbol_eq_none {c : Char} (hc : c ∉ symbolStarts) (cs : List Char) :
    scanSymbol (c :: cs) = none := by
  unfold scanSymbol
  split
  case h_11 => rfl
  all_goals
    rename_i heq
    obtain ⟨rfl, -⟩ := List.cons.inj heq
    exact absurd hc (by decide)

/-- Words and numbers do not start like symbols or strings. -/
theorem not_symbol_of_isRun {c : Char}
    (h : isWordChar c = true ∨ Decimal.isNumeralChar c = true) :
    c ∉ symbolStarts ∧ isQuote c = false := by
  have hstart : ('"' :: '\'' :: symbolStarts).all
      (fun d => !isWordChar d && !Decimal.isNumeralChar d) = true := by
    decide
  have hnot : c ∉ '"' :: '\'' :: symbolStarts := by
    intro hmem
    have hneither := List.all_eq_true.mp hstart c hmem
    simp only [Bool.and_eq_true, Bool.not_eq_true'] at hneither
    rw [hneither.1, hneither.2] at h
    simp at h
  simp only [List.mem_cons, not_or] at hnot
  refine ⟨hnot.2.2, ?_⟩
  simp [isQuote, hnot.1, hnot.2.1]

/-- **A word is not scanned as a number**, unless it is one as a whole. -/
theorem scanNumber_eq_none {cs rest : List Char} (hc : ∀ c ∈ cs, isWordChar c = true)
    (hn : ¬ IsNumeral cs) (hrest : EndsLexeme rest) : scanNumber (cs ++ rest) = none := by
  unfold scanNumber
  cases hscan : Numeral.scan (cs ++ rest) with
  | none => rfl
  | some r =>
    obtain ⟨n, after⟩ := r
    have hnum : IsNumeral n.chars := ⟨n, Numeral.spelled_of_scan hscan, rfl⟩
    refine if_pos ?_
    -- the numeral at the head ends inside the word, since it is not all of it
    rcases List.append_eq_append_iff.mp (Numeral.scan_append hscan) with
      ⟨more, hword, rfl⟩ | ⟨more, hchars, rfl⟩
    · cases more with
      | nil =>
        rw [List.append_nil] at hword
        exact absurd (hword ▸ hnum) hn
      | cons d more => exact hc d (by rw [hword]; simp)
    · cases more with
      | nil =>
        rw [List.append_nil] at hchars
        exact absurd (hchars ▸ hnum) hn
      | cons d more =>
        -- it cannot go on past the word, since what follows is in no numeral
        have hd := hnum.chars d (by rw [hchars]; simp)
        rw [(not_of_isDelimiter (hrest d rfl)).2.1] at hd
        cases hd

/-- **A word is scanned as a word**, if no number is scanned there. -/
theorem scan_of_word {c : Char} {cs rest : List Char}
    (hc : ∀ d ∈ c :: cs, isWordChar d = true) (hnumber : scanNumber (c :: cs ++ rest) = none)
    (hnext : ∀ d, rest.head? = some d → isWordChar d = false) :
    scan c (cs ++ rest) = .ok ⟨ofWord (String.ofList (c :: cs)), c :: cs, rest⟩ := by
  obtain ⟨hsymbol, hquote⟩ := not_symbol_of_isRun (.inl (hc c List.mem_cons_self))
  have htake := Text.takeWhile_run hc hnext
  have hdrop := Text.dropWhile_run hc hnext
  rw [List.cons_append] at hnumber htake hdrop
  unfold scan scanWord
  rw [scanSymbol_eq_none hsymbol, hquote, hnumber, htake, hdrop]
  rfl

/-- **A numeral is scanned as a number.** -/
theorem scan_of_isNumeral {c : Char} {cs rest : List Char} (h : IsNumeral (c :: cs))
    (hnext : ∀ d, rest.head? = some d → isWordChar d = false) :
    scan c (cs ++ rest)
      = .ok ⟨.literal (.number (String.ofList (c :: cs))), c :: cs, rest⟩ := by
  obtain ⟨hsymbol, hquote⟩ := not_symbol_of_isRun (.inr (h.chars c List.mem_cons_self))
  have hnumber := scanNumber_of_isNumeral h hnext
  rw [List.cons_append] at hnumber
  unfold scan
  rw [scanSymbol_eq_none hsymbol, hquote, hnumber]
  rfl

/-- The characters of a text are read back up to its closing quote. -/
theorem scanString_of_quoted {quote : Char} (hq : quote ≠ '\\') {content chars : List Char}
    (h : Quoted quote content chars) (rest : List Char) :
    scanString quote (chars ++ quote :: rest) = some (content, chars ++ [quote], rest) := by
  have hescape : ∀ d ds, scanString quote ('\\' :: d :: ds) = (scanString quote ds).map
      fun r => (unescape quote d ++ r.1, '\\' :: d :: r.2.1, r.2.2) := by
    intro d ds
    rw [scanString.eq_def]
    dsimp only
    rw [if_neg (Ne.symm hq), if_pos rfl]
  induction h with
  | nil =>
    rw [List.nil_append, scanString.eq_def]
    exact if_pos rfl
  | plain hcq hcb _ ih =>
    rw [List.cons_append, scanString.eq_def]
    dsimp only
    rw [if_neg hcq, if_neg hcb, ih]
    rfl
  | escaped hc _ ih =>
    rw [List.cons_append, List.cons_append, hescape, ih, unescape, if_pos hc]
    rfl
  | kept hc _ ih =>
    rw [List.cons_append, List.cons_append, hescape, ih, unescape, if_neg hc]
    rfl

/-- **A text in quotes is scanned as a text**, whatever follows. -/
theorem scan_of_quoted {quote : Char} (hq : isQuote quote = true) {content chars : List Char}
    (h : Quoted quote content chars) (rest : List Char) :
    scan quote (chars ++ [quote] ++ rest)
      = .ok ⟨.literal (.text (String.ofList content)), quote :: (chars ++ [quote]), rest⟩ := by
  have hcases : quote = '"' ∨ quote = '\'' := by simpa [isQuote] using hq
  have hne : quote ≠ '\\' := by rcases hcases with rfl | rfl <;> decide
  have hsymbol : quote ∉ symbolStarts := by rcases hcases with rfl | rfl <;> decide
  unfold scan
  rw [scanSymbol_eq_none hsymbol, hq, List.append_assoc, List.singleton_append,
    scanString_of_quoted hne h]
  rfl

/-- Whether a relation is written as the beginning of another one. -/
def isOpenRelation : Token → Bool
  | .relation .lt => true
  | .relation .gt => true
  | _ => false

/-- **A symbol is scanned as its relation**, unless what follows makes it a
longer one. -/
theorem scan_of_symbol (r : Relation) {c : Char} {cs rest : List Char}
    (h : r.symbol.toList = c :: cs)
    (hnext : (Token.relation r).isOpenRelation = true → rest.head? ≠ some '=') :
    scan c (cs ++ rest) = .ok ⟨.relation r, c :: cs, rest⟩ := by
  have hne : (Token.relation r).isOpenRelation = true → ∀ more, rest = '=' :: more → False := by
    rintro hopen more rfl
    exact hnext hopen rfl
  have hscan : scanSymbol (c :: (cs ++ rest)) = some ⟨.relation r, c :: cs, rest⟩ := by
    rw [← List.cons_append, ← h]
    cases r with
    | lt => exact scanSymbol.eq_5 rest (hne rfl)
    | gt => exact scanSymbol.eq_6 rest (hne rfl)
    | _ => rfl
  unfold scan
  rw [hscan]

/-- A word that is not reserved is a plain word. -/
theorem ofWord_of_not_reserved {word : String} (h : Text.lowerCase word ∉ reservedWords) :
    ofWord word = .word word := by
  unfold ofWord
  split
  case h_8 => rfl
  all_goals
    rename_i hword
    exact absurd hword (fun hw => h (by rw [hw]; decide))

/-- **A lexeme that ends where it does**: what follows does not go on with
it. -/
structure Ends (t : Token) (lexeme rest : List Char) : Prop where
  /-- No word and no number goes on with a word character. -/
  run : t.isRun = true → ∀ c, rest.head? = some c → isWordChar c = false
  /-- No symbol is the beginning of a longer one. -/
  symbol : t.isOpenRelation = true → rest.head? ≠ some '='
  /-- No word is the beginning of a number. -/
  number : t.isRun = true → ¬ IsNumeral lexeme → scanNumber (lexeme ++ rest) = none

/-- **A lexeme is scanned as its token**, where it ends. -/
theorem scan_of_ends {t : Token} {c : Char} {cs rest : List Char} (h : IsLexeme t (c :: cs))
    (hend : Ends t (c :: cs) rest) : scan c (cs ++ rest) = .ok ⟨t, c :: cs, rest⟩ := by
  -- reserved words are words that are no numbers
  have hreserved : t.isRun = true → Text.lowerCase (String.ofList (c :: cs)) ∈ reservedWords →
      scan c (cs ++ rest) = .ok ⟨ofWord (String.ofList (c :: cs)), c :: cs, rest⟩ :=
    fun hrun hmem =>
      scan_of_word (fun d hd => isWordChar_of_isAlpha (isAlpha_of_reserved hmem d hd))
        (hend.number hrun (not_isNumeral_of_reserved hmem)) (hend.run hrun)
  generalize hlexeme : c :: cs = lexeme at h
  cases h with
  | relation r => exact hlexeme ▸ scan_of_symbol r hlexeme.symm hend.symbol
  | pattern | openParen | closeParen | comma =>
    obtain ⟨rfl, rfl⟩ := List.cons.inj hlexeme
    rfl
  | @keyword k _ hword =>
    subst hlexeme
    rw [hreserved rfl (by rw [hword]; cases k <;> decide), ofWord, hword]
    cases k <;> rfl
  | @bool b _ hword =>
    subst hlexeme
    rw [hreserved rfl (by rw [hword]; cases b <;> decide), ofWord, hword]
    cases b <;> rfl
  | null hword =>
    subst hlexeme
    rw [hreserved rfl (by rw [hword]; decide), ofWord, hword]
    rfl
  | number hnum =>
    subst hlexeme
    exact scan_of_isNumeral hnum (hend.run rfl)
  | text hq hquoted =>
    obtain ⟨rfl, rfl⟩ := List.cons.inj hlexeme
    exact scan_of_quoted hq hquoted rest
  | word hword =>
    subst hlexeme
    rw [scan_of_word hword.chars (hend.number rfl hword.not_numeral) (hend.run rfl),
      ofWord_of_not_reserved hword.not_reserved]

/-- **A lexeme ends before a delimiter.** -/
theorem IsLexeme.ends {t : Token} {lexeme rest : List Char} (h : IsLexeme t lexeme)
    (hrest : EndsLexeme rest) : Ends t lexeme rest where
  run _ c hc := (not_of_isDelimiter (hrest c hc)).1
  symbol _ hc := (not_of_isDelimiter (hrest '=' hc)).2.2 rfl
  number hrun hn := scanNumber_eq_none (h.isWordChar_of_not_isNumeral hrun hn) hn hrest

/-! ## The text is cut into lexemes -/

/-- **A text that is cut into placed tokens**, behind the characters that
come before it: a gap and the lexeme of a token, over and over, and a gap
at the end. A token is placed at the byte where its lexeme starts, and the
end of the text at the byte where the text ends. -/
inductive Cut : List Char → List Char → List Placed → Prop where
  /-- There is nothing but a gap. -/
  | eof {before gap : List Char} (hgap : ∀ c ∈ gap, isGap c = true) :
    Cut before gap [⟨.eof, Text.byteLength (before ++ gap)⟩]
  /-- A gap, the lexeme of a token, and the rest. -/
  | token {before gap lexeme rest : List Char} {t : Token} {placed : List Placed}
    (hgap : ∀ c ∈ gap, isGap c = true) (hlexeme : IsLexeme t lexeme) (hne : lexeme ≠ [])
    (hend : t.isRun = true → ∀ c, rest.head? = some c → isWordChar c = false)
    (hrest : Cut (before ++ gap ++ lexeme) rest placed) :
    Cut before (gap ++ lexeme ++ rest) (⟨t, Text.byteLength (before ++ gap)⟩ :: placed)

/-- **The lexer cuts a text into lexemes.** -/
theorem cut_of_tokensFrom {before cs : List Char} {placed : List Placed}
    (h : tokensFrom (Text.byteLength before) cs = .ok placed) : Cut before cs placed := by
  have hgap : ∀ cs : List Char, ∀ c ∈ cs.takeWhile isGap, isGap c = true :=
    fun cs => List.all_eq_true.mp List.all_takeWhile
  generalize hoffset : Text.byteLength before = offset at h
  fun_induction tokensFrom offset cs generalizing before placed with
  | case1 =>
    rename_i offset cs position hcs
    obtain rfl := Except.ok.inj h
    have hcs' : cs = cs.takeWhile isGap := by
      have happ := List.takeWhile_append_dropWhile (p := isGap) (l := cs)
      rwa [hcs, List.append_nil, eq_comm] at happ
    have hposition : position = Text.byteLength (before ++ cs.takeWhile isGap) := by
      rw [Text.byteLength_append, hoffset]
    rw [hposition, ← hcs']
    exact .eof (hcs' ▸ hgap cs)
  | case2 => cases h
  | case3 => cases h
  | case4 offset cs position c more hcs s hscan tokens htokens =>
    rename_i ih
    obtain rfl := Except.ok.inj h
    obtain ⟨happ, hne⟩ := scan_append hscan
    obtain ⟨hlexeme, hend⟩ := isLexeme_of_scan hscan
    have hposition : position = Text.byteLength (before ++ cs.takeWhile isGap) := by
      rw [Text.byteLength_append, hoffset]
    have hcs' : cs = cs.takeWhile isGap ++ s.lexeme ++ s.rest := by
      rw [List.append_assoc, happ, ← hcs, List.takeWhile_append_dropWhile]
    have hrest : Cut (before ++ cs.takeWhile isGap ++ s.lexeme) s.rest tokens :=
      ih (by rw [Text.byteLength_append, hposition]) htokens
    have hcut := Cut.token (hgap cs) hlexeme hne hend hrest
    rwa [← hcs', ← hposition] at hcut

/-- What is cut ends with the end of the text, which is nowhere else. -/
theorem Cut.exists_body {before cs : List Char} {placed : List Placed} (h : Cut before cs placed) :
    ∃ body, placed = body ++ [⟨.eof, Text.byteLength (before ++ cs)⟩]
      ∧ ∀ t ∈ body, t.token ≠ .eof := by
  induction h with
  | eof _ => exact ⟨[], rfl, by simp⟩
  | @token before gap lexeme rest t placed _ hlexeme _ _ _ ih =>
    obtain ⟨body, rfl, hbody⟩ := ih
    refine ⟨⟨t, Text.byteLength (before ++ gap)⟩ :: body, by simp, ?_⟩
    intro u hu
    rcases List.mem_cons.mp hu with rfl | hu
    · rintro rfl
      cases hlexeme
    · exact hbody u hu

/-! ## Writing tokens down -/

/-- The characters of a text in quotes, with a backslash in front of every
backslash and of every quote of that kind. -/
def escape (quote : Char) : List Char → List Char
  | [] => []
  | c :: cs => if c = quote ∨ c = '\\' then '\\' :: c :: escape quote cs else c :: escape quote cs

/-- **A token as it is written**, with texts in quotes of a kind. -/
def spell (quote : Char) : Token → List Char
  | .word name => name.toList
  | .relation r => r.symbol.toList
  | .pattern => ['~']
  | .literal (.number spelling) => spelling.toList
  | .literal (.text content) => quote :: (escape quote content.toList ++ [quote])
  | .literal (.bool true) => ['t', 'r', 'u', 'e']
  | .literal (.bool false) => ['f', 'a', 'l', 's', 'e']
  | .literal .null => ['n', 'u', 'l', 'l']
  | .keyword k => k.word.toList
  | .openParen => ['(']
  | .closeParen => [')']
  | .comma => [',']
  | .eof => []

/-- **A token that can be written**: a word that is a plain one, a number
that is spelled like one, and every other token but the end. -/
def Writable : Token → Prop
  | .word name => IsPlainWord name.toList
  | .literal (.number spelling) => IsNumeral spelling.toList
  | .eof => False
  | _ => True

/-- Whether a token is a parenthesis or a comma, which needs no gap. -/
def isPunctuation : Token → Bool
  | .openParen | .closeParen | .comma => true
  | _ => false

/-- **A text that tokens are written in**, in order, with gaps of any
length between them. A gap may be empty only next to a parenthesis or a
comma, and every text has quotes of its own kind. -/
inductive Rendered : List Token → List Char → Prop where
  /-- There is nothing but a gap. -/
  | gap {gap : List Char} (hgap : ∀ c ∈ gap, isGap c = true) : Rendered [] gap
  /-- A gap, a token, and the rest. -/
  | token {quote : Char} {gap rest : List Char} {t : Token} {ts : List Token}
    (hgap : ∀ c ∈ gap, isGap c = true) (hq : isQuote quote = true)
    (hsep : t.isPunctuation = true ∨ EndsLexeme rest) (hrest : Rendered ts rest) :
    Rendered (t :: ts) (gap ++ t.spell quote ++ rest)

/-- What is escaped is the text in quotes. -/
theorem quoted_escape (quote : Char) (content : List Char) :
    Quoted quote content (escape quote content) := by
  induction content with
  | nil => exact .nil
  | cons c cs ih =>
    rw [escape]
    split
    · exact .escaped ‹_› ih
    · rename_i hc
      exact .plain (fun hq => hc (.inl hq)) (fun hb => hc (.inr hb)) ih

/-- **What is written is a lexeme of its token.** -/
theorem isLexeme_spell {quote : Char} (hq : isQuote quote = true) {t : Token} (h : t.Writable) :
    IsLexeme t (t.spell quote) := by
  cases t with
  | word name => simpa [spell] using IsLexeme.word h
  | relation r => exact .relation r
  | pattern => exact .pattern
  | keyword k =>
    have hword : ∀ k : Keyword, Text.lowerCase (String.ofList k.word.toList) = k.word := by
      rintro (_ | _) <;> decide
    exact .keyword (hword k)
  | openParen => exact .openParen
  | closeParen => exact .closeParen
  | comma => exact .comma
  | eof => exact h.elim
  | literal raw =>
    cases raw with
    | number spelling => simpa [spell] using IsLexeme.number h
    | text content => simpa [spell] using IsLexeme.text hq (quoted_escape quote content.toList)
    | bool b => cases b <;> exact .bool (by rw [spell]; decide)
    | null => exact .null (by rw [spell]; decide)

/-- A run of characters does not start like a gap. -/
theorem exists_cons_of_isRun {cs : List Char} (hne : cs ≠ [])
    (hc : ∀ c ∈ cs, isWordChar c = true ∨ Decimal.isNumeralChar c = true) :
    ∃ c more, cs = c :: more ∧ isGap c = false := by
  obtain ⟨c, more, rfl⟩ := List.exists_cons_of_ne_nil hne
  refine ⟨c, more, rfl, Bool.eq_false_iff.mpr fun hgap => ?_⟩
  have hnot := not_of_isDelimiter (c := c) (by simp [isDelimiter, hgap])
  have hrun := hc c List.mem_cons_self
  rw [hnot.1, hnot.2.1] at hrun
  simp at hrun

/-- **A lexeme has characters**, and does not start like a gap. -/
theorem IsLexeme.exists_cons {t : Token} {lexeme : List Char} (h : IsLexeme t lexeme) :
    ∃ c cs, lexeme = c :: cs ∧ isGap c = false := by
  have hreserved : ∀ {cs : List Char}, Text.lowerCase (String.ofList cs) ∈ reservedWords →
      ∃ c more, cs = c :: more ∧ isGap c = false := by
    intro cs hmem
    refine exists_cons_of_isRun ?_
      (fun c hc => .inl (isWordChar_of_isAlpha (isAlpha_of_reserved hmem c hc)))
    rintro rfl
    exact absurd hmem (by decide)
  cases h with
  | relation r => cases r <;> exact ⟨_, _, rfl, by decide⟩
  | pattern | openParen | closeParen | comma => exact ⟨_, _, rfl, by decide⟩
  | @keyword k _ h => exact hreserved (by rw [h]; cases k <;> decide)
  | @bool b _ h => exact hreserved (by rw [h]; cases b <;> decide)
  | null h => exact hreserved (by rw [h]; decide)
  | number h =>
    obtain ⟨d, hd, -⟩ := h.exists_digit
    exact exists_cons_of_isRun (List.ne_nil_of_mem hd) (fun c hc => .inr (h.chars c hc))
  | @text quote _ _ hq _ =>
    have hquote : quote = '"' ∨ quote = '\'' := by simpa [isQuote] using hq
    refine ⟨_, _, rfl, ?_⟩
    rcases hquote with rfl | rfl <;> decide
  | word h => exact exists_cons_of_isRun h.ne_nil (fun c hc => .inl (h.chars c hc))

/-- A token that is written is scanned. A parenthesis and a comma end by
themselves. -/
theorem scan_spell {quote c : Char} {cs rest : List Char} {t : Token}
    (hq : isQuote quote = true) (h : t.Writable)
    (hsep : t.isPunctuation = true ∨ EndsLexeme rest) (hspell : t.spell quote = c :: cs) :
    scan c (cs ++ rest) = .ok ⟨t, c :: cs, rest⟩ := by
  rcases hsep with hpunctuation | hrest
  · cases t with
    | openParen | closeParen | comma =>
      obtain ⟨rfl, rfl⟩ := List.cons.inj hspell
      rfl
    | _ => cases hpunctuation
  · have hlexeme : IsLexeme t (c :: cs) := hspell ▸ isLexeme_spell hq h
    exact scan_of_ends hlexeme (hlexeme.ends hrest)

/-- **Tokens that are written down are the tokens of the text.** -/
theorem lexes_of_rendered {ts : List Token} {cs : List Char} (h : Rendered ts cs)
    (hw : ∀ t ∈ ts, t.Writable) : Lexes cs ts := by
  induction h with
  | @gap gap hgap =>
    refine .gap ?_
    have hdrop := Text.dropWhile_run (b := []) hgap (by simp)
    rwa [List.append_nil] at hdrop
  | @token quote gap rest t ts hgap hq hsep _ ih =>
    have ht : t.Writable := hw t List.mem_cons_self
    obtain ⟨c, cs, hspell, hc⟩ := (isLexeme_spell hq ht).exists_cons
    have hscan := scan_spell hq ht hsep hspell
    refine .token (s := ⟨t, c :: cs, rest⟩) ?_ hscan
      (ih fun u hu => hw u (List.mem_cons_of_mem t hu))
    rw [hspell, List.append_assoc]
    refine Text.dropWhile_run hgap fun d hd => ?_
    obtain rfl := Option.some.inj hd
    exact hc

end Token

/-- The bytes of a string are those of its characters. -/
theorem Text.byteLength_toList (s : String) : Text.byteLength s.toList = s.utf8ByteSize := by
  have hofList : ∀ cs : List Char, Text.byteLength cs = (String.ofList cs).utf8ByteSize := by
    intro cs
    induction cs with
    | nil => rfl
    | cons c cs ih =>
      rw [Text.byteLength_cons, ih]
      simp
  rw [hofList, String.ofList_toList]

/-- **The lexer cuts a text into lexemes and gaps**, and into nothing
else. There is one end of the text, behind the last byte and after all
other tokens. A token stands at the byte where its lexeme starts, and no
word and no number is cut short. -/
theorem tokenize_cut (s : String) (ts : List Placed) (h : tokenize s = .ok ts) :
    (∃ body, ts = body ++ [⟨.eof, s.utf8ByteSize⟩] ∧ ∀ t ∈ body, t.token ≠ .eof)
      ∧ Token.Cut [] s.toList ts := by
  have hcut : Token.Cut [] s.toList ts := Token.cut_of_tokensFrom h
  refine ⟨?_, hcut⟩
  obtain ⟨body, hbody, hne⟩ := hcut.exists_body
  refine ⟨body, ?_, hne⟩
  rw [hbody, List.nil_append, Text.byteLength_toList]

/-- A character of two bytes and an escaped quote move what follows, and a
number that runs into a word is a word. -/
theorem tokenize_cut_string :
    tokenize "\"é\\\"\" <=\t5.x " = .ok [⟨.literal (.text "é\""), 0⟩, ⟨.relation .le, 7⟩,
        ⟨.word "5.x", 10⟩, ⟨.eof, 14⟩]
      ∧ Token.Cut [] "\"é\\\"\" <=\t5.x ".toList [⟨.literal (.text "é\""), 0⟩, ⟨.relation .le, 7⟩,
        ⟨.word "5.x", 10⟩, ⟨.eof, 14⟩] := by
  have htokens : tokenize "\"é\\\"\" <=\t5.x " = .ok [⟨.literal (.text "é\""), 0⟩,
      ⟨.relation .le, 7⟩, ⟨.word "5.x", 10⟩, ⟨.eof, 14⟩] := by
    cbv
  exact ⟨htokens, (tokenize_cut _ _ htokens).2⟩

/-- **Tokens that are written down come back as they were**, and the end
of the text after them. -/
theorem tokenize_rendered (ts : List Token) (s : String) (hw : ∀ t ∈ ts, t.Writable)
    (h : Token.Rendered ts s.toList) :
    ∃ placed, tokenize s = .ok placed ∧ placed.map Placed.token = ts ++ [.eof] := by
  have hplaced : ∃ placed, tokenize s = .ok placed ∧ ts ++ [.eof] = placed.map Placed.token :=
    Token.lexes_iff.mp (Token.lexes_of_rendered h hw)
  obtain ⟨placed, htokenize, htokens⟩ := hplaced
  exact ⟨placed, htokenize, htokens.symm⟩

/-- A word that starts like a number, and a text that ends with a backslash
and a quote, before a parenthesis. -/
theorem tokenize_rendered_escaped :
    ∃ placed, tokenize "1e5x\t~ '\\\\\\''(" = .ok placed
      ∧ placed.map Placed.token
        = [.word "1e5x", .pattern, .literal (.text "\\'"), .openParen, .eof] := by
  refine tokenize_rendered [.word "1e5x", .pattern, .literal (.text "\\'"), .openParen] _ ?_ ?_
  · have hword : Token.IsPlainWord ['1', 'e', '5', 'x'] :=
      ⟨by decide, List.all_eq_true.mp (by decide), by decide, by decide⟩
    simpa [Token.Writable] using hword
  · have hend : Token.Rendered [] [] := .gap (by simp)
    have hparen := @Token.Rendered.token '"' [] _ .openParen _ (by simp) (by decide) (.inl rfl) hend
    refine @Token.Rendered.token '"' [] _ _ _ (by simp) (by decide) (.inr ?_) <|
      @Token.Rendered.token '"' ['\t'] _ _ _ (by simp [Token.isGap]) (by decide) (.inr ?_) <|
      @Token.Rendered.token '\'' [' '] _ _ _ (by simp [Token.isGap]) (by decide) (.inr ?_) hparen
    all_goals
      intro c hc
      obtain rfl := Option.some.inj hc
      decide

end DocFilter
