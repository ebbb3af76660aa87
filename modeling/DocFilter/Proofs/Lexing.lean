import DocFilter.Proofs.Machine

/-!
# Texts that are put together from texts

Which tokens a text has does not depend on where it starts, and `Lexes`
says so without offsets: skip the gap, take a lexeme, go on with the rest.

Lexemes are as long as they can be, so in general the tokens of a text do
not say what tokens it has once more text follows: `5` is a number and
`5x` is a word. A closing parenthesis ends every lexeme but a string, and
a string ends by itself (`Token.scan_closeParen`). A text that has tokens
therefore keeps them before a closing parenthesis (`Token.Lexes.append`),
which is what makes it safe to put a query in parentheses.
-/

namespace DocFilter

/-! ## Runs that a parenthesis ends -/

namespace Text

section Runs

variable {p : Char → Bool} {c : Char} (hc : p c = false) (cs rest : List Char)

include hc

/-- A run does not go past a character of another kind. -/
theorem takeWhile_append_cons : (cs ++ c :: rest).takeWhile p = cs.takeWhile p := by
  induction cs with
  | nil =>
    rw [List.nil_append, List.takeWhile_cons, hc]
    rfl
  | cons d cs ih => rw [List.cons_append, List.takeWhile_cons, List.takeWhile_cons, ih]

theorem dropWhile_append_cons :
    (cs ++ c :: rest).dropWhile p = cs.dropWhile p ++ c :: rest := by
  induction cs with
  | nil =>
    rw [List.nil_append, List.dropWhile_cons, hc]
    rfl
  | cons d cs ih =>
    rw [List.cons_append, List.dropWhile_cons, List.dropWhile_cons, ih]
    cases p d <;> rfl

end Runs

/-- A text that does not start with a character does not do so either when
another one follows it. -/
theorem not_cons_append_cons {c d : Char} (hc : d ≠ c) {cs : List Char}
    (h : ∀ more, cs = c :: more → False) (rest : List Char) :
    ∀ more, cs ++ d :: rest = c :: more → False := by
  intro more hmore
  cases cs with
  | nil => exact hc (List.cons.inj hmore).1
  | cons b cs => exact h cs (by rw [(List.cons.inj hmore).1])

end Text

/-! ## Numerals -/

namespace Decimal

variable (cs rest : List Char)

theorem scanSign_closeParen :
    scanSign (cs ++ ')' :: rest) = ((scanSign cs).1, (scanSign cs).2 ++ ')' :: rest) := by
  fun_cases scanSign cs with
  | case1 cs => rfl
  | case2 cs => rfl
  | case3 _ hplus hminus =>
    exact scanSign.eq_3 _ (Text.not_cons_append_cons (by decide) hplus rest)
      (Text.not_cons_append_cons (by decide) hminus rest)

theorem scanDigits_closeParen :
    scanDigits (cs ++ ')' :: rest) = ((scanDigits cs).1, (scanDigits cs).2 ++ ')' :: rest) := by
  unfold scanDigits
  rw [Text.takeWhile_append_cons (by decide), Text.dropWhile_append_cons (by decide)]

theorem scanFraction_closeParen :
    scanFraction (cs ++ ')' :: rest)
      = ((scanFraction cs).1, (scanFraction cs).2 ++ ')' :: rest) := by
  fun_cases scanFraction cs with
  | case1 cs =>
    rw [List.cons_append, scanFraction, scanDigits_closeParen]
  | case2 _ hpoint => exact scanFraction.eq_2 _ (Text.not_cons_append_cons (by decide) hpoint rest)

theorem scanExponent_closeParen :
    scanExponent (cs ++ ')' :: rest)
      = ((scanExponent cs).1, (scanExponent cs).2 ++ ')' :: rest) := by
  cases cs with
  | nil => rfl
  | cons c cs =>
    rw [List.cons_append, scanExponent, scanExponent, scanSign_closeParen]
    dsimp only
    rw [scanDigits_closeParen]
    dsimp only
    split <;> rfl

/-- **A numeral ends before a closing parenthesis.** -/
theorem Numeral.scan_closeParen :
    Numeral.scan (cs ++ ')' :: rest)
      = (Numeral.scan cs).map fun r => (r.1, r.2 ++ ')' :: rest) := by
  unfold Numeral.scan
  rw [scanSign_closeParen]
  dsimp only
  rw [scanDigits_closeParen]
  dsimp only
  rw [scanFraction_closeParen]
  dsimp only
  split
  · rfl
  · rw [scanExponent_closeParen]
    rfl

end Decimal

/-! ## Lexemes -/

namespace Token

/-- More text after what was scanned. -/
def Scan.followedBy (s : Scan) (more : List Char) : Scan :=
  { s with rest := s.rest ++ more }

variable {cs : List Char} (rest : List Char)

/-- A symbol ends before a closing parenthesis. -/
theorem scanSymbol_closeParen (hne : cs ≠ []) :
    scanSymbol (cs ++ ')' :: rest)
      = (scanSymbol cs).map fun s => s.followedBy (')' :: rest) := by
  -- what is there already decides about its first character
  have hstart : ∀ {c : Char}, (∀ more, cs = c :: more → False) →
      ∀ more, cs ++ ')' :: rest = c :: more → False := by
    intro c h more hmore
    obtain ⟨b, bs, rfl⟩ := List.exists_cons_of_ne_nil hne
    exact h bs (by rw [(List.cons.inj hmore).1])
  fun_cases scanSymbol cs with
  | case1 | case2 | case3 | case4 => rfl
  | case5 more h => exact scanSymbol.eq_5 _ (Text.not_cons_append_cons (by decide) h rest)
  | case6 more h => exact scanSymbol.eq_6 _ (Text.not_cons_append_cons (by decide) h rest)
  | case7 | case8 | case9 | case10 => rfl
  | case11 _ hne' _ _ h4 h5 h6 h7 h8 h9 h10 =>
    refine scanSymbol.eq_11 _ (fun more hmore => ?_) (fun more => hstart h5 _)
      (fun more => hstart h6 _) (hstart h4) (hstart h5) (hstart h6) (hstart h7) (hstart h8)
      (hstart h9) (hstart h10)
    obtain ⟨b, bs, rfl⟩ := List.exists_cons_of_ne_nil hne
    obtain ⟨rfl, hbs⟩ := List.cons.inj hmore
    exact Text.not_cons_append_cons (by decide) (fun r hr => hne' r (by rw [hr])) rest more hbs

/-- **A string ends by itself.** -/
theorem scanString_append_right {quote : Char} {content lexeme after : List Char}
    (h : scanString quote cs = some (content, lexeme, after)) :
    scanString quote (cs ++ rest) = some (content, lexeme, after ++ rest) := by
  fun_induction scanString quote cs generalizing content lexeme after with
  | case1 => cases h
  | case2 cs =>
    simp only [Option.some.injEq, Prod.mk.injEq] at h
    obtain ⟨rfl, rfl, rfl⟩ := h
    rw [List.cons_append, scanString.eq_def]
    exact if_pos rfl
  | case3 => cases h
  | case4 d ds hq ih =>
    simp only [Option.map_eq_some_iff, Prod.mk.injEq] at h
    obtain ⟨⟨a, b, c⟩, hs, rfl, rfl, rfl⟩ := h
    rw [List.cons_append, List.cons_append, scanString.eq_def]
    dsimp only
    rw [if_neg hq, if_pos rfl, ih hs]
    rfl
  | case5 c cs hq hb ih =>
    simp only [Option.map_eq_some_iff, Prod.mk.injEq] at h
    obtain ⟨⟨a, b, d⟩, hs, rfl, rfl, rfl⟩ := h
    rw [List.cons_append, scanString.eq_def]
    dsimp only
    rw [if_neg hq, if_neg hb, ih hs]
    rfl

/-- A number ends before a closing parenthesis. -/
theorem scanNumber_closeParen (cs rest : List Char) :
    scanNumber (cs ++ ')' :: rest)
      = (scanNumber cs).map fun s => s.followedBy (')' :: rest) := by
  unfold scanNumber
  rw [Decimal.Numeral.scan_closeParen]
  cases Decimal.Numeral.scan cs with
  | none => rfl
  | some r =>
    obtain ⟨n, after⟩ := r
    have hhead : (after ++ ')' :: rest).head?.any isWordChar = after.head?.any isWordChar := by
      cases after with
      | nil => rfl
      | cons c after => rfl
    dsimp only [Option.map_some]
    rw [hhead]
    split <;> rfl

/-- A word ends before a closing parenthesis. -/
theorem scanWord_closeParen (cs rest : List Char) :
    scanWord (cs ++ ')' :: rest) = (scanWord cs).map fun s => s.followedBy (')' :: rest) := by
  unfold scanWord
  rw [Text.takeWhile_append_cons (by decide), Text.dropWhile_append_cons (by decide)]
  dsimp only
  split <;> rfl

/-- **A token that is scanned is scanned before a closing parenthesis.** -/
theorem scan_closeParen {c : Char} {s : Scan} (h : scan c cs = .ok s) :
    scan c (cs ++ ')' :: rest) = .ok (s.followedBy (')' :: rest)) := by
  have hsymbol := scanSymbol_closeParen rest (List.cons_ne_nil c cs)
  have hnumber := scanNumber_closeParen (c :: cs) rest
  have hword := scanWord_closeParen (c :: cs) rest
  rw [List.cons_append] at hsymbol hnumber hword
  unfold scan at h ⊢
  rw [hsymbol, hnumber, hword]
  cases hs : scanSymbol (c :: cs) with
  | some s' =>
    rw [hs] at h
    obtain rfl := Except.ok.inj h
    rfl
  | none =>
    rw [hs] at h
    dsimp only [Option.map_none] at h ⊢
    split
    · rename_i hq
      rw [if_pos hq] at h
      cases hstring : scanString c cs with
      | none => rw [hstring] at h; cases h
      | some r =>
        obtain ⟨content, lexeme, after⟩ := r
        rw [hstring] at h
        obtain rfl := Except.ok.inj h
        rw [scanString_append_right _ hstring]
        rfl
    · rename_i hq
      rw [if_neg hq] at h
      cases hn : scanNumber (c :: cs) with
      | some s' =>
        rw [hn] at h
        obtain rfl := Except.ok.inj h
        rfl
      | none =>
        rw [hn] at h
        dsimp only [Option.map_none] at h ⊢
        cases hw : scanWord (c :: cs) with
        | none => rw [hw] at h; cases h
        | some s' =>
          rw [hw] at h
          obtain rfl := Except.ok.inj h
          rfl

/-! ## Whole texts -/

/-- **The tokens of a text**, without offsets and without the end of the
text. -/
inductive Lexes : List Char → List Token → Prop where
  /-- There is nothing but a gap. -/
  | gap {cs : List Char} (h : cs.dropWhile isGap = []) : Lexes cs []
  /-- A gap, a lexeme, and the rest. -/
  | token {cs more : List Char} {c : Char} {s : Scan} {ts : List Token}
    (h : cs.dropWhile isGap = c :: more) (hs : scan c more = .ok s) (hrest : Lexes s.rest ts) :
    Lexes cs (s.token :: ts)

theorem tokensFrom_of_gap {offset : Nat} {cs : List Char} (h : cs.dropWhile isGap = []) :
    tokensFrom offset cs = .ok [⟨.eof, offset + Text.byteLength (cs.takeWhile isGap)⟩] := by
  rw [tokensFrom]
  split
  · rfl
  · rename_i hcs
    rw [h] at hcs
    cases hcs

theorem tokensFrom_of_scan {offset : Nat} {cs more : List Char} {c : Char} {s : Scan}
    (h : cs.dropWhile isGap = c :: more) (hs : scan c more = .ok s) :
    tokensFrom offset cs = (tokensFrom (offset + Text.byteLength (cs.takeWhile isGap)
      + Text.byteLength s.lexeme) s.rest).map
        fun placed => ⟨s.token, offset + Text.byteLength (cs.takeWhile isGap)⟩ :: placed := by
  rw [tokensFrom]
  split
  · rename_i hcs
    rw [h] at hcs
    cases hcs
  · rename_i hcs
    rw [h] at hcs
    obtain ⟨rfl, rfl⟩ := List.cons.inj hcs
    split
    · rename_i hs'
      rw [hs] at hs'
      cases hs'
    · rename_i hs'
      rw [hs] at hs'
      obtain rfl := Except.ok.inj hs'
      cases tokensFrom (offset + Text.byteLength (cs.takeWhile isGap) + Text.byteLength s.lexeme)
        s.rest with
      | error e => rfl
      | ok placed => rfl

/-- A text that is cut into tokens has them. -/
theorem lexes_of_tokensFrom {offset : Nat} {cs : List Char} {placed : List Placed}
    (h : tokensFrom offset cs = .ok placed) :
    ∃ ts, Lexes cs ts ∧ ts ++ [.eof] = placed.map Placed.token := by
  fun_induction tokensFrom offset cs generalizing placed with
  | case1 =>
    rename_i hcs
    obtain rfl := Except.ok.inj h
    exact ⟨[], .gap hcs, rfl⟩
  | case2 => cases h
  | case3 => cases h
  | case4 _ cs position c more hcs s hscan tokens htokens =>
    rename_i ih
    obtain rfl := Except.ok.inj h
    obtain ⟨ts, hlexes, hts⟩ := ih htokens
    exact ⟨s.token :: ts, .token hcs hscan hlexes, by rw [List.cons_append, hts]; rfl⟩

/-- **A text has the same tokens wherever it starts.** -/
theorem lexes_iff {offset : Nat} {cs : List Char} {ts : List Token} :
    Lexes cs ts ↔ ∃ placed, tokensFrom offset cs = .ok placed
      ∧ ts ++ [.eof] = placed.map Placed.token := by
  constructor
  · intro h
    induction h generalizing offset with
    | gap h => exact ⟨_, tokensFrom_of_gap h, rfl⟩
    | token h hs _ ih =>
      obtain ⟨placed, hplaced, htokens⟩ := ih
      rw [tokensFrom_of_scan h hs, hplaced]
      exact ⟨_, rfl, by rw [List.cons_append, htokens]; rfl⟩
  · rintro ⟨placed, hplaced, htokens⟩
    obtain ⟨ts', hlexes, hts⟩ := lexes_of_tokensFrom hplaced
    rwa [List.append_cancel_right (htokens.trans hts.symm)]

namespace Lexes

variable {cs ds rest : List Char} {ts us : List Token}

/-- A gap in front makes no difference. -/
theorem of_dropWhile_eq (h : cs.dropWhile isGap = ds.dropWhile isGap) (hd : Lexes ds ts) :
    Lexes cs ts := by
  cases hd with
  | gap hgap => exact .gap (h.trans hgap)
  | token hnext hs hrest => exact .token (h.trans hnext) hs hrest

/-- **A text keeps its tokens before a closing parenthesis.** -/
theorem append (h : Lexes cs ts) (hr : Lexes (')' :: rest) us) :
    Lexes (cs ++ ')' :: rest) (ts ++ us) := by
  induction h with
  | gap h =>
    refine of_dropWhile_eq ?_ hr
    rw [Text.dropWhile_append_cons (by decide), h]
    rfl
  | token h hs _ ih =>
    refine .token (s := Scan.followedBy _ _) ?_ (scan_closeParen rest hs) ih
    rw [Text.dropWhile_append_cons (by decide), h]
    rfl

/-- A parenthesis is a token by itself. -/
theorem openParen (h : Lexes cs ts) : Lexes ('(' :: cs) (.openParen :: ts) :=
  .token (s := ⟨.openParen, ['('], cs⟩) rfl rfl h

theorem closeParen (h : Lexes cs ts) : Lexes (')' :: cs) (.closeParen :: ts) :=
  .token (s := ⟨.closeParen, [')'], cs⟩) rfl rfl h

theorem blank (h : Lexes cs ts) : Lexes (' ' :: cs) ts := by
  refine of_dropWhile_eq ?_ h
  rfl

/-- A reserved word between blanks is a token. -/
theorem and (h : Lexes cs ts) :
    Lexes (' ' :: 'a' :: 'n' :: 'd' :: ' ' :: cs) (.keyword .and :: ts) := by
  have hword : ofWord (String.ofList ['a', 'n', 'd']) = .keyword .and := by decide
  have hscan : scan 'a' ('n' :: 'd' :: ' ' :: cs)
      = .ok ⟨ofWord (String.ofList ['a', 'n', 'd']), ['a', 'n', 'd'], ' ' :: cs⟩ := rfl
  exact hword ▸ .token rfl hscan h.blank

theorem or (h : Lexes cs ts) :
    Lexes (' ' :: 'o' :: 'r' :: ' ' :: cs) (.keyword .or :: ts) := by
  have hword : ofWord (String.ofList ['o', 'r']) = .keyword .or := by decide
  have hscan : scan 'o' ('r' :: ' ' :: cs)
      = .ok ⟨ofWord (String.ofList ['o', 'r']), ['o', 'r'], ' ' :: cs⟩ := rfl
  exact hword ▸ .token rfl hscan h.blank

end Lexes

/-! ## Words -/

/-- A plain word is the word that was scanned. -/
theorem eq_of_ofWord {word name : String} (h : ofWord word = .word name) : word = name := by
  unfold ofWord at h
  split at h
  all_goals first | exact Token.word.inj h | cases h

/-- A plain word is scanned as a word. -/
theorem scanWord_of_scan {c : Char} {cs : List Char} {s : Scan} {name : String}
    (h : scan c cs = .ok s) (hword : s.token = .word name) : scanWord (c :: cs) = some s := by
  unfold scan at h
  split at h
  · rename_i s' hs
    obtain rfl := Except.ok.inj h
    unfold scanSymbol at hs
    split at hs
    case h_11 => cases hs
    all_goals
      obtain rfl := Option.some.inj hs
      cases hword
  · split at h
    · split at h
      · obtain rfl := Except.ok.inj h
        cases hword
      · cases h
    · split at h
      · rename_i s' hs
        obtain rfl := Except.ok.inj h
        unfold scanNumber at hs
        split at hs
        · cases hs
        · split at hs
          · cases hs
          · obtain rfl := Option.some.inj hs
            cases hword
      · split at h
        · rename_i s' hs
          obtain rfl := Except.ok.inj h
          exact hs
        · cases h

/-- A word is a run of word characters. -/
theorem exists_of_scanWord {cs : List Char} {s : Scan} (h : scanWord cs = some s) :
    ∃ word, (∀ c ∈ word, isWordChar c = true) ∧ s.token = ofWord (String.ofList word) := by
  by_cases hnil : cs.takeWhile isWordChar = []
  · rw [scanWord, if_pos hnil] at h
    cases h
  · rw [scanWord, if_neg hnil] at h
    refine ⟨cs.takeWhile isWordChar, List.all_eq_true.mp List.all_takeWhile, ?_⟩
    rw [← Option.some.inj h]

/-- **A plain word consists of word characters.** -/
theorem Lexes.word_chars {cs : List Char} {ts : List Token} (h : Lexes cs ts) {name : String}
    (hmem : .word name ∈ ts) : ∀ c ∈ name.toList, isWordChar c = true := by
  induction h with
  | gap _ => cases hmem
  | token _ hs _ ih =>
    rcases List.mem_cons.mp hmem with hword | hmem
    · obtain ⟨word, hchars, htoken⟩ := exists_of_scanWord (scanWord_of_scan hs hword.symm)
      rw [← eq_of_ofWord (hword.trans htoken).symm, String.toList_ofList]
      exact hchars
    · exact ih hmem

end Token

end DocFilter
