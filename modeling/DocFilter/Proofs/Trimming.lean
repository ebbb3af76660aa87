import DocFilter.Proofs.Faults
import DocFilter.Proofs.ListForm
import DocFilter.Proofs.Sessions

/-!
# Blanks around a query

There are two kinds of space. Trimming takes any *blank* off the ends of a
text, of whatever script, and the lexer skips only *gaps*: spaces, tabs
and the ends of lines. Trimming could therefore take away what the lexer
would have read, or would have refused.

It takes away nothing that is part of a token. A word, a number or a
symbol has no blank in it, and a string has a quote at either end, so the
first character of a lexeme is never blank, nor is the last
(`Token.IsLexeme.isBlank_head`, `Token.IsLexeme.isBlank_getLast`). A text
that has tokens thus has gaps at its ends and no other blanks
(`Token.Lexes.trimStart_eq`, `Token.Lexes.exists_reached`), and a text
without them has the same tokens (`Token.Lexes.trim`).

What the lexer refuses is another matter. A text with any other blank in
front has no tokens, and may have some once it is trimmed; so it is only
of texts that are understood that trimming changes nothing.
-/

namespace DocFilter

namespace Text

/-! ## What trimming takes away -/

/-- What stands between blanks and does not begin with one is left. -/
theorem trimStart_append {blanks cs : List Char} (hb : ∀ c ∈ blanks, isBlank c = true)
    (hcs : ∀ c, cs.head? = some c → isBlank c = false) : trimStart (blanks ++ cs) = cs :=
  dropWhile_run hb hcs

theorem trimEnd_append {blanks cs : List Char} (hb : ∀ c ∈ blanks, isBlank c = true)
    (hcs : ∀ c, cs.getLast? = some c → isBlank c = false) : trimEnd (cs ++ blanks) = cs := by
  have hrun : (blanks.reverse ++ cs.reverse).dropWhile isBlank = cs.reverse :=
    dropWhile_run (fun c hc => hb c (List.mem_reverse.mp hc))
      (fun c hc => hcs c (by rwa [List.head?_reverse] at hc))
  rw [trimEnd, List.reverse_append, hrun, List.reverse_reverse]

/-- Trimming adds nothing. -/
theorem mem_of_mem_trim {s : String} {c : Char} (h : c ∈ (trim s).toList) : c ∈ s.toList := by
  rw [trim, String.toList_ofList, trimEnd, List.mem_reverse] at h
  exact (List.dropWhile_suffix _).mem (List.mem_reverse.mp ((List.dropWhile_suffix _).mem h))

theorem mem_dropWhile {p : Char → Bool} {cs : List Char} {c : Char} (h : c ∈ cs)
    (hc : p c = false) : c ∈ cs.dropWhile p := by
  rw [← List.takeWhile_append_dropWhile (p := p) (l := cs)] at h
  refine (List.mem_append.mp h).resolve_left fun hmem => ?_
  rw [List.mem_takeWhile_imp hmem] at hc
  cases hc

/-- It takes away blanks only. -/
theorem mem_trim {s : String} {c : Char} (h : c ∈ s.toList) (hc : isBlank c = false) :
    c ∈ (trim s).toList := by
  rw [trim, String.toList_ofList, trimEnd, List.mem_reverse]
  exact mem_dropWhile (List.mem_reverse.mpr (mem_dropWhile h hc)) hc

/-- **A text that is not blank is not blank after trimming.** -/
theorem isAllBlank_trim (s : String) : isAllBlank (trim s) = isAllBlank s := by
  unfold isAllBlank
  rw [Bool.eq_iff_iff, List.all_eq_true, List.all_eq_true]
  constructor
  · intro h c hc
    by_contra hblank
    exact hblank (h c (mem_trim hc (Bool.eq_false_iff.mpr hblank)))
  · exact fun h c hc => h c (mem_of_mem_trim hc)

end Text

namespace Token

variable {c : Char}

/-! ## Blanks in a text that has tokens -/

/-- The lexer skips only blanks. -/
theorem isBlank_of_isGap (h : isGap c = true) : Text.isBlank c = true := by
  simp only [isGap, Bool.or_eq_true, beq_iff_eq] at h
  rcases h with ((rfl | rfl) | rfl) | rfl <;> decide

/-- A blank is below the printable characters or beyond ASCII. -/
theorem isBlank_eq_false (hlow : 0x20 < c.toNat) (hhigh : c.toNat < 0x80) :
    Text.isBlank c = false := by
  simp only [Text.isBlank, Text.inRanges, Text.blankRanges, List.any_cons, List.any_nil]
  simp
  omega

theorem isBlank_of_isAlphanum (h : c.isAlphanum = true) : Text.isBlank c = false := by
  have hrange : 0x20 < c.toNat ∧ c.toNat < 0x80 := by
    simp only [Char.isAlphanum, Char.isAlpha, Char.isUpper, Char.isLower, Char.isDigit,
      Bool.or_eq_true, Bool.and_eq_true, decide_eq_true_eq, ge_iff_le,
      UInt32.le_iff_toNat_le, Char.reduceVal, UInt32.reduceToNat, Char.toNat_val] at h
    omega
  exact isBlank_eq_false hrange.1 hrange.2

/-- A word has no blank in it. -/
theorem isBlank_of_isWordChar (h : isWordChar c = true) : Text.isBlank c = false := by
  simp only [isWordChar, Bool.or_eq_true, beq_iff_eq] at h
  rcases h with (h | rfl) | rfl
  · exact isBlank_of_isAlphanum h
  · decide
  · decide

/-- Nor has a number. -/
theorem isBlank_of_isNumeralChar (h : Decimal.isNumeralChar c = true) :
    Text.isBlank c = false := by
  simp only [Decimal.isNumeralChar, Decimal.continuesNumeral, Bool.or_eq_true, beq_iff_eq] at h
  rcases h with ((((h | rfl) | rfl) | rfl) | rfl) | rfl
  · exact isBlank_of_isAlphanum (by simp [Char.isAlphanum, h])
  all_goals decide

/-- **A lexeme is a string or has no blank in it.** -/
theorem IsLexeme.isBlank_of_mem {t : Token} {lexeme : List Char} (h : IsLexeme t lexeme)
    (ht : ∀ content, t ≠ .literal (.text content)) : ∀ c ∈ lexeme, Text.isBlank c = false := by
  have hrun : t.isRun = true → ∀ c ∈ lexeme, Text.isBlank c = false := by
    intro hrun c hc
    by_cases hnum : Decimal.IsNumeral lexeme
    · exact isBlank_of_isNumeralChar (hnum.chars c hc)
    · exact isBlank_of_isWordChar (h.isWordChar_of_not_isNumeral hrun hnum c hc)
  cases h with
  | relation r =>
    have hsymbol : r.symbol.toList.any Text.isBlank = false := by cases r <;> decide
    exact fun c hc => Bool.eq_false_iff.mpr (List.any_eq_false.mp hsymbol c hc)
  | pattern | openParen | closeParen | comma => exact List.forall_mem_singleton.mpr (by decide)
  | keyword _ | bool _ | null _ | number _ | word _ => exact hrun rfl
  | text _ _ => exact absurd rfl (ht _)

theorem isBlank_of_isQuote (h : isQuote c = true) : Text.isBlank c = false := by
  simp only [isQuote, Bool.or_eq_true, beq_iff_eq] at h
  rcases h with rfl | rfl <;> decide

/-- **A lexeme does not begin with a blank.** -/
theorem IsLexeme.isBlank_head {t : Token} {lexeme : List Char} (h : IsLexeme t lexeme) :
    ∀ c, lexeme.head? = some c → Text.isBlank c = false := by
  intro c hc
  by_cases ht : ∃ content, t = .literal (.text content)
  · obtain ⟨content, rfl⟩ := ht
    cases h with
    | text hq _ =>
      obtain rfl := Option.some.inj hc
      exact isBlank_of_isQuote hq
  · exact h.isBlank_of_mem (fun content hcontent => ht ⟨content, hcontent⟩) c
      (List.mem_of_mem_head? hc)

/-- **Nor does it end with one.** -/
theorem IsLexeme.isBlank_getLast {t : Token} {lexeme : List Char} (h : IsLexeme t lexeme) :
    ∀ c, lexeme.getLast? = some c → Text.isBlank c = false := by
  intro c hc
  by_cases ht : ∃ content, t = .literal (.text content)
  · obtain ⟨content, rfl⟩ := ht
    cases h with
    | text hq _ =>
      rw [← List.cons_append, List.getLast?_concat] at hc
      obtain rfl := Option.some.inj hc
      exact isBlank_of_isQuote hq
  · exact h.isBlank_of_mem (fun content hcontent => ht ⟨content, hcontent⟩) c
      (List.mem_of_mem_getLast? hc)

namespace Lexes

variable {cs : List Char} {ts : List Token}

/-- **Blanks in front of tokens are gaps.** -/
theorem trimStart_eq (h : Lexes cs ts) : Text.trimStart cs = cs.dropWhile isGap := by
  cases h with
  | gap hgap =>
    rw [hgap, Text.trimStart, List.dropWhile_eq_nil_iff]
    exact fun c hc => isBlank_of_isGap (List.dropWhile_eq_nil_iff.mp hgap c hc)
  | @token _ more c s _ hnext hs _ =>
    obtain ⟨hsplit, hgap, -⟩ := gap_append hnext
    obtain ⟨happ, hne⟩ := scan_append hs
    have hhead : s.lexeme.head? = some c := by
      rw [← List.head?_append_of_ne_nil _ hne, happ]
      rfl
    rw [hnext, hsplit]
    refine Text.trimStart_append (fun d hd => isBlank_of_isGap (hgap d hd)) fun d hd => ?_
    obtain rfl := Option.some.inj hd
    exact (isLexeme_of_scan hs).1.isBlank_head c hhead

/-- **The lexer gets to where the gap at the end begins**, and no blank
stands right before it. -/
theorem exists_reached (h : Lexes cs ts) :
    ∃ before gap, cs = before ++ gap ∧ (∀ c ∈ gap, isGap c = true) ∧ Reached gap before ts
      ∧ ∀ c, before.getLast? = some c → Text.isBlank c = false := by
  induction h with
  | @gap cs hgap =>
    exact ⟨[], cs, rfl, List.dropWhile_eq_nil_iff.mp hgap, .gap (by simp), by simp⟩
  | @token cs more c s ts hnext hs _ ih =>
    obtain ⟨before, gap, hrest, hgap, hreached, hlast⟩ := ih
    obtain ⟨hsplit, hfirst, hc⟩ := gap_append hnext
    obtain ⟨t, lexeme, rest⟩ := s
    obtain ⟨happ, hne⟩ := scan_append hs
    obtain ⟨b, lexeme, rfl⟩ := List.exists_cons_of_ne_nil hne
    obtain ⟨rfl, rfl⟩ := List.cons.inj happ
    obtain rfl : rest = before ++ gap := hrest
    refine ⟨cs.takeWhile isGap ++ b :: (lexeme ++ before), gap, ?_, hgap,
      .token hfirst hc hs hreached, fun d hd => ?_⟩
    · rw [List.append_assoc, List.cons_append, List.append_assoc]
      exact hsplit
    · cases before with
      | nil =>
        refine (isLexeme_of_scan hs).1.isBlank_getLast d ?_
        simpa using hd
      | cons e before =>
        refine hlast d ?_
        rw [← List.cons_append, ← List.append_assoc] at hd
        rwa [List.getLast?_append_of_ne_nil _ (List.cons_ne_nil e before)] at hd

/-- **A text has the same tokens once it is trimmed.** -/
theorem trim {s : String} (h : Lexes s.toList ts) : Lexes (Text.trim s).toList ts := by
  have hstart : Lexes (Text.trimStart s.toList) ts := by
    refine of_dropWhile_eq ?_ h
    rw [h.trimStart_eq, List.dropWhile_idempotent]
  obtain ⟨before, gap, hsplit, hgap, hreached, hlast⟩ := hstart.exists_reached
  rw [Text.trim, String.toList_ofList, hsplit,
    Text.trimEnd_append (fun c hc => isBlank_of_isGap (hgap c hc)) hlast]
  exact hreached.lexes

end Lexes

end Token

/-! ## Queries -/

/-- **What is parsed is parsed to the same expression once it is trimmed.** -/
theorem Expr.parse_trim {s : String} {e : Expr} (h : Expr.parse s = .ok e) :
    Expr.parse (Text.trim s) = .ok e := by
  obtain ⟨q, hderives, hadmissible, htree⟩ := Grammar.parse_eq_ok_iff_derives.mp h
  have hlexes : Token.Lexes s.toList q.tokens := Grammar.derives_iff_lexes.mp hderives
  exact Grammar.parse_eq_ok_iff_derives.mpr
    ⟨q, Grammar.derives_iff_lexes.mpr hlexes.trim, hadmissible, htree⟩

namespace Query

variable {o : Options} {s : String} {d : Document}

/-- A text that is not blank has the filter of its expression. -/
theorem toFilter_text (hs : Text.isAllBlank s = false) :
    (Query.text s).toFilter o = .ok d
      ↔ ∃ e, Expr.parse s = .ok e ∧ e.toFilter o = .ok d := by
  rw [toFilter, parse, if_neg (by rw [hs]; decide)]
  cases Expr.parse s with
  | error err => simp [Except.map]
  | ok e => cases hfilter : e.toFilter o <;> simp [Except.map, hfilter]

/-- **Trimming changes no answer.** -/
theorem toFilter_trim (h : (Query.text s).toFilter o = .ok d) :
    (Query.text (Text.trim s)).toFilter o = .ok d := by
  cases hs : Text.isAllBlank s with
  | true =>
    have htrim : Text.isAllBlank (Text.trim s) = true := (Text.isAllBlank_trim s).trans hs
    rw [toFilter, parse, if_pos hs] at h
    rw [toFilter, parse, if_pos htrim]
    exact h
  | false =>
    have htrim : Text.isAllBlank (Text.trim s) = false := (Text.isAllBlank_trim s).trans hs
    obtain ⟨e, he, hd⟩ := (toFilter_text hs).mp h
    exact (toFilter_text htrim).mpr ⟨e, Expr.parse_trim he, hd⟩

/-- **A line that has a filter is answered with it**, unless it is blank and
ends the session. -/
theorem reply_of_toFilter (h : (Query.text s).toFilter o = .ok d) (pretty : Bool)
    {line : List UInt8} (hline : Session.decode? line = some s) :
    Session.reply o pretty line
      = if Text.isAllBlank s then .over else .answered 1 (Document.render d pretty ++ "\n") := by
  unfold Session.reply
  rw [hline]
  dsimp only
  rw [Text.trim_isEmpty, Session.answer, toFilter_trim h]

/-- **Trimming changes no answer.** If a text has a filter, it has the same
one without the blanks at its ends. So it is answered in the same way when
it is a line of a session, where blanks are taken off before the line is
read; only a blank line is no query there, and ends the session. -/
theorem toFilter_of_trimmed (o : Options) (s : String) (d : Document)
    (h : (Query.text s).toFilter o = .ok d) :
    (Query.text (Text.trim s)).toFilter o = .ok d
      ∧ ∀ (pretty : Bool) (line : List UInt8), Session.decode? line = some s →
        Session.reply o pretty line
          = if Text.isAllBlank s then .over
            else .answered 1 (Document.render d pretty ++ "\n") :=
  ⟨toFilter_trim h, fun pretty _ hline => reply_of_toFilter h pretty hline⟩

/-- A tab and the ends of lines go away, and a blank in a string stays. -/
theorem toFilter_of_trimmed_string :
    (Query.text "\ta='\u00a0' \r").toFilter ⟨.lastWins, []⟩ = .ok [("a", .text "\u00a0")]
      ∧ (Query.text "a='\u00a0'").toFilter ⟨.lastWins, []⟩ = .ok [("a", .text "\u00a0")]
      ∧ Session.reply ⟨.lastWins, []⟩ false [0x09, 0x61, 0x3d, 0x27, 0xc2, 0xa0, 0x27, 0x20, 0x0d]
        = .answered 1 (Document.render [("a", .text "\u00a0")] false ++ "\n") := by
  have hblank : Text.isAllBlank "\ta='\u00a0' \r" = false := by decide
  have hparse : Expr.parse "\ta='\u00a0' \r"
      = .ok (.comparison ⟨"a", .relation .eq, .text "\u00a0"⟩) := by
    cbv
  have hfilter : (Query.text "\ta='\u00a0' \r").toFilter ⟨.lastWins, []⟩
      = .ok [("a", .text "\u00a0")] :=
    (toFilter_text hblank).mpr ⟨_, hparse, rfl⟩
  have hline : Session.decode? [0x09, 0x61, 0x3d, 0x27, 0xc2, 0xa0, 0x27, 0x20, 0x0d]
      = some "\ta='\u00a0' \r" := by
    decide +kernel
  have htrim : Text.trim "\ta='\u00a0' \r" = "a='\u00a0'" := by decide +kernel
  obtain ⟨hquery, hreply⟩ := toFilter_of_trimmed _ _ _ hfilter
  refine ⟨hfilter, htrim ▸ hquery, ?_⟩
  rw [hreply false _ hline, hblank]
  rfl

end Query

end DocFilter
