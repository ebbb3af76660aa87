import DocFilter.Proofs.Blame
import DocFilter.Proofs.Faults
import DocFilter.Proofs.OneLine
import DocFilter.Proofs.Regular

/-!
# Messages on one line

A message has fixed words, numbers, and what the failure names. The words
and the numbers are on one line. What is named comes from the query, and
is on one line if the query is: the characters of a token are characters
of the text (`Token.Lexes.oneLine`), also when the token is a string,
whose content may be shown as it is for a type name; and a field goes by
its name or by its alias. So the message of a query on one line is on one
line (`Query.oneLine_message`), if the aliases are.
-/

namespace DocFilter

open Text (OneLine)

/-! ## Fixed words -/

theorem Expectation.oneLine_text (e : Expectation) : OneLine e.text := by
  cases e <;> decide +kernel

theorem Demand.oneLine_text (d : Demand) : OneLine d.text := by
  cases d <;> decide

theorem Operator.oneLine_symbol (op : Operator) : OneLine op.symbol := by
  cases op with
  | relation r => cases r <;> decide
  | size r => cases r <;> decide
  | typeOf | presence | pattern => decide

namespace Literal

theorem oneLine_kind (l : Literal) : OneLine l.kind := by
  unfold kind
  split <;> decide

/-- **A literal is described on one line**, whatever it is. -/
theorem oneLine_describe (l : Literal) : OneLine l.describe := by
  have hspace : OneLine " " := by decide
  cases l with
  | int n =>
    exact ((oneLine_kind _).append hspace).append
      (Text.oneLine_ofList.mpr (Decimal.newline_not_mem_intChars n))
  | float d => exact ((oneLine_kind _).append hspace).append (floatLayout.oneLine_write d)
  | text s => exact ((oneLine_kind _).append hspace).append (Text.oneLine_quoted s)
  | bool b =>
    refine ((oneLine_kind _).append hspace).append ?_
    split <;> decide
  | null | typeName _ => exact oneLine_kind _

end Literal

/-! ## Tokens -/

namespace Token

/-- **A token that is shown on one line**, as a token and as the name of a
type. -/
structure OneLine (t : Token) : Prop where
  /-- As a token. -/
  display : Text.OneLine t.display
  /-- As the name of a type. -/
  typeSpelling : Text.OneLine t.typeSpelling

/-- The content of a string is written with its characters. -/
theorem Quoted.mem {quote : Char} {content chars : List Char} (h : Quoted quote content chars)
    {c : Char} (hc : c ∈ content) : c ∈ chars := by
  induction h with
  | nil => exact hc
  | plain _ _ _ ih =>
    exact List.mem_cons.mpr ((List.mem_cons.mp hc).imp_right ih)
  | escaped _ _ ih =>
    exact List.mem_cons_of_mem _ (List.mem_cons.mpr ((List.mem_cons.mp hc).imp_right ih))
  | kept _ _ ih =>
    simp only [List.mem_cons] at hc ⊢
    exact hc.imp_right (Or.imp_right ih)

/-- **A token is shown on one line if its lexeme is on one.** -/
theorem IsLexeme.oneLine {t : Token} {lexeme : List Char} (h : IsLexeme t lexeme)
    (hl : '\n' ∉ lexeme) : t.OneLine := by
  cases h with
  | relation r => cases r <;> exact ⟨by decide, by decide⟩
  | pattern | openParen | closeParen | comma => exact ⟨by decide, by decide⟩
  | @keyword k _ _ => cases k <;> exact ⟨by decide, by decide⟩
  | @bool b _ _ => cases b <;> exact ⟨by decide, by decide⟩
  | null _ => exact ⟨by decide, by decide⟩
  | number _ =>
    have hshown : Text.OneLine (display (.literal (.number (String.ofList lexeme)))) :=
      .append (by decide) (Text.oneLine_ofList.mpr hl)
    exact ⟨hshown, hshown⟩
  | @text quote content chars _ hquoted =>
    have hcontent : '\n' ∉ content := fun hmem =>
      hl (List.mem_cons_of_mem _ (List.mem_append_left _ (hquoted.mem hmem)))
    exact ⟨.append (by decide) (Text.oneLine_quoted _), Text.oneLine_ofList.mpr hcontent⟩
  | word _ =>
    have hname : Text.OneLine (String.ofList lexeme) := Text.oneLine_ofList.mpr hl
    exact ⟨.append (.append (by decide) hname) (by decide), hname⟩

/-- **The tokens of a text on one line are shown on one line.** -/
theorem Lexes.oneLine {cs : List Char} {ts : List Token} (h : Lexes cs ts) (hcs : '\n' ∉ cs) :
    ∀ t ∈ ts, t.OneLine := by
  induction h with
  | gap _ => simp
  | @token cs more c s ts hgap hscan _ ih =>
    have hrest : '\n' ∉ s.lexeme ++ s.rest := by
      rw [(scan_append hscan).1, ← hgap]
      exact fun hmem => hcs ((List.dropWhile_sublist isGap).subset hmem)
    rw [List.mem_append, not_or] at hrest
    exact List.forall_mem_cons.mpr
      ⟨(isLexeme_of_scan hscan).1.oneLine hrest.1, ih hrest.2⟩

end Token

/-! ## Failures of a text -/

/-- **Where no token is found, the message is on one line.** -/
theorem LexError.oneLine_message {s : String} {err : LexError} (hs : OneLine s)
    (h : tokenize s = .error err) : OneLine err.message := by
  obtain ⟨before, c, after, fault, ts, hsplit, -, hscan, rfl, -⟩ := Token.tokensFrom_eq_error h
  have hc : '\n' ≠ c := by
    rintro rfl
    exact hs (hsplit ▸ List.mem_append_right _ List.mem_cons_self)
  have hnat := Decimal.oneLine_natText (0 + Text.byteLength before)
  rcases Token.scan_eq_error hscan with ⟨rfl, -⟩ | ⟨rfl, -⟩
  · exact .append (by decide +kernel) hnat
  · have hchar : OneLine (String.singleton c) := by simpa [OneLine] using hc
    refine .append (.append (.append ?_ hchar) ?_) hnat <;> decide +kernel

/-- What points at a token is on one line, if the token is shown on one. -/
theorem ParseError.PointsAt.oneLine_message {err : ParseError} {t : Placed} (h : err.PointsAt t)
    (ht : t.token.OneLine) : OneLine err.message := by
  have hfound : OneLine err.found := by
    cases h with
    | token _ _ => exact ht.display
    | @field name _ position =>
      have hname : OneLine name := ht.typeSpelling
      exact .append (.append (by decide) hname) (by decide)
  refine .append (.append (.append (.append (.append ?_ (Decimal.oneLine_natText _)) ?_)
    err.expected.oneLine_text) ?_) hfound <;> decide +kernel

/-- **The message of a refusal is on one line**, if the token is shown on
one and the field under way is on one. -/
theorem Parser.Refusal.oneLine_message {field? : Option String} {t : Placed} {e : QueryError}
    (h : Refusal field? t e) (ht : t.token.OneLine)
    (hfield : ∀ field, field? = some field → OneLine field) : OneLine e.message := by
  have hnat := Decimal.oneLine_natText t.position
  have hspelling : ∀ {spelling : String}, t.token = .literal (.number spelling) →
      OneLine spelling := by
    intro spelling htoken
    have hdisplay := ht.display
    rw [htoken] at hdisplay
    exact (Text.oneLine_append.mp hdisplay).2
  cases h with
  | place hpoints => exact hpoints.oneLine_message ht
  | typeName =>
    refine .append (.append (.append (.append ?_ ht.typeSpelling) ?_) hnat) ?_ <;> decide +kernel
  | integer htoken =>
    refine .append (.append (.append (.append ?_ (hspelling htoken)) ?_) hnat) ?_ <;>
      decide +kernel
  | double htoken =>
    refine .append (.append (.append (.append ?_ (hspelling htoken)) ?_) hnat) ?_ <;>
      decide +kernel
  | @kind c demand hc =>
    refine .append (.append (.append (.append (.append (.append (.append ?_ (hfield c.field hc)) ?_)
      c.op.oneLine_symbol) ?_) demand.oneLine_text) ?_) c.value.oneLine_describe <;> decide +kernel

/-- **A text on one line that is no expression has a message on one
line.** -/
theorem Expr.oneLine_message_of_parse {s : String} {err : QueryError} (hs : OneLine s)
    (h : Expr.parse s = .error err) : OneLine err.message := by
  unfold Expr.parse at h
  cases htokenize : tokenize s with
  | error lexError =>
    rw [htokenize] at h
    obtain rfl := Except.error.inj h
    exact LexError.oneLine_message hs htokenize
  | ok ts =>
    rw [htokenize] at h
    obtain ⟨body, hlexes, hts⟩ := Token.lexes_of_tokensFrom htokenize
    have heof : .eof ∈ ts.map Placed.token := by rw [← hts]; simp
    have htokens : ∀ t ∈ ts.map Placed.token, t.OneLine := by
      rw [← hts, List.forall_mem_append, List.forall_mem_singleton]
      exact ⟨hlexes.oneLine hs, by decide, by decide⟩
    obtain ⟨before, t, after, state, rfl, hsteps, href⟩ := Parser.exists_refused h heof
    rw [List.map_append, List.map_cons, List.forall_mem_append, List.forall_mem_cons] at htokens
    exact href.refusal.oneLine_message htokens.2.1 fun field hfield =>
      (htokens.1 _ (hsteps.word_mem hfield)).typeSpelling

/-! ## Failures of a query -/

/-- **The message of a translation is on one line**, if the field that it
names is. -/
theorem FilterError.oneLine_message {err : FilterError}
    (h : ∀ field, err.field? = some field → OneLine field) : OneLine err.message := by
  cases err with
  | fieldConflict field =>
    refine .append (.append ?_ (h field rfl)) ?_ <;> decide +kernel
  | whereConflict => decide +kernel
  | unsafeField field =>
    refine .append (.append ?_ (h field rfl)) ?_ <;> decide +kernel
  | invalidOperand c =>
    refine .append (.append (.append (.append (.append (.append ?_ (h c.field rfl)) ?_)
      c.op.oneLine_symbol) ?_) c.value.oneLine_kind) ?_ <;> decide +kernel

/-- A field that a text can name is on one line. -/
theorem IsField.oneLine {field : String} (h : IsField field) : OneLine field := by
  intro hmem
  have hword := (isField_iff.mp h).1.chars _ hmem
  exact absurd hword (by decide)

namespace Query

variable {o : Options} {s : String} {err : QueryError}

/-- A text fails because it is no expression, or because its expression has
no filter. -/
theorem toFilter_text_eq_error (h : (Query.text s).toFilter o = .error err) :
    Expr.parse s = .error err
      ∨ ∃ e filterError, Expr.parse s = .ok e ∧ e.toFilter o = .error filterError
        ∧ err = .filter filterError := by
  rw [toFilter, parse] at h
  split at h
  · rename_i hparse
    obtain rfl := Except.error.inj h
    split at hparse
    · cases hparse
    · exact .inl (map_eq_error_iff.mp hparse)
  · cases h
  · rename_i e hparse
    split at hparse
    · cases hparse
    · obtain ⟨e', he, hsome⟩ := map_eq_ok_iff.mp hparse
      obtain rfl := Option.some.inj hsome
      split at h
      · rename_i filterError hfilter
        exact .inr ⟨e', filterError, he, hfilter, (Except.error.inj h).symm⟩
      · cases h

/-- **The message of a query on one line is on one line**, if all aliases
are. -/
theorem oneLine_message (ho : ∀ a ∈ o.aliases, OneLine a.2) (hs : OneLine s)
    (h : (Query.text s).toFilter o = .error err) : OneLine err.message := by
  rcases toFilter_text_eq_error h with hparse | ⟨e, filterError, hparse, hfilter, rfl⟩
  · exact Expr.oneLine_message_of_parse hs hparse
  · have hfield : ∀ c ∈ e.comparisons, OneLine c.field := fun c hc =>
      ((Expr.regular_of_parse hparse).proper c hc).field.oneLine
    refine FilterError.oneLine_message fun field hnamed => ?_
    cases Filter.names_of_ofExpr_eq_error hfilter hnamed with
    | field hc => exact hfield _ hc
    | path hc => exact Options.resolve_of_forall ho (hfield _ hc)
    | key hdoc _ =>
      -- a text has no ready-made documents
      rw [(Expr.written_of_parse hparse).fragments] at hdoc
      cases hdoc

end Query

end DocFilter
