import DocFilter.Proofs.RoundTrip

/-!
# A parse error points at the first token that has no place

The machine takes the tokens one by one, and a parse error is the refusal
of one of them. Two things are to be said of the token that is refused.

*What stands before it is the start of a query.* Whatever state the
machine is in, there is a way to the end: complete the comparison that is
under way, and close the parentheses that are open
(`Parser.State.completion`). None of this nests any deeper, so that the
limit is no obstacle.

*With it, nothing is.* The state after the tokens before is the same in
every query that starts with them, and whether a token is refused depends
on the state and the token alone (`Parser.State.Refuses.of_token`).

The error names the place of the refused token and shows the token, or its
field where the path of the field has an empty segment
(`ParseError.PointsAt`).
-/

namespace DocFilter

/-- **A list of tokens that forms an expression.** -/
def Parser.Accepted (ts : List Placed) : Prop :=
  ∃ e, Parser.parseTokens ts = .ok e

/-- **What an error says about a token**: its place, and the token as
messages show it. A field with an empty segment in its path is shown as it
is, in quotes. -/
inductive ParseError.PointsAt : ParseError → Placed → Prop where
  /-- The token has no place here. -/
  | token {expected : Expectation} (h : expected ≠ .fieldPath) (t : Placed) :
    PointsAt ⟨t.position, expected, t.token.display⟩ t
  /-- The path of the field has an empty segment. -/
  | field {name : String} (h : [] ∈ Text.segments '.' name.toList) (position : Nat) :
    PointsAt ⟨position, .fieldPath, "'" ++ name ++ "'"⟩ ⟨.word name, position⟩

namespace Parser

/-! ## Every state can be completed -/

/-- A literal that a comparison can end with. -/
def sampleLiteral : Operator → RawLiteral
  | .pattern => .text ""
  | .presence => .bool true
  | _ => .number "1"

/-- **Tokens that complete the comparison under way**, or start one and
complete it. -/
def Awaiting.completion : Awaiting → List Token
  | .operand => [.word "a", .relation .eq, .literal (.number "1")]
  | .operator _ => [.relation .eq, .literal (.number "1")]
  | .size _ => [.literal (.number "1")]
  | .literal _ op => [.literal (sampleLiteral op)]
  | .typeName _ => [.literal .null]
  | .connective => []

/-- **Tokens that complete a query**: those of the comparison, and a
parenthesis for every level that is open. -/
def State.completion (s : State) : List Token :=
  s.awaiting.completion ++ List.replicate s.outer.length .closeParen

theorem value?_one : RawLiteral.value? (.number "1") = some (.int 1) := by cbv

/-- The sample is one that the operator takes. -/
theorem exists_value_sampleLiteral (op : Operator) :
    ∃ value, (sampleLiteral op).value? = some value ∧ op.unmet? value = none := by
  cases op with
  | relation r => exact ⟨.int 1, value?_one, by cases r <;> rfl⟩
  | typeOf => exact ⟨.int 1, value?_one, rfl⟩
  | presence => exact ⟨.bool true, rfl, rfl⟩
  | pattern => exact ⟨.text "", rfl, rfl⟩
  | size r => exact ⟨.int 1, value?_one, by cases r <;> rfl⟩

/-- A comparison that is under way can be completed. -/
theorem exists_steps_comparison (outer : List Level) (level : Level) (awaiting : Awaiting) :
    ∃ level', Steps ⟨outer, level, awaiting⟩ awaiting.completion ⟨outer, level', .connective⟩ := by
  cases awaiting with
  | operand =>
    exact ⟨_, .cons (.field (by decide)) (.cons .relation (.cons (.literal value?_one rfl) .nil))⟩
  | operator field => exact ⟨_, .cons .relation (.cons (.literal value?_one rfl) .nil)⟩
  | size field => exact ⟨_, .cons (.length value?_one rfl) .nil⟩
  | literal field op =>
    obtain ⟨value, hv, hu⟩ := exists_value_sampleLiteral op
    exact ⟨_, .cons (.literal hv hu) .nil⟩
  | typeName field =>
    exact ⟨_, .cons (@Step.typeName _ _ _ .null .null (by decide)) .nil⟩
  | connective => exact ⟨level, .nil⟩

/-- Open parentheses can be closed behind a complete operand. -/
theorem exists_steps_closeParens (outer : List Level) (level : Level) :
    ∃ level', Steps ⟨outer, level, .connective⟩ (List.replicate outer.length .closeParen)
      ⟨[], level', .connective⟩ := by
  induction outer generalizing level with
  | nil => exact ⟨level, .nil⟩
  | cons l outer ih =>
    obtain ⟨level', hs⟩ := ih (l.push level.toExpr)
    exact ⟨level', .cons .closeParen hs⟩

/-- **Every state can be completed to a query.** -/
theorem exists_steps_completion (s : State) :
    ∃ level, Steps s s.completion ⟨[], level, .connective⟩ := by
  obtain ⟨outer, level, awaiting⟩ := s
  obtain ⟨level₁, hcomparison⟩ := exists_steps_comparison outer level awaiting
  obtain ⟨level₂, hparens⟩ := exists_steps_closeParens outer level₁
  exact ⟨level₂, hcomparison.append hparens⟩

/-! ## The completion as a text -/

/-- A token that has a lexeme can be written. -/
theorem writable_of_isLexeme {t : Token} {lexeme : List Char} (h : Token.IsLexeme t lexeme) :
    t.Writable := by
  cases h with
  | number h => simpa [Token.Writable] using h
  | word h => simpa [Token.Writable] using h
  | _ => trivial

/-- The tokens of a text can be written. -/
theorem writable_of_lexes {cs : List Char} {ts : List Token} (h : Token.Lexes cs ts) :
    ∀ t ∈ ts, t.Writable := by
  induction h with
  | gap _ => simp
  | token _ hs _ ih => exact List.forall_mem_cons.mpr ⟨writable_of_isLexeme
      (Token.isLexeme_of_scan hs).1, ih⟩

/-- So can the tokens of a completion. -/
theorem writable_completion (s : State) : ∀ t ∈ s.completion, t.Writable := by
  have hfield : Token.Writable (.word "a") :=
    ⟨by decide, List.all_eq_true.mp (by decide), by decide, by decide⟩
  have hone : Token.Writable (.literal (.number "1")) := by
    show Decimal.IsNumeral "1".toList
    decide
  have hliteral : ∀ op, Token.Writable (.literal (sampleLiteral op)) := by
    intro op
    cases op with
    | pattern | presence => trivial
    | relation _ | typeOf | size _ => exact hone
  intro t ht
  rcases List.mem_append.mp ht with ht | ht
  · cases hs : s.awaiting with
    | connective => simp [hs, Awaiting.completion] at ht
    | operand =>
      simp only [hs, Awaiting.completion, List.mem_cons, List.not_mem_nil, or_false] at ht
      rcases ht with rfl | rfl | rfl
      · exact hfield
      · trivial
      · exact hone
    | operator field =>
      simp only [hs, Awaiting.completion, List.mem_cons, List.not_mem_nil, or_false] at ht
      rcases ht with rfl | rfl
      · trivial
      · exact hone
    | size field =>
      rw [hs, Awaiting.completion, List.mem_singleton] at ht
      exact ht ▸ hone
    | literal field op =>
      rw [hs, Awaiting.completion, List.mem_singleton] at ht
      exact ht ▸ hliteral op
    | typeName field =>
      rw [hs, Awaiting.completion, List.mem_singleton] at ht
      exact ht ▸ trivial
  · rw [List.eq_of_mem_replicate ht]
    trivial

/-- **Tokens that the machine takes are the start of the tokens of a
query**, of one that a text writes. -/
theorem exists_accepted_text {before : List Token} {s : State} (hw : ∀ t ∈ before, t.Writable)
    (h : Steps .initial before s) :
    ∃ (text : String) (ts : List Placed), tokenize text = .ok ts ∧ Accepted ts
      ∧ before <+: ts.map Placed.token := by
  have hall : ∀ t ∈ before ++ s.completion, t.Writable :=
    List.forall_mem_append.mpr ⟨hw, writable_completion s⟩
  have hlexes := Token.lexes_of_rendered (Token.rendered_spaced (before ++ s.completion)) hall
  obtain ⟨ts, htokens, hts⟩ := Token.lexes_iff.mp hlexes
  have htokenize : tokenize (Token.spaced (before ++ s.completion)) = .ok ts := htokens
  obtain ⟨body, hbody, hparse⟩ := parse_eq_ok_iff_steps htokenize
  obtain ⟨level, hcompletion⟩ := exists_steps_completion s
  have heq : body = before ++ s.completion := List.append_cancel_right (hbody.symm.trans hts.symm)
  have hok := (hparse level.toExpr).mpr ⟨level, heq ▸ h.append hcompletion, rfl⟩
  refine ⟨_, ts, htokenize, ⟨level.toExpr, ?_⟩, s.completion ++ [.eof], ?_⟩
  · unfold Expr.parse at hok
    rwa [htokenize] at hok
  · rw [← List.append_assoc, hts]

/-! ## The refusal of a token -/

/-- **A token is refused**, or, at the end of the text, the end is. -/
def State.Refuses (s : State) (t : Placed) (e : QueryError) : Prop :=
  (t.token = .eof ∧ s.finish t.position = .error e) ∨ (t.token ≠ .eof ∧ s.step t = .error e)

/-- The end of the text is not a step. -/
theorem Step.ne_eof {s s' : State} {t : Token} (h : Step s t s') : t ≠ .eof := by
  cases h with
  | @typeName _ _ _ name => cases name <;> exact Token.noConfusion
  | _ => exact Token.noConfusion

theorem Steps.ne_eof {s s' : State} {ts : List Token} (h : Steps s ts s') :
    ∀ t ∈ ts, t ≠ .eof := by
  induction h with
  | nil => simp
  | cons hstep _ ih => exact List.forall_mem_cons.mpr ⟨hstep.ne_eof, ih⟩

/-- **A token is refused wherever it stands.** -/
theorem State.Refuses.of_token {s : State} {t t' : Placed} {e : QueryError} (h : s.Refuses t e)
    (ht : t'.token = t.token) : ∃ e', s.Refuses t' e' := by
  rcases h with ⟨heof, hfinish⟩ | ⟨hne, hstep⟩
  · cases hfinish' : s.finish t'.position with
    | error e' => exact ⟨e', .inl ⟨ht.trans heof, hfinish'⟩⟩
    | ok expr =>
      rw [finish_eq_ok_iff.mpr (finish_eq_ok_iff.mp hfinish')] at hfinish
      cases hfinish
  · cases hstep' : s.step t' with
    | error e' => exact ⟨e', .inr ⟨ht ▸ hne, hstep'⟩⟩
    | ok s' =>
      rw [step_eq_ok_iff.mpr (ht ▸ step_eq_ok_iff.mp hstep')] at hstep
      cases hstep

/-- **A run that fails fails at a token**, behind tokens that are taken. -/
theorem exists_refused {s : State} {ts : List Placed} {e : QueryError} (h : s.run ts = .error e)
    (heof : .eof ∈ ts.map Placed.token) :
    ∃ (before : List Placed) (t : Placed) (after : List Placed) (s' : State),
      ts = before ++ t :: after ∧ Steps s (before.map Placed.token) s' ∧ s'.Refuses t e := by
  induction ts generalizing s with
  | nil => cases heof
  | cons t rest ih =>
    rw [State.run] at h
    by_cases ht : t.token = .eof
    · rw [if_pos ht] at h
      exact ⟨[], t, rest, s, rfl, .nil, .inl ⟨ht, h⟩⟩
    · rw [if_neg ht] at h
      cases hstep : s.step t with
      | error e' =>
        rw [hstep] at h
        obtain rfl := Except.error.inj h
        exact ⟨[], t, rest, s, rfl, .nil, .inr ⟨ht, hstep⟩⟩
      | ok s₁ =>
        rw [hstep] at h
        have hrest : .eof ∈ rest.map Placed.token :=
          (List.mem_cons.mp heof).resolve_left (fun heq => ht heq.symm)
        obtain ⟨before, t', after, s', rfl, hs, href⟩ := ih h hrest
        exact ⟨t :: before, t', after, s', rfl, .cons (step_eq_ok_iff.mp hstep) hs, href⟩

/-- **What starts with a refusal fails.** -/
theorem exists_error_of_refuses {s s' : State} {before : List Token} {t : Placed} {e : QueryError}
    (h : Steps s before s') (href : s'.Refuses t e) {ts : List Placed}
    (hts : before ++ [t.token] <+: ts.map Placed.token) : ∃ e', s.run ts = .error e' := by
  induction h generalizing ts with
  | nil =>
    obtain ⟨more, hmore⟩ := hts
    obtain ⟨t', rest, rfl, ht', -⟩ := List.map_eq_cons_iff.mp hmore.symm
    obtain ⟨e', href'⟩ := href.of_token ht'
    refine ⟨e', ?_⟩
    rw [State.run]
    rcases href' with ⟨heof, hfinish⟩ | ⟨hne, hstep⟩
    · rw [if_pos heof, hfinish]
    · rw [if_neg hne, hstep]
  | cons hstep _ ih =>
    obtain ⟨more, hmore⟩ := hts
    obtain ⟨t', rest, rfl, rfl, hrest⟩ := List.map_eq_cons_iff.mp hmore.symm
    rw [State.run, if_neg hstep.ne_eof, step_eq_ok_iff.mpr hstep]
    exact ih href ⟨more, hrest.symm⟩

/-! ## What the error shows -/

/-- Only a field is expected to have a path. -/
theorem expected_ne_fieldPath (s : State) (t : Token) : s.expected t ≠ .fieldPath := by
  unfold State.expected
  split
  case h_10 => split <;> decide
  all_goals decide

theorem pointsAt_refuse {s : State} {t : Placed} {err : ParseError}
    (h : s.refuse t = .parse err) : err.PointsAt t := by
  obtain rfl := QueryError.parse.inj h
  exact .token (expected_ne_fieldPath s t.token) t

theorem pointsAt_of_takeLiteral {s : State} {field : String} {op : Operator} {t : Placed}
    {err : ParseError} (h : s.takeLiteral field op t = .error (.parse err)) : err.PointsAt t := by
  unfold State.takeLiteral at h
  split at h
  · split at h
    · cases h
    · split at h <;> cases h
  · exact pointsAt_refuse (Except.error.inj h)

theorem pointsAt_of_takeOperand {s : State} {t : Placed} {err : ParseError}
    (h : s.takeOperand t = .error (.parse err)) : err.PointsAt t := by
  obtain ⟨token, position⟩ := t
  unfold State.takeOperand at h
  split at h
  · rename_i name htoken
    obtain rfl : token = _ := htoken
    unfold State.takeField at h
    split at h
    · rename_i hempty
      obtain rfl := QueryError.parse.inj (Except.error.inj h)
      obtain ⟨segment, hmem, hnil⟩ := List.any_eq_true.mp hempty
      exact .field (List.isEmpty_iff.mp hnil ▸ hmem) position
    · cases h
  · split at h
    · cases h
    · obtain rfl := QueryError.parse.inj (Except.error.inj h)
      exact .token (by decide) _
  · split at h
    · cases h
    · obtain rfl := QueryError.parse.inj (Except.error.inj h)
      exact .token (by decide) _
  · exact pointsAt_refuse (Except.error.inj h)

theorem pointsAt_of_takeOperator {s : State} {field : String} {t : Placed} {err : ParseError}
    (h : s.takeOperator field t = .error (.parse err)) : err.PointsAt t := by
  unfold State.takeOperator at h
  split at h
  case h_4 =>
    split at h
    · cases h
    · split at h
      · cases h
      · exact pointsAt_refuse (Except.error.inj h)
  case h_5 => exact pointsAt_refuse (Except.error.inj h)
  all_goals cases h

theorem pointsAt_of_takeTypeName {s : State} {field : String} {t : Placed} {err : ParseError}
    (h : s.takeTypeName field t = .error (.parse err)) : err.PointsAt t := by
  unfold State.takeTypeName at h
  split at h
  · split at h <;> cases h
  · exact pointsAt_refuse (Except.error.inj h)

theorem pointsAt_of_takeConnective {s : State} {t : Placed} {err : ParseError}
    (h : s.takeConnective t = .error (.parse err)) : err.PointsAt t := by
  unfold State.takeConnective at h
  split at h
  case h_4 => exact pointsAt_refuse (Except.error.inj h)
  all_goals cases h

theorem pointsAt_of_finish {s : State} {position : Nat} {err : ParseError}
    (h : s.finish position = .error (.parse err)) : err.PointsAt ⟨.eof, position⟩ := by
  unfold State.finish at h
  split at h
  · cases h
  · exact pointsAt_refuse (Except.error.inj h)

/-- **The refusal of a token points at it.** -/
theorem State.Refuses.pointsAt {s : State} {t : Placed} {err : ParseError}
    (h : s.Refuses t (.parse err)) : err.PointsAt t := by
  rcases h with ⟨heof, hfinish⟩ | ⟨-, hstep⟩
  · obtain ⟨token, position⟩ := t
    obtain rfl : token = .eof := heof
    exact pointsAt_of_finish hfinish
  · unfold State.step at hstep
    split at hstep
    · exact pointsAt_of_takeOperand hstep
    · exact pointsAt_of_takeOperator hstep
    · split at hstep
      · cases hstep
      · exact pointsAt_of_takeLiteral hstep
    · exact pointsAt_of_takeLiteral hstep
    · exact pointsAt_of_takeTypeName hstep
    · exact pointsAt_of_takeConnective hstep

end Parser

/-- A text with a parse error has tokens, and the run over them fails. -/
theorem Expr.run_of_parse_eq_error {s : String} {err : ParseError}
    (h : Expr.parse s = .error (.parse err)) :
    ∃ ts, tokenize s = .ok ts ∧ Parser.State.initial.run ts = .error (.parse err) := by
  unfold Expr.parse at h
  cases hts : tokenize s with
  | error e => rw [hts] at h; cases h
  | ok ts =>
    rw [hts] at h
    exact ⟨ts, rfl, h⟩

/-- **A parse error points at the first token that has no place.** The
tokens before it are the start of the tokens of a query, and no list of
tokens that starts with it and those before forms an expression. -/
theorem Expr.parse_error_pointsAt {s : String} {err : ParseError}
    (h : Expr.parse s = .error (.parse err)) :
    ∃ (before : List Placed) (t : Placed) (after : List Placed),
      tokenize s = .ok (before ++ t :: after) ∧ err.PointsAt t
      ∧ (∃ (text : String) (ts : List Placed), tokenize text = .ok ts ∧ Parser.Accepted ts
        ∧ before.map Placed.token <+: ts.map Placed.token)
      ∧ ∀ ts : List Placed, Parser.Accepted ts →
        ¬ (before ++ [t]).map Placed.token <+: ts.map Placed.token := by
  obtain ⟨ts, htokenize, hrun⟩ := Expr.run_of_parse_eq_error h
  obtain ⟨body, hlexes, hts⟩ := Token.lexes_of_tokensFrom htokenize
  have heof : .eof ∈ ts.map Placed.token := by rw [← hts]; simp
  obtain ⟨before, t, after, state, rfl, hsteps, href⟩ := Parser.exists_refused hrun heof
  refine ⟨before, t, after, htokenize, href.pointsAt, ?_, ?_⟩
  · -- the end of the text is not a step, so all tokens before are written in the text
    have hwritable : ∀ u ∈ before.map Placed.token, u.Writable := by
      intro u hu
      have hmem : u ∈ body ++ [.eof] := by
        rw [hts, List.map_append]
        exact List.mem_append_left _ hu
      rw [List.mem_append, List.mem_singleton] at hmem
      exact Parser.writable_of_lexes hlexes u (hmem.resolve_right (hsteps.ne_eof u hu))
    exact Parser.exists_accepted_text hwritable hsteps
  · rintro ts' ⟨e, haccepted⟩ hstart
    rw [List.map_append] at hstart
    obtain ⟨e', herror⟩ := Parser.exists_error_of_refuses hsteps href hstart
    rw [Parser.parseTokens, herror] at haccepted
    cases haccepted

/-- The pattern symbol has no place behind `size`, in parentheses under a
negation. -/
theorem Expr.parse_error_pointsAt_size :
    Expr.parse "not (b size ~ 2)" = .error (.parse ⟨12, .sizeRelation, "operator '~'"⟩)
      ∧ ∃ (before : List Placed) (t : Placed) (after : List Placed),
        tokenize "not (b size ~ 2)" = .ok (before ++ t :: after)
        ∧ ParseError.PointsAt ⟨12, .sizeRelation, "operator '~'"⟩ t
        ∧ (∃ (text : String) (ts : List Placed), tokenize text = .ok ts ∧ Parser.Accepted ts
          ∧ before.map Placed.token <+: ts.map Placed.token)
        ∧ ∀ ts : List Placed, Parser.Accepted ts →
          ¬ (before ++ [t]).map Placed.token <+: ts.map Placed.token := by
  have htokens : tokenize "not (b size ~ 2)" = .ok [⟨.keyword .not, 0⟩, ⟨.openParen, 4⟩,
      ⟨.word "b", 5⟩, ⟨.word "size", 7⟩, ⟨.pattern, 12⟩, ⟨.literal (.number "2"), 14⟩,
      ⟨.closeParen, 15⟩, ⟨.eof, 16⟩] := by
    cbv
  have herror : Expr.parse "not (b size ~ 2)"
      = .error (.parse ⟨12, .sizeRelation, "operator '~'"⟩) := by
    unfold Expr.parse
    rw [htokens]
    rfl
  exact ⟨herror, Expr.parse_error_pointsAt herror⟩

end DocFilter
