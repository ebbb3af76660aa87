import DocFilter.Proofs.Grammar

/-!
# The parser as a relation

The parser is a machine that takes the tokens one by one and refuses a
token on the spot. `Step` is that machine without its errors and without
places in the text: one case for each token that has a place somewhere.
`step_eq_ok_iff` says that it is the same machine, and nothing of the
machine is unfolded after that.

`Steps` is a run of it. The tokens of a text end with the end of the text
and have it nowhere else (`tokenize_eq_ok`), so that a query is accepted
exactly when a run over the tokens before comes out at the outermost level
behind a complete operand (`parse_eq_ok_iff_steps`).
-/

namespace DocFilter

namespace Parser

open Grammar

/-! ## The machine as a relation -/

/-- **One step of the machine**, by token. -/
inductive Step : State → Token → State → Prop where
  /-- A field starts a comparison. -/
  | field {outer : List Level} {level : Level} {name : String}
    (hp : ∀ segment ∈ Text.segments '.' name.toList, segment ≠ []) :
    Step ⟨outer, level, .operand⟩ (.word name) ⟨outer, level, .operator name⟩
  /-- A parenthesis opens a level. -/
  | openParen {outer : List Level} {level : Level}
    (hd : State.depth ⟨outer, level, .operand⟩ < nestingLimit) :
    Step ⟨outer, level, .operand⟩ .openParen ⟨level :: outer, .empty, .operand⟩
  /-- A negation waits for its operand. -/
  | not {outer : List Level} {level : Level}
    (hd : State.depth ⟨outer, level, .operand⟩ < nestingLimit) :
    Step ⟨outer, level, .operand⟩ (.keyword .not)
      ⟨outer, { level with nots := level.nots + 1 }, .operand⟩
  /-- A relation. -/
  | relation {outer : List Level} {level : Level} {field : String} {r : Relation} :
    Step ⟨outer, level, .operator field⟩ (.relation r)
      ⟨outer, level, .literal field (.relation r)⟩
  /-- The pattern symbol. -/
  | pattern {outer : List Level} {level : Level} {field : String} :
    Step ⟨outer, level, .operator field⟩ .pattern ⟨outer, level, .literal field .pattern⟩
  /-- The word `type`. -/
  | typeOf {outer : List Level} {level : Level} {field : String} :
    Step ⟨outer, level, .operator field⟩ (.keyword .type) ⟨outer, level, .typeName field⟩
  /-- The word `exists`. -/
  | presence {outer : List Level} {level : Level} {field word : String}
    (hw : Text.sameWord word "exists" = true) :
    Step ⟨outer, level, .operator field⟩ (.word word) ⟨outer, level, .literal field .presence⟩
  /-- The word `size`. -/
  | size {outer : List Level} {level : Level} {field word : String}
    (hw : Text.sameWord word "size" = true) :
    Step ⟨outer, level, .operator field⟩ (.word word) ⟨outer, level, .size field⟩
  /-- A relation on a length. -/
  | sizeRelation {outer : List Level} {level : Level} {field : String} {r : Relation} :
    Step ⟨outer, level, .size field⟩ (.relation r) ⟨outer, level, .literal field (.size r)⟩
  /-- A length at once. -/
  | length {outer : List Level} {level : Level} {field : String} {raw : RawLiteral}
    {value : Literal} (hv : raw.value? = some value)
    (hu : Operator.unmet? (.size .eq) value = none) :
    Step ⟨outer, level, .size field⟩ (.literal raw)
      ⟨outer, level.push (.comparison ⟨field, .size .eq, value⟩), .connective⟩
  /-- A literal completes a comparison. -/
  | literal {outer : List Level} {level : Level} {field : String} {op : Operator}
    {raw : RawLiteral} {value : Literal} (hv : raw.value? = some value)
    (hu : op.unmet? value = none) :
    Step ⟨outer, level, .literal field op⟩ (.literal raw)
      ⟨outer, level.push (.comparison ⟨field, op, value⟩), .connective⟩
  /-- A name completes a comparison. -/
  | typeName {outer : List Level} {level : Level} {field : String} {name : TypeWord}
    {type : TypeName} (hn : TypeName.ofName? name.spelling = some type) :
    Step ⟨outer, level, .typeName field⟩ name.token
      ⟨outer, level.push (.comparison ⟨field, .typeOf, .typeName type⟩), .connective⟩
  /-- One more operand follows. -/
  | and {outer : List Level} {level : Level} :
    Step ⟨outer, level, .connective⟩ (.keyword .and) ⟨outer, level, .operand⟩
  /-- One more branch follows. -/
  | or {outer : List Level} {level : Level} :
    Step ⟨outer, level, .connective⟩ (.keyword .or) ⟨outer, level.branch, .operand⟩
  /-- A parenthesis closes a level. -/
  | closeParen {outer : List Level} {l level : Level} :
    Step ⟨l :: outer, level, .connective⟩ .closeParen
      ⟨outer, l.push level.toExpr, .connective⟩

/-- A path without empty segments. -/
theorem hasEmptySegment_eq_false_iff {name : String} :
    State.hasEmptySegment name = false
      ↔ ∀ segment ∈ Text.segments '.' name.toList, segment ≠ [] := by
  unfold State.hasEmptySegment
  rw [List.any_eq_false]
  refine forall₂_congr (fun segment _ => ?_)
  rw [List.isEmpty_iff]

/-- A name with a space in it is no type. -/
theorem ofName?_eq_none {word : String} (h : ' ' ∈ word.toList) : TypeName.ofName? word = none := by
  have hspace : ∀ e ∈ TypeName.spellings, ' ' ∉ e.1.toList := by decide
  unfold TypeName.ofName?
  rw [List.lookup_eq_none_iff]
  intro e he
  refine bne_iff_ne.mpr (fun heq => hspace e he ?_)
  rw [← heq, Text.lowerCase, String.toList_ofList]
  exact List.mem_map.mpr ⟨' ', h, by decide⟩

/-- A token that is judged as a name, and has no spelling of its own, is no
type. -/
theorem ofName?_display {t : Token} (hc : State.canNameType t = true)
    (hn : ∀ name : TypeWord, t ≠ name.token) : TypeName.ofName? t.display = none := by
  cases t with
  | word name => exact absurd rfl (hn (.word name))
  | literal raw =>
    cases raw with
    | number spelling =>
      refine ofName?_eq_none ?_
      rw [Token.display, String.toList_append]
      exact List.mem_append_left _ (by decide)
    | text content => exact absurd rfl (hn (.text content))
    | bool b => cases b <;> decide +kernel
    | null => exact absurd rfl (hn .null)
  | keyword k =>
    cases k with
    | not => decide +kernel
    | type => decide +kernel
    | _ => cases hc
  | _ => cases hc

/-- A name is spelled as its token says. -/
theorem typeSpelling_token (name : TypeWord) : name.token.typeSpelling = name.spelling := by
  cases name <;> rfl

/-- Other tokens are spelled as messages show them. -/
theorem typeSpelling_eq_display {t : Token} (hn : ∀ name : TypeWord, t ≠ name.token) :
    t.typeSpelling = t.display := by
  cases t with
  | word name => exact absurd rfl (hn (.word name))
  | literal raw =>
    cases raw with
    | text content => exact absurd rfl (hn (.text content))
    | null => exact absurd rfl (hn .null)
    | _ => rfl
  | _ => rfl

/-- **What names a type**, among the tokens that are judged as a name. -/
theorem ofTypeToken_eq_ok_iff {t : Token} {position : Nat} {value : Literal}
    (hc : State.canNameType t = true) :
    Literal.ofTypeToken t position = .ok value ↔ ∃ (name : TypeWord) (type : TypeName),
      t = name.token ∧ TypeName.ofName? name.spelling = some type ∧ value = .typeName type := by
  unfold Literal.ofTypeToken
  by_cases hn : ∃ name : TypeWord, t = name.token
  · obtain ⟨name, rfl⟩ := hn
    rw [typeSpelling_token]
    cases htype : TypeName.ofName? name.spelling with
    | none =>
      refine ⟨fun h => (by cases h), ?_⟩
      rintro ⟨name', type, hname, hsome, -⟩
      rw [← TypeWord.token_injective hname, htype] at hsome
      cases hsome
    | some type =>
      refine ⟨fun h => ⟨name, type, rfl, htype, (Except.ok.inj h).symm⟩, ?_⟩
      rintro ⟨name', type', hname, hsome, rfl⟩
      rw [← TypeWord.token_injective hname, htype] at hsome
      rw [Option.some.inj hsome]
  · rw [not_exists] at hn
    rw [typeSpelling_eq_display hn, ofName?_display hc hn]
    refine ⟨fun h => (by cases h), ?_⟩
    rintro ⟨name, _, hname, -⟩
    exact absurd hname (hn name)

/-- A literal is taken if it can be read and meets the demand. -/
theorem takeLiteral_eq_ok_iff {s s' : State} {field : String} {op : Operator} {t : Placed} :
    s.takeLiteral field op t = .ok s' ↔ ∃ raw value, t.token = .literal raw
      ∧ raw.value? = some value ∧ op.unmet? value = none
      ∧ s' = s.push (.comparison ⟨field, op, value⟩) := by
  obtain ⟨token, position⟩ := t
  unfold State.takeLiteral
  cases token with
  | literal raw =>
    dsimp only
    cases hv : Literal.ofRaw raw position with
    | error e =>
      refine ⟨fun h => (by cases h), ?_⟩
      rintro ⟨raw', value, hraw, hvalue, -⟩
      cases hraw
      rw [Literal.ofRaw_eq_ok_iff.mpr hvalue] at hv
      cases hv
    | ok value =>
      have hvalue : raw.value? = some value := Literal.ofRaw_eq_ok_iff.mp hv
      dsimp only
      cases hu : op.unmet? value with
      | some demand =>
        refine ⟨fun h => (by cases h), ?_⟩
        rintro ⟨raw', value', hraw, hvalue', hmet, -⟩
        cases hraw
        obtain rfl := Option.some.inj (hvalue.symm.trans hvalue')
        rw [hu] at hmet
        cases hmet
      | none =>
        refine ⟨fun h => ⟨raw, value, rfl, hvalue, hu, (Except.ok.inj h).symm⟩, ?_⟩
        rintro ⟨raw', value', hraw, hvalue', -, rfl⟩
        cases hraw
        obtain rfl := Option.some.inj (hvalue.symm.trans hvalue')
        rfl
  | _ =>
    refine ⟨fun h => (by cases h), ?_⟩
    rintro ⟨raw, value, hraw, -⟩
    cases hraw

theorem takeLiteral_of_value {raw : RawLiteral} {value : Literal} {op : Operator}
    (hv : raw.value? = some value) (hu : op.unmet? value = none) (s : State) (field : String)
    (position : Nat) :
    s.takeLiteral field op ⟨.literal raw, position⟩
      = .ok (s.push (.comparison ⟨field, op, value⟩)) :=
  takeLiteral_eq_ok_iff.mpr ⟨raw, value, rfl, hv, hu, rfl⟩

/-- **What the machine takes is a step.** -/
theorem step_of_eq_ok {s s' : State} {t : Placed} (h : s.step t = .ok s') : Step s t.token s' := by
  obtain ⟨outer, level, awaiting⟩ := s
  obtain ⟨token, position⟩ := t
  cases awaiting with
  | operand =>
    change State.takeOperand _ _ = _ at h
    unfold State.takeOperand at h
    split at h
    · rename_i name htoken
      obtain rfl : token = _ := htoken
      unfold State.takeField at h
      split at h
      · cases h
      · rename_i hseg
        obtain rfl := Except.ok.inj h
        rw [Bool.not_eq_true] at hseg
        exact .field (hasEmptySegment_eq_false_iff.mp hseg)
    · rename_i htoken
      obtain rfl : token = _ := htoken
      split at h
      · rename_i hd
        obtain rfl := Except.ok.inj h
        exact .openParen hd
      · cases h
    · rename_i htoken
      obtain rfl : token = _ := htoken
      split at h
      · rename_i hd
        obtain rfl := Except.ok.inj h
        exact .not hd
      · cases h
    · cases h
  | operator field =>
    change State.takeOperator _ _ _ = _ at h
    unfold State.takeOperator at h
    split at h
    · rename_i r htoken
      obtain rfl : token = _ := htoken
      obtain rfl := Except.ok.inj h
      exact .relation
    · rename_i htoken
      obtain rfl : token = _ := htoken
      obtain rfl := Except.ok.inj h
      exact .pattern
    · rename_i htoken
      obtain rfl : token = _ := htoken
      obtain rfl := Except.ok.inj h
      exact .typeOf
    · rename_i word htoken
      obtain rfl : token = _ := htoken
      split at h
      · rename_i hw
        obtain rfl := Except.ok.inj h
        exact .presence hw
      · split at h
        · rename_i hw
          obtain rfl := Except.ok.inj h
          exact .size hw
        · cases h
    · cases h
  | size field =>
    dsimp only [State.step] at h
    cases token with
    | relation r =>
      obtain rfl := Except.ok.inj h
      exact .sizeRelation
    | literal raw =>
      obtain ⟨raw', value, htoken, hv, hu, rfl⟩ := takeLiteral_eq_ok_iff.mp h
      obtain rfl := Token.literal.inj htoken
      exact .length hv hu
    | _ => cases h
  | literal field op =>
    obtain ⟨raw, value, htoken, hv, hu, rfl⟩ := takeLiteral_eq_ok_iff.mp h
    obtain rfl : token = _ := htoken
    exact .literal hv hu
  | typeName field =>
    change State.takeTypeName _ _ _ = _ at h
    unfold State.takeTypeName at h
    split at h
    · rename_i hc
      split at h
      · cases h
      · rename_i value hvalue
        obtain rfl := Except.ok.inj h
        obtain ⟨name, type, htoken, hn, rfl⟩ := (ofTypeToken_eq_ok_iff hc).mp hvalue
        obtain rfl : token = _ := htoken
        exact .typeName hn
    · cases h
  | connective =>
    change State.takeConnective _ _ = _ at h
    unfold State.takeConnective at h
    split at h
    · rename_i htoken
      obtain rfl : token = _ := htoken
      obtain rfl := Except.ok.inj h
      exact .and
    · rename_i htoken
      obtain rfl : token = _ := htoken
      obtain rfl := Except.ok.inj h
      exact .or
    · rename_i l outer' htoken houter
      obtain rfl : token = _ := htoken
      obtain rfl : outer = _ := houter
      obtain rfl := Except.ok.inj h
      exact .closeParen
    · cases h

/-- **Every step is taken.** -/
theorem Step.eq_ok {s s' : State} {token : Token} (h : Step s token s') (position : Nat) :
    s.step ⟨token, position⟩ = .ok s' := by
  cases h with
  | field hp =>
    show (if State.hasEmptySegment _ then _ else _) = _
    rw [hasEmptySegment_eq_false_iff.mpr hp]
    rfl
  | openParen hd => exact if_pos hd
  | not hd => exact if_pos hd
  | relation => rfl
  | pattern => rfl
  | typeOf => rfl
  | presence hw => exact if_pos hw
  | @size outer level field word hw =>
    show (if Text.sameWord word "exists" then _ else if Text.sameWord word "size" then _ else _) = _
    have hne : Text.sameWord word "exists" = false := by
      cases he : Text.sameWord word "exists" with
      | false => rfl
      | true => rw [Constraint.sameWord_exists_ne_size he] at hw; cases hw
    rw [hne, hw]
    rfl
  | sizeRelation => rfl
  | length hv hu => exact takeLiteral_of_value hv hu _ _ position
  | literal hv hu => exact takeLiteral_of_value hv hu _ _ position
  | @typeName outer level field name type hn =>
    have hc : State.canNameType name.token = true := by cases name <;> rfl
    show State.takeTypeName _ _ _ = _
    rw [State.takeTypeName, if_pos hc, (ofTypeToken_eq_ok_iff hc).mpr ⟨name, type, rfl, hn, rfl⟩]
    rfl
  | and => rfl
  | or => rfl
  | closeParen => rfl

/-- **The relation is the machine.** -/
theorem step_eq_ok_iff {s s' : State} {t : Placed} : s.step t = .ok s' ↔ Step s t.token s' :=
  ⟨step_of_eq_ok, fun h => h.eq_ok t.position⟩

/-! ## Runs -/

/-- **A run of the machine** over tokens. -/
inductive Steps : State → List Token → State → Prop where
  /-- No token is left. -/
  | nil {s : State} : Steps s [] s
  /-- A token is taken. -/
  | cons {s s₁ s' : State} {t : Token} {ts : List Token} (h : Step s t s₁) (hs : Steps s₁ ts s') :
    Steps s (t :: ts) s'

/-- Runs go on where others end. -/
theorem Steps.append {s s₁ s' : State} {ts ts' : List Token} (h : Steps s ts s₁)
    (h' : Steps s₁ ts' s') : Steps s (ts ++ ts') s' := by
  induction h with
  | nil => exact h'
  | cons hstep _ ih => exact .cons hstep (ih h')

/-- A query is complete behind an operand of the outermost level. -/
theorem finish_eq_ok_iff {s : State} {position : Nat} {e : Expr} :
    s.finish position = .ok e ↔ ∃ level, s = ⟨[], level, .connective⟩ ∧ e = level.toExpr := by
  obtain ⟨outer, level, awaiting⟩ := s
  unfold State.finish
  cases awaiting with
  | connective =>
    cases outer with
    | nil =>
      refine ⟨fun h => ⟨level, rfl, (Except.ok.inj h).symm⟩, ?_⟩
      rintro ⟨level', hs, rfl⟩
      cases hs
      rfl
    | cons l outer =>
      refine ⟨fun h => (by cases h), ?_⟩
      rintro ⟨level', hs, -⟩
      cases hs
  | _ =>
    refine ⟨fun h => (by cases h), ?_⟩
    rintro ⟨level', hs, -⟩
    cases hs

/-- **The machine runs to the end of the text.** -/
theorem run_eq_ok_iff {s : State} {ts : List Placed} {position : Nat} {e : Expr}
    (hne : ∀ t ∈ ts, t.token ≠ .eof) :
    s.run (ts ++ [⟨.eof, position⟩]) = .ok e
      ↔ ∃ level, Steps s (ts.map Placed.token) ⟨[], level, .connective⟩ ∧ e = level.toExpr := by
  induction ts generalizing s with
  | nil =>
    show s.finish position = .ok e ↔ _
    rw [finish_eq_ok_iff]
    refine ⟨?_, ?_⟩
    · rintro ⟨level, rfl, he⟩
      exact ⟨level, .nil, he⟩
    · rintro ⟨level, hs, he⟩
      cases hs
      exact ⟨level, rfl, he⟩
  | cons t rest ih =>
    have ht : t.token ≠ .eof := hne t List.mem_cons_self
    have hrest : ∀ t ∈ rest, t.token ≠ .eof := fun t' ht' => hne t' (List.mem_cons_of_mem _ ht')
    rw [List.cons_append, State.run, if_neg ht, List.map_cons]
    cases hstep : s.step t with
    | error err =>
      refine ⟨fun h => (by cases h), ?_⟩
      rintro ⟨level, hs, -⟩
      cases hs with
      | cons h _ =>
        rw [step_eq_ok_iff.mpr h] at hstep
        cases hstep
    | ok s₁ =>
      show s₁.run (rest ++ _) = .ok e ↔ _
      rw [ih hrest]
      refine ⟨?_, ?_⟩
      · rintro ⟨level, hs, he⟩
        exact ⟨level, .cons (step_eq_ok_iff.mp hstep) hs, he⟩
      · rintro ⟨level, hs, he⟩
        cases hs with
        | cons h hs =>
          obtain rfl := Except.ok.inj (hstep.symm.trans (step_eq_ok_iff.mpr h))
          exact ⟨level, hs, he⟩

/-! ## The end of the text -/

/-- No lexeme is the end of the text. -/
theorem scan_token_ne_eof {c : Char} {cs : List Char} {s : Token.Scan}
    (h : Token.scan c cs = .ok s) : s.token ≠ .eof := by
  unfold Token.scan at h
  split at h
  · rename_i s' hs
    obtain rfl := Except.ok.inj h
    unfold Token.scanSymbol at hs
    split at hs
    case h_11 => cases hs
    all_goals
      obtain rfl := Option.some.inj hs
      exact Token.noConfusion
  · split at h
    · split at h
      · obtain rfl := Except.ok.inj h
        exact Token.noConfusion
      · cases h
    · split at h
      · rename_i s' hs
        obtain rfl := Except.ok.inj h
        unfold Token.scanNumber at hs
        split at hs
        · cases hs
        · split at hs
          · cases hs
          · obtain rfl := Option.some.inj hs
            exact Token.noConfusion
      · split at h
        · rename_i s' hs
          obtain rfl := Except.ok.inj h
          simp only [Token.scanWord] at hs
          split at hs
          · cases hs
          · obtain rfl := Option.some.inj hs
            show Token.ofWord _ ≠ _
            unfold Token.ofWord
            split <;> exact Token.noConfusion
        · cases h

/-- **Tokens end with the end of the text**, and have it nowhere else. -/
theorem tokensFrom_eq_ok {offset : Nat} {cs : List Char} {ts : List Placed}
    (h : Token.tokensFrom offset cs = .ok ts) :
    ∃ body position, ts = body ++ [⟨.eof, position⟩] ∧ ∀ t ∈ body, t.token ≠ .eof := by
  fun_induction Token.tokensFrom offset cs generalizing ts with
  | case1 =>
    obtain rfl := Except.ok.inj h
    exact ⟨[], _, rfl, fun t ht => by cases ht⟩
  | case2 => cases h
  | case3 => cases h
  | case4 offset cs position c more hcs s hscan tokens htokens =>
    rename_i ih
    obtain rfl := Except.ok.inj h
    obtain ⟨body, position', rfl, hbody⟩ := ih htokens
    refine ⟨⟨s.token, position⟩ :: body, position', rfl, fun t ht => ?_⟩
    rcases List.mem_cons.mp ht with rfl | ht
    · exact scan_token_ne_eof hscan
    · exact hbody t ht

/-- **A text is parsed by a run over its tokens**, those before the end of
the text. -/
theorem parse_eq_ok_iff_steps {s : String} {ts : List Placed} (h : tokenize s = .ok ts) :
    ∃ body, ts.map Placed.token = body ++ [.eof] ∧ ∀ e, Expr.parse s = .ok e
      ↔ ∃ level, Steps .initial body ⟨[], level, .connective⟩ ∧ e = level.toExpr := by
  obtain ⟨body, position, rfl, hbody⟩ := tokensFrom_eq_ok h
  refine ⟨body.map Placed.token, by rw [List.map_append]; rfl, fun e => ?_⟩
  unfold Expr.parse parseTokens
  rw [h]
  exact run_eq_ok_iff hbody

end Parser

end DocFilter
