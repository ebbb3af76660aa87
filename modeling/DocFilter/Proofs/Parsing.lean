import DocFilter.Proofs.Machine

/-!
# The parser accepts exactly the grammar

*Every derivation is accepted.* A derivation drives the machine from any
state that awaits an operand, and adds what it derives to the current
level, in normal form already (`Unary.steps`, `Conjunct.steps`,
`Query.steps`).

*Nothing else is.* A run that comes back to the level where it started
begins with a derivation (`unaryRead`). The argument is by the number of
tokens, since a unary may hold a whole query: if unaries of up to `n`
tokens are read, then so are conjuncts and queries of up to `n` tokens,
and a unary of one token more has only these inside.

`Expr.parse_eq_ok_iff` puts the two together. Groups are simplified as they
close, and this comes to the same as simplifying the tree of the
derivation once.
-/

namespace DocFilter

open DocFilter.Parser

namespace Parser

/-- Negations outside are negations inside. -/
theorem negate_not (n : Nat) (e : Expr) :
    Level.negate n (.not e) = .not (Level.negate n e) := by
  induction n with
  | zero => rfl
  | succ n ih => rw [Level.negate, ih, Level.negate]

/-- A negation that waits is a negation of the operand. -/
theorem push_not (level : Level) (e : Expr) :
    Level.push { level with nots := level.nots + 1 } e = level.push (.not e) := by
  unfold Level.push
  rw [negate_not]
  rfl

theorem depth_not (outer : List Level) (level : Level) :
    State.depth ⟨outer, { level with nots := level.nots + 1 }, .operand⟩
      = State.depth ⟨outer, level, .operand⟩ + 1 := by
  show level.nots + 1 + outer.foldr (fun l n => l.nots + 1 + n) 0
    = level.nots + outer.foldr (fun l n => l.nots + 1 + n) 0 + 1
  omega

theorem depth_openParen (outer : List Level) (level : Level) :
    State.depth ⟨level :: outer, ⟨[], [], 0⟩, .operand⟩
      = State.depth ⟨outer, level, .operand⟩ + 1 := by
  show 0 + (level.nots + 1 + outer.foldr (fun l n => l.nots + 1 + n) 0)
    = level.nots + outer.foldr (fun l n => l.nots + 1 + n) 0 + 1
  omega

/-- What is complete in a level adds nothing to the depth. -/
theorem depth_operands (outer : List Level) (branches operands branches' operands' : List Expr)
    (nots : Nat) :
    State.depth ⟨outer, ⟨branches, operands, nots⟩, .operand⟩
      = State.depth ⟨outer, ⟨branches', operands', nots⟩, .operand⟩ := rfl

end Parser

namespace Grammar

/-! ## Every derivation is accepted -/

/-- A comparison that makes sense has its value. -/
theorem Test.comparison_eq {t : Test} {value : Literal} (h : t.constraint.value? = some value) :
    t.comparison = ⟨t.field, t.constraint.op, value⟩ := by
  unfold Test.comparison
  rw [h, Option.getD_some]

/-- **A comparison that makes sense is accepted.** -/
theorem Test.steps {t : Test} (h : t.Admissible) (outer : List Level) (level : Level) :
    Steps ⟨outer, level, .operand⟩ t.tokens
      ⟨outer, level.push (.comparison t.comparison), .connective⟩ := by
  obtain ⟨field, constraint⟩ := t
  obtain ⟨hp, value, hv, ht⟩ := h
  rw [Test.comparison_eq hv]
  refine .cons (.field hp) ?_
  cases constraint with
  | relation r raw =>
    have hu := (Operator.takes_iff (by simp [Constraint.op]) value).mp ht
    exact .cons .relation (.cons (.literal hv hu) .nil)
  | pattern raw =>
    have hu := (Operator.takes_iff (by simp [Constraint.op]) value).mp ht
    exact .cons .pattern (.cons (.literal hv hu) .nil)
  | typeOf name =>
    obtain ⟨type, hn, rfl⟩ := Option.map_eq_some_iff.mp hv
    exact .cons .typeOf (.cons (.typeName hn) .nil)
  | presence word hw raw =>
    have hu := (Operator.takes_iff (by simp [Constraint.op]) value).mp ht
    exact .cons (.presence hw) (.cons (.literal hv hu) .nil)
  | size word hw r raw =>
    have hu := (Operator.takes_iff (by simp [Constraint.op]) value).mp ht
    cases r with
    | none => exact .cons (.size hw) (.cons (.length hv hu) .nil)
    | some r => exact .cons (.size hw) (.cons .sizeRelation (.cons (.literal hv hu) .nil))

mutual

/-- **A query is accepted**, and its branches join those of the level. -/
theorem Query.steps (q : Query) (ht : ∀ t ∈ q.tests, t.Admissible) (outer : List Level)
    (branches : List Expr)
    (hd : State.depth ⟨outer, ⟨branches, [], 0⟩, .operand⟩ + q.nesting ≤ nestingLimit) :
    ∃ level, Steps ⟨outer, ⟨branches, [], 0⟩, .operand⟩ q.tokens ⟨outer, level, .connective⟩
      ∧ level.toExpr = .disj (branches ++ q.branches.map Expr.simplify) := by
  cases q with
  | last c =>
    refine ⟨_, c.steps ht outer branches [] hd, ?_⟩
    show Expr.disj (branches ++ [Expr.conj ([] ++ c.operands.map Expr.simplify)]) = _
    rw [List.nil_append, Query.branches, List.map_singleton, Expr.simplify, Expr.simplifyAll_eq_map]
  | or c rest =>
    simp only [Query.nesting, Query.tests, List.mem_append] at hd ht
    have hc := c.steps (fun t h => ht t (.inl h)) outer branches [] (by omega)
    have hdepth : State.depth ⟨outer, ⟨branches ++ [.conj ([] ++ c.operands.map Expr.simplify)],
        [], 0⟩, .operand⟩ + rest.nesting ≤ nestingLimit := by
      rw [depth_operands outer _ _ branches []]
      omega
    obtain ⟨level, hrest, hlevel⟩ := rest.steps (fun t h => ht t (.inr h)) outer _ hdepth
    refine ⟨level, hc.append (.cons .or hrest), ?_⟩
    rw [hlevel, List.append_assoc, List.nil_append, List.singleton_append, Query.branches,
      List.map_cons, Expr.simplify, Expr.simplifyAll_eq_map]

/-- **A conjunct is accepted**, and its operands join those of the level. -/
theorem Conjunct.steps (c : Conjunct) (ht : ∀ t ∈ c.tests, t.Admissible) (outer : List Level)
    (branches operands : List Expr)
    (hd : State.depth ⟨outer, ⟨branches, operands, 0⟩, .operand⟩ + c.nesting ≤ nestingLimit) :
    Steps ⟨outer, ⟨branches, operands, 0⟩, .operand⟩ c.tokens
      ⟨outer, ⟨branches, operands ++ c.operands.map Expr.simplify, 0⟩, .connective⟩ := by
  cases c with
  | last u => exact u.steps ht outer ⟨branches, operands, 0⟩ hd
  | and u rest =>
    simp only [Conjunct.nesting, Conjunct.tests, List.mem_append] at hd ht
    have hu := u.steps (fun t h => ht t (.inl h)) outer ⟨branches, operands, 0⟩ (by omega)
    have hdepth : State.depth ⟨outer, ⟨branches, operands ++ [u.tree.simplify], 0⟩, .operand⟩
        + rest.nesting ≤ nestingLimit := by
      rw [depth_operands outer _ _ branches operands]
      omega
    have hrest := rest.steps (fun t h => ht t (.inr h)) outer branches _ hdepth
    rw [List.append_assoc, List.singleton_append] at hrest
    exact hu.append (.cons .and hrest)

/-- **A unary is accepted**, and becomes an operand under the negations
that wait. -/
theorem Unary.steps (u : Unary) (ht : ∀ t ∈ u.tests, t.Admissible) (outer : List Level)
    (level : Level) (hd : State.depth ⟨outer, level, .operand⟩ + u.nesting ≤ nestingLimit) :
    Steps ⟨outer, level, .operand⟩ u.tokens
      ⟨outer, level.push u.tree.simplify, .connective⟩ := by
  cases u with
  | not u =>
    simp only [Unary.nesting, Unary.tests] at hd ht
    have hu := u.steps ht outer { level with nots := level.nots + 1 }
      (by rw [depth_not]; omega)
    rw [push_not] at hu
    exact .cons (.not (by omega)) hu
  | primary p => exact p.steps ht outer level hd

/-- So is a primary. -/
theorem Primary.steps (p : Primary) (ht : ∀ t ∈ p.tests, t.Admissible) (outer : List Level)
    (level : Level) (hd : State.depth ⟨outer, level, .operand⟩ + p.nesting ≤ nestingLimit) :
    Steps ⟨outer, level, .operand⟩ p.tokens
      ⟨outer, level.push p.tree.simplify, .connective⟩ := by
  cases p with
  | parens q =>
    simp only [Primary.nesting, Primary.tests] at hd ht
    have hdepth : State.depth ⟨level :: outer, ⟨[], [], 0⟩, .operand⟩ + q.nesting
        ≤ nestingLimit := by
      rw [depth_openParen]
      omega
    obtain ⟨inner, hq, hinner⟩ := q.steps ht (level :: outer) [] hdepth
    have htree : (Primary.parens q).tree.simplify = inner.toExpr := by
      rw [hinner, List.nil_append, Primary.tree, Expr.simplify, Expr.simplifyAll_eq_map]
    rw [htree]
    exact .cons (.openParen (by omega)) (hq.append (.cons .closeParen .nil))
  | test t => exact Test.steps (ht t (by simp [Primary.tests])) outer level

end

/-! ## Nothing else is accepted -/

variable {outer : List Level} {level : Level} {field : String} {ts : List Token} {f : State}

/-- A run past a literal reads one. -/
theorem exists_literal {op : Operator} (h : Steps ⟨outer, level, .literal field op⟩ ts f)
    (hf : f.awaiting = .connective) :
    ∃ raw value rest, ts = .literal raw :: rest ∧ raw.value? = some value
      ∧ op.unmet? value = none
      ∧ Steps ⟨outer, level.push (.comparison ⟨field, op, value⟩), .connective⟩ rest f := by
  cases h with
  | nil => cases hf
  | cons hstep hs =>
    cases hstep with
    | literal hv hu => exact ⟨_, _, _, rfl, hv, hu, hs⟩

/-- **A run past a field reads a constraint.** -/
theorem exists_constraint (h : Steps ⟨outer, level, .operator field⟩ ts f)
    (hf : f.awaiting = .connective) :
    ∃ (c : Constraint) (value : Literal) (rest : List Token), ts = c.tokens ++ rest
      ∧ c.value? = some value ∧ c.op.Takes value
      ∧ Steps ⟨outer, level.push (.comparison ⟨field, c.op, value⟩), .connective⟩ rest f := by
  cases h with
  | nil => cases hf
  | cons hstep hs =>
    cases hstep with
    | @relation _ _ _ r =>
      obtain ⟨raw, value, rest, rfl, hv, hu, hs⟩ := exists_literal hs hf
      exact ⟨.relation r raw, value, rest, rfl, hv,
        (Operator.takes_iff (by simp [Constraint.op]) value).mpr hu, hs⟩
    | pattern =>
      obtain ⟨raw, value, rest, rfl, hv, hu, hs⟩ := exists_literal hs hf
      exact ⟨.pattern raw, value, rest, rfl, hv,
        (Operator.takes_iff (by simp [Constraint.op]) value).mpr hu, hs⟩
    | presence hw =>
      obtain ⟨raw, value, rest, rfl, hv, hu, hs⟩ := exists_literal hs hf
      exact ⟨.presence _ hw raw, value, rest, rfl, hv,
        (Operator.takes_iff (by simp [Constraint.op]) value).mpr hu, hs⟩
    | typeOf =>
      cases hs with
      | nil => cases hf
      | cons hstep hs =>
        cases hstep with
        | @typeName _ _ _ name type hn =>
          refine ⟨.typeOf name, .typeName type, _, rfl, ?_, ⟨type, rfl⟩, hs⟩
          rw [Constraint.value?, hn, Option.map_some]
    | size hw =>
      cases hs with
      | nil => cases hf
      | cons hstep hs =>
        cases hstep with
        | @sizeRelation _ _ _ r =>
          obtain ⟨raw, value, rest, rfl, hv, hu, hs⟩ := exists_literal hs hf
          exact ⟨.size _ hw (some r) raw, value, rest, rfl, hv,
            (Operator.takes_iff (by simp [Constraint.op]) value).mpr hu, hs⟩
        | length hv hu =>
          exact ⟨.size _ hw none _, _, _, rfl, hv,
            (Operator.takes_iff (by simp [Constraint.op]) _).mpr hu, hs⟩

/-- Runs over at most `n` tokens that await a unary, and come back to their
level, **begin with a unary**. -/
def UnaryRead (n : Nat) : Prop :=
  ∀ ⦃ts : List Token⦄ ⦃outer : List Level⦄ ⦃level : Level⦄ ⦃f : State⦄, ts.length ≤ n →
    State.depth ⟨outer, level, .operand⟩ ≤ nestingLimit → Steps ⟨outer, level, .operand⟩ ts f →
    f.awaiting = .connective → f.outer.length ≤ outer.length →
    ∃ (u : Unary) (rest : List Token), ts = u.tokens ++ rest ∧ rest.length < ts.length
      ∧ (∀ t ∈ u.tests, t.Admissible)
      ∧ State.depth ⟨outer, level, .operand⟩ + u.nesting ≤ nestingLimit
      ∧ Steps ⟨outer, level.push u.tree.simplify, .connective⟩ rest f

/-- The same for conjuncts: they end where no `and` follows. -/
def ConjunctRead (n : Nat) : Prop :=
  ∀ ⦃ts : List Token⦄ ⦃outer : List Level⦄ ⦃branches operands : List Expr⦄ ⦃f : State⦄,
    ts.length ≤ n → State.depth ⟨outer, ⟨branches, operands, 0⟩, .operand⟩ ≤ nestingLimit →
    Steps ⟨outer, ⟨branches, operands, 0⟩, .operand⟩ ts f →
    f.awaiting = .connective → f.outer.length ≤ outer.length →
    ∃ (c : Conjunct) (rest : List Token), ts = c.tokens ++ rest ∧ rest.length < ts.length
      ∧ NotNext .and rest ∧ (∀ t ∈ c.tests, t.Admissible)
      ∧ State.depth ⟨outer, ⟨branches, operands, 0⟩, .operand⟩ + c.nesting ≤ nestingLimit
      ∧ Steps ⟨outer, ⟨branches, operands ++ c.operands.map Expr.simplify, 0⟩, .connective⟩ rest f

/-- The same for queries: they end where no connective follows. -/
def QueryRead (n : Nat) : Prop :=
  ∀ ⦃ts : List Token⦄ ⦃outer : List Level⦄ ⦃branches : List Expr⦄ ⦃f : State⦄,
    ts.length ≤ n → State.depth ⟨outer, ⟨branches, [], 0⟩, .operand⟩ ≤ nestingLimit →
    Steps ⟨outer, ⟨branches, [], 0⟩, .operand⟩ ts f →
    f.awaiting = .connective → f.outer.length ≤ outer.length →
    ∃ (q : Query) (rest : List Token) (level : Level), ts = q.tokens ++ rest
      ∧ NotNext .and rest ∧ NotNext .or rest ∧ (∀ t ∈ q.tests, t.Admissible)
      ∧ State.depth ⟨outer, ⟨branches, [], 0⟩, .operand⟩ + q.nesting ≤ nestingLimit
      ∧ Steps ⟨outer, level, .connective⟩ rest f
      ∧ level.toExpr = .disj (branches ++ q.branches.map Expr.simplify)

/-- A run that awaits an operand is not done. -/
theorem ne_nil_of_steps (h : Steps ⟨outer, level, .operand⟩ ts f) (hf : f.awaiting = .connective) :
    ts ≠ [] := by
  rintro rfl
  cases h
  cases hf

/-- **Where unaries are read, conjuncts are.** -/
theorem UnaryRead.conjunctRead {n : Nat} (hu : UnaryRead n) : ConjunctRead n := by
  induction n with
  | zero =>
    intro ts outer branches operands f hn _ hs hf _
    exact absurd (List.length_eq_zero_iff.mp (Nat.le_zero.mp hn)) (ne_nil_of_steps hs hf)
  | succ n ih =>
    have hu' : UnaryRead n := fun _ _ _ _ hn => hu (Nat.le_succ_of_le hn)
    intro ts outer branches operands f hn hd hs hf hout
    obtain ⟨u, rest, rfl, hlt, ht, hdu, hrest⟩ := hu hn hd hs hf hout
    -- the token behind a unary decides whether the conjunct goes on
    by_cases hand : NotNext .and rest
    · exact ⟨.last u, rest, rfl, hlt, hand, ht, hdu, hrest⟩
    · cases hrest with
      | nil => exact absurd (fun heq => by cases heq) hand
      | cons hstep hmore =>
        cases hstep with
        | and =>
          simp only [List.length_append, List.length_cons] at hn hlt
          have hd' : State.depth ⟨outer, ⟨branches, operands ++ [u.tree.simplify], 0⟩, .operand⟩
              ≤ nestingLimit := hd
          obtain ⟨c, rest, rfl, hlt', hand', hc, hdc, hrest⟩ :=
            ih hu' (by omega) hd' hmore hf hout
          refine ⟨.and u c, rest, ?_, ?_, hand', ?_, ?_, ?_⟩
          · rw [Conjunct.tokens, List.append_assoc, List.cons_append]
          · simp only [List.length_append, List.length_cons]
            omega
          · intro t hmem
            rcases List.mem_append.mp hmem with hmem | hmem
            · exact ht t hmem
            · exact hc t hmem
          · rw [depth_operands outer _ _ branches operands] at hdc
            rw [Conjunct.nesting]
            omega
          · rw [List.append_assoc, List.singleton_append] at hrest
            exact hrest
        | or => exact absurd (notNext_of_ne (by decide) _) hand
        | closeParen => exact absurd (fun heq => by cases heq) hand

/-- **Where conjuncts are read, queries are.** -/
theorem ConjunctRead.queryRead {n : Nat} (hc : ConjunctRead n) : QueryRead n := by
  induction n with
  | zero =>
    intro ts outer branches f hn _ hs hf _
    exact absurd (List.length_eq_zero_iff.mp (Nat.le_zero.mp hn)) (ne_nil_of_steps hs hf)
  | succ n ih =>
    have hc' : ConjunctRead n := fun _ _ _ _ _ hn => hc (Nat.le_succ_of_le hn)
    intro ts outer branches f hn hd hs hf hout
    obtain ⟨c, rest, rfl, hlt, hand, ht, hdc, hrest⟩ := hc hn hd hs hf hout
    have hbranch : (Expr.all c.operands).simplify
        = .conj ([] ++ c.operands.map Expr.simplify) := by
      rw [Expr.simplify, Expr.simplifyAll_eq_map, List.nil_append]
    by_cases hor : NotNext .or rest
    · refine ⟨.last c, rest, _, rfl, hand, hor, ht, hdc, hrest, ?_⟩
      rw [Query.branches, List.map_singleton, hbranch]
      rfl
    · cases hrest with
      | nil => exact absurd (fun heq => by cases heq) hor
      | cons hstep hmore =>
        cases hstep with
        | and => exact absurd rfl hand
        | or =>
          simp only [List.length_append, List.length_cons] at hn hlt
          have hd' : State.depth
              ⟨outer, ⟨branches ++ [.conj ([] ++ c.operands.map Expr.simplify)], [], 0⟩, .operand⟩
              ≤ nestingLimit := hd
          obtain ⟨q, rest, level, rfl, hand', hor', hq, hdq, hrest, hlevel⟩ :=
            ih hc' (by omega) hd' hmore hf hout
          refine ⟨.or c q, rest, level, ?_, hand', hor', ?_, ?_, hrest, ?_⟩
          · rw [Query.tokens, List.append_assoc, List.cons_append]
          · intro t hmem
            rcases List.mem_append.mp hmem with hmem | hmem
            · exact ht t hmem
            · exact hq t hmem
          · rw [depth_operands outer _ _ branches []] at hdq
            rw [Query.nesting]
            omega
          · rw [hlevel, Query.branches, List.map_cons, hbranch, List.append_assoc,
              List.singleton_append]
        | closeParen => exact absurd (fun heq => by cases heq) hor

/-- **Unaries are read**, of any length. -/
theorem unaryRead (n : Nat) : UnaryRead n := by
  induction n with
  | zero =>
    intro ts outer level f hn _ hs hf _
    exact absurd (List.length_eq_zero_iff.mp (Nat.le_zero.mp hn)) (ne_nil_of_steps hs hf)
  | succ n ih =>
    intro ts outer level f hn hd hs hf hout
    cases hs with
    | nil => cases hf
    | cons hstep hmore =>
      rw [List.length_cons] at hn
      have hn : _ ≤ n := Nat.le_of_succ_le_succ hn
      cases hstep with
      | @field _ _ name hp =>
        obtain ⟨c, value, rest, rfl, hv, ht, hrest⟩ := exists_constraint hmore hf
        refine ⟨.primary (.test ⟨name, c⟩), rest, rfl, ?_, ?_, hd, ?_⟩
        · simp only [List.length_cons, List.length_append]
          omega
        · intro t hmem
          obtain rfl := List.mem_singleton.mp hmem
          exact ⟨hp, value, hv, ht⟩
        · have htree : (Unary.primary (.test ⟨name, c⟩)).tree.simplify
              = .comparison ⟨name, c.op, value⟩ := by
            rw [Unary.tree, Primary.tree, Test.comparison_eq hv, Expr.simplify]
          rw [htree]
          exact hrest
      | not hlim =>
        -- the machine keeps the negation with the level and gives it to the operand later
        have hdepth := depth_not outer level
        obtain ⟨u, rest, rfl, hlt, ht, hdu, hrest⟩ := ih hn (by omega) hmore hf hout
        refine ⟨.not u, rest, rfl, ?_, ht, ?_, ?_⟩
        · rw [List.length_cons]
          omega
        · rw [Unary.nesting]
          omega
        · rw [push_not] at hrest
          exact hrest
      | openParen hlim =>
        have hdepth := depth_openParen outer level
        have hout' : f.outer.length ≤ (level :: outer).length := Nat.le_succ_of_le hout
        obtain ⟨q, rest, inner, rfl, hand, hor, ht, hdq, hrest, hinner⟩ :=
          ih.conjunctRead.queryRead hn (by rw [hdepth]; omega) hmore hf hout'
        -- the query is over, so the parenthesis closes: the run comes back further out
        cases hrest with
        | nil => exact absurd hout (Nat.not_succ_le_self _)
        | @cons _ _ _ _ rest hstep hrest =>
          cases hstep with
          | and => exact absurd rfl hand
          | or => exact absurd rfl hor
          | closeParen =>
            refine ⟨.primary (.parens q), rest, ?_, ?_, ht, ?_, ?_⟩
            · rw [Unary.tokens, Primary.tokens, List.cons_append, List.append_assoc,
                List.singleton_append]
            · simp only [List.length_cons, List.length_append]
              omega
            · rw [hdepth] at hdq
              rw [Unary.nesting, Primary.nesting]
              omega
            · have htree : (Unary.primary (.parens q)).tree.simplify = inner.toExpr := by
                rw [hinner, List.nil_append, Unary.tree, Primary.tree, Expr.simplify,
                  Expr.simplifyAll_eq_map]
              rw [htree]
              exact hrest

/-- **Queries are read**, of any length. -/
theorem queryRead (n : Nat) : QueryRead n :=
  (unaryRead n).conjunctRead.queryRead

/-- **A complete run is a run over an admissible query.** -/
theorem steps_initial_iff {ts : List Token} {e : Expr} :
    (∃ level, Steps .initial ts ⟨[], level, .connective⟩ ∧ e = level.toExpr)
      ↔ ∃ q : Query, q.tokens = ts ∧ q.Admissible ∧ e = q.tree.simplify := by
  have htree : ∀ q : Query, q.tree.simplify = .disj ([] ++ q.branches.map Expr.simplify) := by
    intro q
    rw [Query.tree, Expr.simplify, Expr.simplifyAll_eq_map, List.nil_append]
  have hdepth : State.depth ⟨[], ⟨[], [], 0⟩, .operand⟩ = 0 := rfl
  refine ⟨?_, ?_⟩
  · rintro ⟨level, hs, rfl⟩
    obtain ⟨q, rest, level', rfl, hand, hor, ht, hd, hrest, hlevel⟩ :=
      queryRead ts.length (Nat.le_refl _) (Nat.zero_le _) hs rfl (Nat.le_refl _)
    rw [hdepth, Nat.zero_add] at hd
    cases hrest with
    | nil => exact ⟨q, (List.append_nil _).symm, ⟨ht, hd⟩, by rw [hlevel, htree]⟩
    | cons hstep _ =>
      cases hstep with
      | and => exact absurd rfl hand
      | or => exact absurd rfl hor
  · rintro ⟨q, rfl, hq, rfl⟩
    have hd : State.depth ⟨[], ⟨[], [], 0⟩, .operand⟩ + q.nesting ≤ nestingLimit := by
      rw [hdepth, Nat.zero_add]
      exact hq.nesting
    obtain ⟨level, hs, hlevel⟩ := q.steps hq.tests [] [] hd
    exact ⟨level, hs, by rw [hlevel, htree]⟩

end Grammar

/-- **The parser accepts exactly the grammar.** A text that has tokens is
parsed to an expression if and only if its tokens are those of an
admissible query, and the expression is then the tree of the query in
normal form; and no two queries have these tokens. -/
theorem Expr.parse_eq_ok_iff {s : String} {ts : List Placed} (h : tokenize s = .ok ts) :
    (∀ e, Expr.parse s = .ok e ↔ ∃ q : Grammar.Query, q.tokens ++ [.eof] = ts.map Placed.token
      ∧ q.Admissible ∧ e = q.tree.simplify)
    ∧ ∀ q q' : Grammar.Query, q.tokens ++ [.eof] = ts.map Placed.token →
      q'.tokens ++ [.eof] = ts.map Placed.token → q = q' := by
  obtain ⟨body, hbody, hparse⟩ := parse_eq_ok_iff_steps h
  rw [hbody]
  refine ⟨fun e => ?_, fun q q' hq hq' => ?_⟩
  · rw [hparse e, Grammar.steps_initial_iff]
    simp only [List.append_left_inj]
  · exact Grammar.Query.tokens_injective (List.append_cancel_right (hq.trans hq'.symm))

/-- The words of a length are found in a text, whatever their case, and
there is no other way to read it. -/
theorem Expr.parse_eq_ok_iff_size :
    ∃ q : Grammar.Query,
      q.tree.simplify = .not (.comparison ⟨"a", .size .lt, .int 2⟩)
        ∧ Expr.parse "not a Size < 2" = .ok q.tree.simplify
        ∧ ∀ q' : Grammar.Query, q'.tokens = q.tokens → q' = q := by
  have htokens : tokenize "not a Size < 2" = .ok [⟨.keyword .not, 0⟩, ⟨.word "a", 4⟩,
      ⟨.word "Size", 6⟩, ⟨.relation .lt, 11⟩, ⟨.literal (.number "2"), 13⟩, ⟨.eof, 14⟩] := by
    cbv
  have hword : Text.sameWord "Size" "size" = true := by decide
  have hvalue : RawLiteral.value? (.number "2") = some (.int 2) := by cbv
  let t : Grammar.Test := ⟨"a", .size "Size" hword (some .lt) (.number "2")⟩
  have hpath : ∀ segment ∈ Text.segments '.' "a".toList, segment ≠ [] := by decide
  have ht : t.Admissible := ⟨hpath, .int 2, hvalue, 2, rfl, by decide, fun _ => by decide⟩
  have htree : Expr.simplify (.not (.comparison t.comparison))
      = .not (.comparison ⟨"a", .size .lt, .int 2⟩) := by
    rw [Expr.simplify, Expr.simplify, Grammar.Test.comparison_eq (t := t) hvalue]
    rfl
  let q : Grammar.Query := .last (.last (.not (.primary (.test t))))
  have hq : q.Admissible := by
    refine ⟨fun t' ht' => ?_, ?_⟩
    · obtain rfl := List.mem_singleton.mp ht'
      exact ht
    · show 0 + 1 ≤ nestingLimit
      decide
  obtain ⟨hparse, hunique⟩ := parse_eq_ok_iff htokens
  refine ⟨q, htree, (hparse _).mpr ⟨q, rfl, hq, rfl⟩, fun q' hq' => ?_⟩
  refine hunique q' q ?_ rfl
  rw [hq']
  rfl

end DocFilter
