import DocFilter.Proofs.Regular

/-!
# Writing expressions and parsing them

An expression is written with the fewest parentheses that `not` before
`and` before `or` allows: an `and` in parentheses under a negation or in
an `and`, an `or` wherever it is not a whole query. Where an expression
stands is its `Place`, and what is written there (`Expr.renderAt`) is a
list of tokens together with the number of negations and parentheses that
are open at once. Doubles are written by a function that is left open; all
that counts is that a double can be read back (`Spells`).

A regular expression without ready-made documents comes back from every
text that it is written in, if that text is not nested too deep. Since
what is parsed is known from derivations, it is enough that what is
written at a place derives from the line of the grammar that belongs there
(`Derivable`), and this follows the expression. That no query with fewer
parentheses has the expression is seen on derivations too: a derivation
has a parenthesis for each that is written (`Grammar.Query.parenCount_le`).
-/

namespace DocFilter

open Decimal (Double IsNumeral)
open DocFilter.Expr (Connective)

/-! ## Comparisons as they are written -/

/-- **A spelling of a double**: a numeral with a point or an exponent that
reads back as the double. -/
structure Spells (d : Double) (spelling : String) : Prop where
  /-- It is a numeral. -/
  numeral : IsNumeral spelling.toList
  /-- It has a point or an exponent. -/
  double : isDoubleSpelling spelling.toList = true
  /-- It reads back. -/
  value : Double.ofText? spelling.toList = some d

section

variable (spell : Double → String)

/-- A value as a literal. The name of a type is none. -/
def Literal.raw : Literal → RawLiteral
  | .int n => .number (Decimal.intText n)
  | .float d => .number (spell d)
  | .text s => .text s
  | .bool b => .bool b
  | .null => .null
  | .typeName _ => .null

/-- The word for a type. -/
def TypeName.word : TypeName → Grammar.TypeWord
  | .null => .null
  | type => .word type.name

/-- What is said of the field of a comparison, as it is written. The
length of a list is given without a relation where it can be. -/
def Comparison.constraint (c : Comparison) : Grammar.Constraint :=
  match c.op, c.value with
  | .relation r, value => .relation r (value.raw spell)
  | .pattern, value => .pattern (value.raw spell)
  | .typeOf, .typeName type => .typeOf type.word
  | .typeOf, _ => .typeOf .null
  | .presence, value => .presence "exists" (by decide) (value.raw spell)
  | .size r, value => .size "size" (by decide) (if r = .eq then none else some r) (value.raw spell)

/-- **A comparison as it is written.** -/
def Comparison.written (c : Comparison) : Grammar.Test :=
  ⟨c.field, c.constraint spell⟩

end

/-! ## Expressions as they are written -/

/-- **What is written**: tokens, and how many negations and parentheses are
open at once. -/
structure Rendering where
  /-- The tokens. -/
  tokens : List Token
  /-- How many negations and parentheses are open at once, at most. -/
  nesting : Nat

namespace Rendering

/-- In parentheses. -/
def parens (r : Rendering) : Rendering :=
  ⟨.openParen :: (r.tokens ++ [.closeParen]), r.nesting + 1⟩

/-- In parentheses or not. -/
def parensIf (b : Bool) (r : Rendering) : Rendering :=
  if b then r.parens else r

/-- Under a negation. -/
def not (r : Rendering) : Rendering :=
  ⟨.keyword .not :: r.tokens, r.nesting + 1⟩

/-- With a keyword between every two. -/
def joined (k : Keyword) : List Rendering → Rendering
  | [] => ⟨[], 0⟩
  | [r] => r
  | r :: rest => ⟨r.tokens ++ .keyword k :: (joined k rest).tokens,
      max r.nesting (joined k rest).nesting⟩

end Rendering

/-- **Where an expression stands.** -/
inductive Place where
  /-- As a whole query, or in parentheses. -/
  | query
  /-- Between `or`s. -/
  | branch
  /-- Between `and`s, or under a negation. -/
  | operand
  deriving DecidableEq

namespace Expr.Connective

/-- The word of a connective. -/
def keyword : Connective → Keyword
  | .and => .and
  | .or => .or

/-- Where a group stands without parentheses. -/
def outer : Connective → Place
  | .and => .branch
  | .or => .query

/-- Where the operands of a group stand. -/
def inner : Connective → Place
  | .and => .operand
  | .or => .branch

/-- Whether a group is in parentheses where it stands. -/
def inParens : Connective → Place → Bool
  | .and, place => place == .operand
  | .or, place => place != .query

end Expr.Connective

mutual

/-- **An expression as it is written at a place**, with the fewest
parentheses. A ready-made document cannot be written. -/
def Expr.renderAt (spell : Double → String) : Place → Expr → Rendering
  | _, .comparison c => ⟨(c.written spell).tokens, 0⟩
  | place, .all operands =>
    (Rendering.joined .and (renderAll spell .operand operands)).parensIf (place == .operand)
  | place, .any operands =>
    (Rendering.joined .or (renderAll spell .branch operands)).parensIf (place != .query)
  | _, .not operand => (renderAt spell .operand operand).not
  | _, .fragment _ => ⟨[], 0⟩

/-- Expressions as they are written at a place. -/
def Expr.renderAll (spell : Double → String) : Place → List Expr → List Rendering
  | _, [] => []
  | place, e :: rest => renderAt spell place e :: renderAll spell place rest

end

/-- **An expression as a query.** -/
def Expr.render (spell : Double → String) (e : Expr) : Rendering :=
  e.renderAt spell .query

namespace Expr

variable (spell : Double → String)

theorem renderAll_eq_map (place : Place) (es : List Expr) :
    renderAll spell place es = es.map (renderAt spell place) := by
  induction es with
  | nil => rfl
  | cons e rest ih => rw [renderAll, ih, List.map_cons]

/-- Groups of either kind are written alike. -/
theorem renderAt_group (k : Connective) (place : Place) (operands : List Expr) :
    renderAt spell place (k.group operands)
      = (Rendering.joined k.keyword (operands.map (renderAt spell k.inner))).parensIf
        (k.inParens place) := by
  cases k <;> rw [Connective.group, renderAt, renderAll_eq_map] <;> rfl

end Expr

/-! ## What is written derives -/

/-- **What is written at a place derives there**, from a derivation whose
comparisons make sense and whose tree is the expression. -/
def Derivable : Place → Rendering → Expr → Prop
  | .query, r, e => ∃ q : Grammar.Query, q.tokens = r.tokens ∧ q.nesting = r.nesting
      ∧ (∀ t ∈ q.tests, t.Admissible) ∧ q.tree.simplify = e
  | .branch, r, e => ∃ c : Grammar.Conjunct, c.tokens = r.tokens ∧ c.nesting = r.nesting
      ∧ (∀ t ∈ c.tests, t.Admissible) ∧ (Expr.all c.operands).simplify = e
  | .operand, r, e => ∃ u : Grammar.Unary, u.tokens = r.tokens ∧ u.nesting = r.nesting
      ∧ (∀ t ∈ u.tests, t.Admissible) ∧ u.tree.simplify = e

namespace Derivable

variable {r : Rendering} {e : Expr}

/-- An operand is a conjunct by itself. -/
theorem branch (h : Derivable .operand r e) (hn : e.IsNormal) : Derivable .branch r e := by
  obtain ⟨u, htokens, hnesting, htests, htree⟩ := h
  refine ⟨.last u, htokens, hnesting, htests, ?_⟩
  rw [Grammar.Conjunct.operands, Expr.simplify, Expr.simplifyAll_eq_map, List.map_singleton, htree]
  exact Connective.join_singleton (k := .and) hn

/-- A conjunct is a query by itself. -/
theorem query (h : Derivable .branch r e) (hn : e.IsNormal) : Derivable .query r e := by
  obtain ⟨c, htokens, hnesting, htests, htree⟩ := h
  refine ⟨.last c, htokens, hnesting, htests, ?_⟩
  rw [Grammar.Query.tree, Grammar.Query.branches, Expr.simplify, Expr.simplifyAll_eq_map,
    List.map_singleton, htree]
  exact Connective.join_singleton (k := .or) hn

/-- A query in parentheses is an operand. -/
theorem parens (h : Derivable .query r e) : Derivable .operand r.parens e := by
  obtain ⟨q, htokens, hnesting, htests, htree⟩ := h
  refine ⟨.primary (.parens q), ?_, ?_, htests, htree⟩
  · rw [Grammar.Unary.tokens, Grammar.Primary.tokens, htokens]
    rfl
  · rw [Grammar.Unary.nesting, Grammar.Primary.nesting, hnesting]
    rfl

/-- An operand under a negation is one. -/
theorem not (h : Derivable .operand r e) : Derivable .operand r.not (.not e) := by
  obtain ⟨u, htokens, hnesting, htests, htree⟩ := h
  refine ⟨.not u, ?_, ?_, htests, ?_⟩
  · rw [Grammar.Unary.tokens, htokens]
    rfl
  · rw [Grammar.Unary.nesting, hnesting]
    rfl
  · rw [Grammar.Unary.tree, Expr.simplify, htree]

/-- An operand derives wherever it stands. -/
theorem anywhere (h : Derivable .operand r e) (hn : e.IsNormal) (place : Place) :
    Derivable place r e := by
  cases place with
  | query => exact (h.branch hn).query hn
  | branch => exact h.branch hn
  | operand => exact h

/-- **A group derives wherever it stands**, in parentheses where it has
to be. -/
theorem inParens {k : Connective} (h : Derivable k.outer r e) (hn : e.IsNormal) (place : Place) :
    Derivable place (r.parensIf (k.inParens place)) e := by
  cases k with
  | and =>
    cases place with
    | query => exact h.query hn
    | branch => exact h
    | operand => exact (h.query hn).parens
  | or =>
    cases place with
    | query => exact h
    | branch => exact (parens h).branch hn
    | operand => exact parens h

variable {rs : List Rendering} {es : List Expr}

/-- Operands that derive form a conjunct. -/
theorem exists_conjunct (h : List.Forall₂ (Derivable .operand) rs es) (hne : es ≠ []) :
    ∃ c : Grammar.Conjunct, c.tokens = (Rendering.joined .and rs).tokens
      ∧ c.nesting = (Rendering.joined .and rs).nesting
      ∧ (∀ t ∈ c.tests, t.Admissible) ∧ c.operands.map Expr.simplify = es := by
  induction h with
  | nil => exact absurd rfl hne
  | @cons r e rs es hr hrest ih =>
    obtain ⟨u, htokens, hnesting, htests, htree⟩ := hr
    cases hrest with
    | nil =>
      refine ⟨.last u, htokens, hnesting, htests, ?_⟩
      rw [Grammar.Conjunct.operands, List.map_singleton, htree]
    | cons hr' hrest' =>
      obtain ⟨c, hctokens, hcnesting, hctests, hcoperands⟩ := ih (List.cons_ne_nil _ _)
      refine ⟨.and u c, ?_, ?_, List.forall_mem_append.mpr ⟨htests, hctests⟩, ?_⟩
      · rw [Grammar.Conjunct.tokens, htokens, hctokens]
        rfl
      · rw [Grammar.Conjunct.nesting, hnesting, hcnesting]
        rfl
      · rw [Grammar.Conjunct.operands, List.map_cons, htree, hcoperands]

/-- Conjuncts that derive form a query. -/
theorem exists_query (h : List.Forall₂ (Derivable .branch) rs es) (hne : es ≠ []) :
    ∃ q : Grammar.Query, q.tokens = (Rendering.joined .or rs).tokens
      ∧ q.nesting = (Rendering.joined .or rs).nesting
      ∧ (∀ t ∈ q.tests, t.Admissible) ∧ q.branches.map Expr.simplify = es := by
  induction h with
  | nil => exact absurd rfl hne
  | @cons r e rs es hr hrest ih =>
    obtain ⟨c, htokens, hnesting, htests, htree⟩ := hr
    cases hrest with
    | nil =>
      refine ⟨.last c, htokens, hnesting, htests, ?_⟩
      rw [Grammar.Query.branches, List.map_singleton, htree]
    | cons hr' hrest' =>
      obtain ⟨q, hqtokens, hqnesting, hqtests, hqbranches⟩ := ih (List.cons_ne_nil _ _)
      refine ⟨.or c q, ?_, ?_, List.forall_mem_append.mpr ⟨htests, hqtests⟩, ?_⟩
      · rw [Grammar.Query.tokens, htokens, hqtokens]
        rfl
      · rw [Grammar.Query.nesting, hnesting, hqnesting]
        rfl
      · rw [Grammar.Query.branches, List.map_cons, htree, hqbranches]

/-- **Operands that derive form a group that derives.** -/
theorem joined {k : Connective} (h : List.Forall₂ (Derivable k.inner) rs es) (hne : es ≠ []) :
    Derivable k.outer (Rendering.joined k.keyword rs) (k.join es) := by
  cases k with
  | and =>
    obtain ⟨c, htokens, hnesting, htests, hoperands⟩ := exists_conjunct h hne
    refine ⟨c, htokens, hnesting, htests, ?_⟩
    rw [Expr.simplify, Expr.simplifyAll_eq_map, hoperands]
    rfl
  | or =>
    obtain ⟨q, htokens, hnesting, htests, hbranches⟩ := exists_query h hne
    refine ⟨q, htokens, hnesting, htests, ?_⟩
    rw [Grammar.Query.tree, Expr.simplify, Expr.simplifyAll_eq_map, hbranches]
    rfl

end Derivable

/-! ## Comparisons are read back -/

section

variable {spell : Double → String}

/-- An integer is not spelled as a double. -/
theorem isDoubleSpelling_intText (n : Int) :
    isDoubleSpelling (Decimal.intText n).toList = false := by
  have hdigit : ∀ c, c.isDigit = true → (c == '.' || c == 'e' || c == 'E') = false := by
    intro c hc
    simp only [Bool.or_eq_false_iff, beq_eq_false_iff_ne]
    refine ⟨⟨?_, ?_⟩, ?_⟩ <;> rintro rfl <;> exact absurd hc (by decide)
  rw [Decimal.intText, String.toList_ofList, isDoubleSpelling, List.any_eq_false]
  intro c hc
  rw [Bool.not_eq_true]
  rcases List.mem_append.mp hc with hsign | hmem
  · split at hsign
    · obtain rfl := List.mem_singleton.mp hsign
      decide
    · cases hsign
  · exact hdigit c (Nat.isDigit_of_mem_toDigits (by decide) (by decide) hmem)

/-- **A value is read back from its literal.** -/
theorem Literal.value?_raw {value : Literal} (hp : value.Proper)
    (hs : ∀ d, value = .float d → Spells d (spell d)) (ht : ∀ type, value ≠ .typeName type) :
    (value.raw spell).value? = some value := by
  have hread : ofRaw (value.raw spell) 0 = .ok value → (value.raw spell).value? = some value :=
    Literal.ofRaw_eq_ok_iff.mp
  refine hread ?_
  cases value with
  | int n =>
    have hchars : Decimal.Numeral.ofChars? (Decimal.intText n).toList
        = some (Decimal.intNumeral n) := by
      rw [Decimal.intText, String.toList_ofList, ← Decimal.intNumeral_chars]
      exact Decimal.Numeral.ofChars?_chars (Decimal.intNumeral_spelled n)
    have hfits : fitsInt64 n = true := by simpa [Literal.Proper, fitsInt64] using hp
    rw [raw, ofRaw, ofNumber, isDoubleSpelling_intText, hchars]
    simp only [Bool.false_eq_true, if_false]
    rw [Decimal.intNumeral_integerValue, if_pos hfits]
  | float d =>
    obtain ⟨-, hdouble, hvalue⟩ := hs d rfl
    have hfinite : d.isFinite = true := hp
    rw [raw, ofRaw, ofNumber, if_pos hdouble, hvalue]
    exact if_pos hfinite
  | text s => rfl
  | bool b => rfl
  | null => rfl
  | typeName type => exact absurd rfl (ht type)

/-- **The names of types are read back**, and name no other type. -/
theorem TypeName.ofName?_word (type : TypeName) : ofName? type.word.spelling = some type := by
  cases type <;> decide

/-- **A comparison is read back from what is written**, its operator and
its value. -/
theorem Comparison.constraint_eq {c : Comparison} (h : c.Proper)
    (hs : ∀ d, c.value = .float d → Spells d (spell d)) :
    (c.constraint spell).op = c.op ∧ (c.constraint spell).value? = some c.value := by
  obtain ⟨field, op, value⟩ := c
  obtain ⟨-, htakes, hproper, htype⟩ := h
  have hraw : op ≠ .typeOf → (value.raw spell).value? = some value :=
    fun hop => Literal.value?_raw hproper hs fun type heq => hop (htype type heq)
  cases op with
  | relation r => exact ⟨rfl, hraw (by simp)⟩
  | pattern => exact ⟨rfl, hraw (by simp)⟩
  | presence => exact ⟨rfl, hraw (by simp)⟩
  | size r =>
    refine ⟨?_, hraw (by simp)⟩
    show Operator.size ((if r = .eq then none else some r).getD .eq) = .size r
    split
    · rename_i hr
      rw [hr]
      rfl
    · rfl
  | typeOf =>
    obtain ⟨type, rfl⟩ := htakes
    refine ⟨rfl, ?_⟩
    show (TypeName.ofName? type.word.spelling).map Literal.typeName = _
    rw [TypeName.ofName?_word]
    rfl

/-- **What is written makes sense**, and is the comparison. -/
theorem Comparison.written_admissible {c : Comparison} (h : c.Proper)
    (hs : ∀ d, c.value = .float d → Spells d (spell d)) :
    (c.written spell).Admissible ∧ (c.written spell).comparison = c := by
  obtain ⟨hop, hvalue⟩ := constraint_eq h hs
  refine ⟨⟨(isField_iff.mp h.field).2, c.value, hvalue, ?_⟩, ?_⟩
  · show (c.constraint spell).op.Takes c.value
    rw [hop]
    exact h.takes
  · rw [Grammar.Test.comparison_eq hvalue]
    show Comparison.mk c.field (c.constraint spell).op c.value = c
    rw [hop]

/-- The literal of a value can be written. -/
theorem Literal.writable_raw {value : Literal} (hs : ∀ d, value = .float d → Spells d (spell d)) :
    (Token.literal (value.raw spell)).Writable := by
  cases value with
  | int n =>
    refine ⟨Decimal.intNumeral n, Decimal.intNumeral_spelled n, ?_⟩
    rw [Decimal.intNumeral_chars, Decimal.intText, String.toList_ofList]
  | float d => exact (hs d rfl).numeral
  | text s => trivial
  | bool b => trivial
  | null => trivial
  | typeName type => trivial

/-- The words of the language that are no reserved words are plain. -/
theorem Token.isPlainWord_of_mem {name : String}
    (h : name ∈ ["exists", "size", "string", "number", "bool", "array", "object"]) :
    IsPlainWord name.toList := by
  have hall : ∀ name ∈ ["exists", "size", "string", "number", "bool", "array", "object"],
      name.toList ≠ [] ∧ name.toList.all isWordChar = true
        ∧ Text.lowerCase (String.ofList name.toList) ∉ reservedWords
        ∧ ¬ IsNumeral name.toList := by
    decide
  obtain ⟨hne, hchars, hreserved, hnumeral⟩ := hall name h
  exact ⟨hne, List.all_eq_true.mp hchars, hreserved, hnumeral⟩

/-- **The tokens of a comparison can be written.** -/
theorem Comparison.writable_written {c : Comparison} (h : c.Proper)
    (hs : ∀ d, c.value = .float d → Spells d (spell d)) :
    ∀ t ∈ (c.written spell).tokens, t.Writable := by
  have hfield : (Token.word c.field).Writable := (isField_iff.mp h.field).1
  refine List.forall_mem_cons.mpr ⟨hfield, ?_⟩
  obtain ⟨field, op, value⟩ := c
  have hraw : (Token.literal (value.raw spell)).Writable := Literal.writable_raw hs
  have hpair : ∀ {a b : Token}, a.Writable → b.Writable → ∀ t ∈ [a, b], t.Writable :=
    fun ha hb => List.forall_mem_cons.mpr ⟨ha, List.forall_mem_singleton.mpr hb⟩
  have hsize : (Token.word "size").Writable := Token.isPlainWord_of_mem (by decide)
  cases op with
  | relation r => exact hpair trivial hraw
  | pattern => exact hpair trivial hraw
  | presence => exact hpair (Token.isPlainWord_of_mem (by decide)) hraw
  | size r =>
    by_cases hr : r = .eq
    · subst hr
      exact hpair hsize hraw
    · rw [Comparison.written, Comparison.constraint]
      dsimp only
      rw [if_neg hr]
      exact List.forall_mem_cons.mpr ⟨hsize, hpair trivial hraw⟩
  | typeOf =>
    obtain ⟨type, rfl⟩ := h.takes
    refine hpair trivial ?_
    cases type with
    | null => trivial
    | _ => exact Token.isPlainWord_of_mem (by decide)

end

/-! ## Expressions are read back -/

namespace Expr

/-- **An expression that can be written**: it is regular, nothing in it is
ready-made, and its doubles are spelled so that they are read back. -/
structure Expressible (spell : Double → String) (e : Expr) : Prop where
  /-- It is regular. -/
  regular : e.Regular
  /-- It holds no ready-made document. -/
  fragments : e.fragments = []
  /-- Its doubles are read back. -/
  doubles : ∀ c ∈ e.comparisons, ∀ d, c.value = .float d → Spells d (spell d)

variable {spell : Double → String}

theorem Expressible.of_group {k : Connective} {operands : List Expr}
    (h : (k.group operands).Expressible spell) : ∀ e ∈ operands, e.Expressible spell := by
  intro e he
  have hfragments := h.fragments
  have hdoubles := h.doubles
  rw [fragments_group, List.flatMap_eq_nil_iff] at hfragments
  rw [comparisons_group] at hdoubles
  refine ⟨(regular_group_iff.mp h.regular).1 e he, hfragments e he, fun c hc => ?_⟩
  exact hdoubles c (List.mem_flatMap.mpr ⟨e, he, hc⟩)

/-- **Induction on expressions that can be written.** What holds of proper
comparisons whose doubles are read back, and is kept by groups and by
negations, holds of all of them. -/
theorem Expressible.induction {motive : Expr → Prop}
    (comparison : ∀ c : Comparison, c.Proper →
      (∀ d, c.value = .float d → Spells d (spell d)) → motive (.comparison c))
    (group : ∀ (k : Connective) (operands : List Expr), (k.group operands).Regular →
      (∀ e ∈ operands, motive e) → motive (k.group operands))
    (not : ∀ operand : Expr, operand.Regular → motive operand → motive (.not operand))
    {e : Expr} (h : e.Expressible spell) : motive e := by
  induction e using Expr.induction with
  | comparison c =>
    obtain ⟨hregular, -, hdoubles⟩ := h
    cases hregular with
    | comparison hproper => exact comparison c hproper (hdoubles c List.mem_cons_self)
  | all operands ih =>
    exact group .and operands h.regular fun e he => ih e he (h.of_group (k := .and) e he)
  | any operands ih =>
    exact group .or operands h.regular fun e he => ih e he (h.of_group (k := .or) e he)
  | not operand ih =>
    obtain ⟨hregular, hfragments, hdoubles⟩ := h
    cases hregular with
    | not hregular _ => exact not operand hregular (ih ⟨hregular, hfragments, hdoubles⟩)
  | fragment doc => exact absurd h.fragments (List.cons_ne_nil doc [])

/-- **What is written derives where it stands.** -/
theorem derivable_renderAt {e : Expr} (h : e.Expressible spell) (place : Place) :
    Derivable place (e.renderAt spell place) e := by
  refine h.induction (motive := fun e => ∀ place, Derivable place (e.renderAt spell place) e)
    (fun c hproper hdoubles place => ?_) (fun k operands hregular ih place => ?_)
    (fun operand hregular ih place => ?_) place
  · obtain ⟨hadmissible, hcomparison⟩ := Comparison.written_admissible hproper hdoubles
    have hderives : Derivable .operand ⟨(c.written spell).tokens, 0⟩ (.comparison c) := by
      refine ⟨.primary (.test (c.written spell)), rfl, rfl, ?_, ?_⟩
      · exact List.forall_mem_singleton.mpr hadmissible
      · rw [Grammar.Unary.tree, Grammar.Primary.tree, hcomparison]
        rfl
    rw [renderAt]
    exact hderives.anywhere (.comparison c) place
  · -- the operands derive where they stand, and what they are joined to is the group again
    obtain ⟨-, hflat, htwo⟩ := regular_group_iff.mp hregular
    have hall : List.Forall₂ (Derivable k.inner) (operands.map (renderAt spell k.inner))
        operands := by
      rw [List.forall₂_map_left_iff, List.forall₂_same]
      exact fun e he => ih e he k.inner
    have hjoined := Derivable.joined hall (List.ne_nil_of_length_pos (by omega))
    rw [Connective.join_eq_group hflat (by omega)] at hjoined
    rw [renderAt_group]
    exact hjoined.inParens hregular.isNormal place
  · rw [renderAt]
    exact (ih .operand).not.anywhere (.not hregular.isNormal) place

end Expr

namespace Rendering

theorem joined_cons_cons (k : Keyword) (r r' : Rendering) (rest : List Rendering) :
    (joined k (r :: r' :: rest)).tokens
      = r.tokens ++ .keyword k :: (joined k (r' :: rest)).tokens := rfl

/-- A token of what is joined is the keyword, or a token of a part. -/
theorem mem_tokens_joined {k : Keyword} {rs : List Rendering} {t : Token}
    (h : t ∈ (joined k rs).tokens) : t = .keyword k ∨ ∃ r ∈ rs, t ∈ r.tokens := by
  induction rs with
  | nil => cases h
  | cons r rest ih =>
    cases rest with
    | nil => exact .inr ⟨r, List.mem_singleton_self r, h⟩
    | cons r' rest =>
      rw [joined_cons_cons, List.mem_append, List.mem_cons] at h
      rcases h with h | h | h
      · exact .inr ⟨r, List.mem_cons_self, h⟩
      · exact .inl h
      · rcases ih h with h | ⟨r'', hr, h⟩
        · exact .inl h
        · exact .inr ⟨r'', List.mem_cons_of_mem r hr, h⟩

/-- Parentheses put two more tokens. -/
theorem mem_tokens_parensIf {b : Bool} {r : Rendering} {t : Token}
    (h : t ∈ (r.parensIf b).tokens) : t = .openParen ∨ t = .closeParen ∨ t ∈ r.tokens := by
  cases b with
  | false => exact .inr (.inr h)
  | true =>
    have hparens : t ∈ Token.openParen :: (r.tokens ++ [.closeParen]) := h
    rw [List.mem_cons, List.mem_append, List.mem_singleton] at hparens
    rcases hparens with h | h | h
    · exact .inl h
    · exact .inr (.inr h)
    · exact .inr (.inl h)

end Rendering

/-- **The tokens of an expression can be written.** -/
theorem Expr.writable_renderAt {spell : Double → String} {e : Expr} (h : e.Expressible spell)
    (place : Place) : ∀ t ∈ (e.renderAt spell place).tokens, t.Writable := by
  refine h.induction
    (motive := fun e => ∀ place, ∀ t ∈ (e.renderAt spell place).tokens, t.Writable)
    (fun c hproper hdoubles place => ?_) (fun k operands _ ih place t ht => ?_)
    (fun operand _ ih place => ?_) place
  · rw [renderAt]
    exact Comparison.writable_written hproper hdoubles
  · rw [renderAt_group] at ht
    rcases Rendering.mem_tokens_parensIf ht with rfl | rfl | ht
    · trivial
    · trivial
    · rcases Rendering.mem_tokens_joined ht with rfl | ⟨r, hr, ht⟩
      · trivial
      · obtain ⟨e, he, rfl⟩ := List.mem_map.mp hr
        exact ih e he k.inner t ht
  · rw [renderAt]
    exact List.forall_mem_cons.mpr ⟨trivial, ih .operand⟩

/-- **An expression is parsed from every text that it is written in**, if
it is not nested too deep. -/
theorem Expr.parse_of_rendered {spell : Double → String} {e : Expr} (h : e.Expressible spell)
    (hn : (e.render spell).nesting ≤ nestingLimit) {s : String}
    (hs : Token.Rendered (e.render spell).tokens s.toList) : Expr.parse s = .ok e := by
  obtain ⟨q, htokens, hnesting, htests, htree⟩ := derivable_renderAt h .query
  have hlexes : Token.Lexes s.toList q.tokens := by
    rw [htokens]
    exact Token.lexes_of_rendered hs (writable_renderAt h .query)
  refine Grammar.parse_eq_ok_iff_derives.mpr ⟨q, Token.lexes_iff.mp hlexes, ?_, ?_⟩
  · refine ⟨htests, ?_⟩
    rw [hnesting]
    exact hn
  · exact htree.symm

/-! ## No parenthesis can be left out -/

/-- The parentheses of what is written. -/
def Rendering.parenCount (r : Rendering) : Nat :=
  r.tokens.count .openParen

namespace Rendering

theorem parenCount_parensIf (b : Bool) (r : Rendering) :
    (r.parensIf b).parenCount = r.parenCount + b.toNat := by
  cases b with
  | false => rfl
  | true => simp [parenCount, parensIf, parens]

theorem parenCount_not (r : Rendering) : r.not.parenCount = r.parenCount := by
  simp [parenCount, Rendering.not]

theorem parenCount_joined (k : Keyword) (rs : List Rendering) :
    (joined k rs).parenCount = (rs.map parenCount).sum := by
  induction rs with
  | nil => rfl
  | cons r rest ih =>
    cases rest with
    | nil => simp [joined]
    | cons r' rest =>
      rw [List.map_cons, List.sum_cons, ← ih]
      simp [parenCount, joined_cons_cons]

end Rendering

/-- A comparison has no parenthesis. -/
theorem Grammar.Test.count_openParen (t : Test) : t.tokens.count .openParen = 0 := by
  obtain ⟨field, constraint⟩ := t
  cases constraint with
  | size word hw r raw => cases r <;> simp [Test.tokens, Constraint.tokens]
  | typeOf name => cases name <;> simp [Test.tokens, Constraint.tokens, TypeWord.token]
  | _ => simp [Test.tokens, Constraint.tokens]

namespace Expr

variable (spell : Double → String)

/-- A group has the parentheses of its operands, and its own. -/
theorem parenCount_group (k : Connective) (place : Place) (operands : List Expr) :
    ((k.group operands).renderAt spell place).parenCount
      = (operands.map fun e => (e.renderAt spell k.inner).parenCount).sum
        + (k.inParens place).toNat := by
  rw [renderAt_group, Rendering.parenCount_parensIf, Rendering.parenCount_joined, List.map_map]
  rfl

/-- Whatever is no group is written alike everywhere. -/
theorem renderAt_eq {e : Expr} (h : ∀ (k : Connective) operands, e ≠ k.group operands)
    (place place' : Place) : e.renderAt spell place = e.renderAt spell place' := by
  cases e with
  | all operands => exact absurd rfl (h .and operands)
  | any operands => exact absurd rfl (h .or operands)
  | comparison c => rw [renderAt, renderAt]
  | not operand => rw [renderAt, renderAt]
  | fragment doc => rw [renderAt, renderAt]

/-- A place further inside has as many parentheses, or one more. -/
theorem parenCount_le (e : Expr) :
    (∀ k : Connective, (e.renderAt spell k.outer).parenCount
      ≤ (e.renderAt spell k.inner).parenCount)
    ∧ (e.renderAt spell .operand).parenCount ≤ (e.renderAt spell .query).parenCount + 1 := by
  by_cases h : ∃ (k : Connective) (operands : List Expr), e = k.group operands
  · obtain ⟨k, operands, rfl⟩ := h
    simp only [parenCount_group]
    have houter : ∀ k' : Connective,
        (k.inParens k'.outer).toNat ≤ (k.inParens k'.inner).toNat := by
      rintro (_ | _) <;> cases k <;> decide
    have hone := Bool.toNat_le (k.inParens .operand)
    exact ⟨fun k' => Nat.add_le_add_left (houter k') _, by omega⟩
  · have hno : ∀ (k : Connective) operands, e ≠ k.group operands :=
      fun k operands heq => h ⟨k, operands, heq⟩
    refine ⟨fun k => ?_, ?_⟩
    · exact Nat.le_of_eq (congrArg _ (renderAt_eq spell hno k.outer k.inner))
    · rw [renderAt_eq spell hno .operand .query]
      omega

/-- **Joining saves parentheses, and never asks for more.** -/
theorem parenCount_join_le (k : Connective) (es : List Expr) :
    ((k.join es).renderAt spell k.outer).parenCount
      ≤ (es.map fun e => (e.renderAt spell k.inner).parenCount).sum := by
  -- the parts of an operand have the parentheses of the operand, but for its own
  have hpart : ∀ e, ((k.parts e).map fun p => (p.renderAt spell k.inner).parenCount).sum
      ≤ (e.renderAt spell k.inner).parenCount := by
    intro e
    rcases k.parts_cases e with ⟨operands, rfl, hparts⟩ | ⟨-, hparts⟩
    · rw [hparts, parenCount_group]
      omega
    · rw [hparts]
      simp
  have hparts : ((es.flatMap k.parts).map fun p => (p.renderAt spell k.inner).parenCount).sum
      ≤ (es.map fun e => (e.renderAt spell k.inner).parenCount).sum := by
    induction es with
    | nil => exact Nat.le_refl _
    | cons e rest ih =>
      rw [List.flatMap_cons, List.map_append, List.sum_append, List.map_cons, List.sum_cons]
      have he := hpart e
      omega
  rcases k.join_cases es with ⟨e, hone, hjoin⟩ | ⟨-, hjoin⟩
  · rw [hjoin]
    rw [hone] at hparts
    have hle := (parenCount_le spell e).1 k
    simp only [List.map_singleton, List.sum_singleton] at hparts
    omega
  · rw [hjoin, parenCount_group]
    have hnone : (k.inParens k.outer).toNat = 0 := by cases k <;> rfl
    omega

end Expr

namespace Grammar

variable (spell : Double → String)

mutual

/-- **A query needs no more parentheses than it has.** -/
theorem Query.parenCount_le (q : Query) :
    (q.tree.simplify.renderAt spell .query).parenCount ≤ q.tokens.count .openParen := by
  have hbranches := q.parenCount_branches_le
  have hjoin := Expr.parenCount_join_le spell .or (q.branches.map Expr.simplify)
  rw [List.map_map] at hjoin
  rw [Query.tree, Expr.simplify, Expr.simplifyAll_eq_map]
  exact Nat.le_trans hjoin hbranches

/-- Nor do its branches. -/
theorem Query.parenCount_branches_le (q : Query) :
    (q.branches.map fun e => (e.simplify.renderAt spell .branch).parenCount).sum
      ≤ q.tokens.count .openParen := by
  cases q with
  | last c =>
    have hc := c.parenCount_le
    simpa [Query.branches, Query.tokens] using hc
  | or c rest =>
    have hc := c.parenCount_le
    have hrest := rest.parenCount_branches_le
    have htokens : (Query.or c rest).tokens.count .openParen
        = c.tokens.count .openParen + rest.tokens.count .openParen := by
      simp [Query.tokens]
    rw [htokens, Query.branches, List.map_cons, List.sum_cons]
    exact Nat.add_le_add hc hrest

/-- Nor does a conjunct. -/
theorem Conjunct.parenCount_le (c : Conjunct) :
    ((Expr.all c.operands).simplify.renderAt spell .branch).parenCount
      ≤ c.tokens.count .openParen := by
  have hoperands := c.parenCount_operands_le
  have hjoin := Expr.parenCount_join_le spell .and (c.operands.map Expr.simplify)
  rw [List.map_map] at hjoin
  rw [Expr.simplify, Expr.simplifyAll_eq_map]
  exact Nat.le_trans hjoin hoperands

/-- Nor do its operands. -/
theorem Conjunct.parenCount_operands_le (c : Conjunct) :
    (c.operands.map fun e => (e.simplify.renderAt spell .operand).parenCount).sum
      ≤ c.tokens.count .openParen := by
  cases c with
  | last u =>
    have hu := u.parenCount_le
    simpa [Conjunct.operands, Conjunct.tokens] using hu
  | and u rest =>
    have hu := u.parenCount_le
    have hrest := rest.parenCount_operands_le
    have htokens : (Conjunct.and u rest).tokens.count .openParen
        = u.tokens.count .openParen + rest.tokens.count .openParen := by
      simp [Conjunct.tokens]
    rw [htokens, Conjunct.operands, List.map_cons, List.sum_cons]
    exact Nat.add_le_add hu hrest

/-- Nor does a unary. -/
theorem Unary.parenCount_le (u : Unary) :
    (u.tree.simplify.renderAt spell .operand).parenCount ≤ u.tokens.count .openParen := by
  cases u with
  | not u =>
    have hu := u.parenCount_le
    rw [Unary.tree, Expr.simplify, Expr.renderAt, Rendering.parenCount_not]
    simpa [Unary.tokens] using hu
  | primary p => exact p.parenCount_le

/-- Nor does a primary. -/
theorem Primary.parenCount_le (p : Primary) :
    (p.tree.simplify.renderAt spell .operand).parenCount ≤ p.tokens.count .openParen := by
  cases p with
  | parens q =>
    have hq := q.parenCount_le
    have hone := (Expr.parenCount_le spell q.tree.simplify).2
    have htokens : (Primary.parens q).tokens.count .openParen = q.tokens.count .openParen + 1 := by
      simp [Primary.tokens]
    rw [htokens]
    exact Nat.le_trans hone (Nat.add_le_add_right hq 1)
  | test t =>
    have hnone : ((Expr.comparison t.comparison).renderAt spell .operand).parenCount = 0 := by
      rw [Expr.renderAt]
      exact Test.count_openParen _
    rw [Primary.tree, Expr.simplify, hnone]
    exact Nat.zero_le _

end

end Grammar

/-! ## Texts -/

/-- The tokens with a blank before each. -/
def Token.spaced (ts : List Token) : String :=
  String.ofList (ts.flatMap fun t => ' ' :: t.spell '"')

/-- **Every list of tokens can be written down.** -/
theorem Token.rendered_spaced (ts : List Token) : Rendered ts (spaced ts).toList := by
  rw [spaced, String.toList_ofList]
  induction ts with
  | nil => exact .gap (by simp)
  | cons t rest ih =>
    have hend : EndsLexeme (rest.flatMap fun t => ' ' :: t.spell '"') := by
      intro c hc
      cases rest with
      | nil => cases hc
      | cons t' rest =>
        obtain rfl := Option.some.inj hc
        decide
    exact @Rendered.token '"' [' '] _ t rest (by simp [isGap]) (by decide) (.inr hend) ih

/-- **Queries are parsed to the regular expressions**, and to no others.
What a query of any shape is parsed to is regular; and a regular
expression without ready-made documents is what is parsed from every text
that it is written in with the fewest parentheses, if at most so many
negations and parentheses are open at once as may be. -/
theorem Query.parse_image :
    (∀ (q : Query) (e : Expr), q.parse = .ok (some e) → e.Regular)
      ∧ ∀ (spell : Double → String) (e : Expr), e.Regular → e.fragments = [] →
        (∀ c ∈ e.comparisons, ∀ d, c.value = .float d → Spells d (spell d)) →
        (∀ q : Grammar.Query, q.tree.simplify = e →
          (e.render spell).tokens.count .openParen ≤ q.tokens.count .openParen)
        ∧ (∃ s : String, Token.Rendered (e.render spell).tokens s.toList)
        ∧ ((e.render spell).nesting ≤ nestingLimit → ∀ s : String,
          Token.Rendered (e.render spell).tokens s.toList → Expr.parse s = .ok e) := by
  refine ⟨fun q e => Query.regular_of_parse, fun spell e hr hf hs => ⟨?_, ?_, ?_⟩⟩
  · rintro q rfl
    exact q.parenCount_le spell
  · exact ⟨_, Token.rendered_spaced _⟩
  · exact fun hn s hrendered => Expr.parse_of_rendered ⟨hr, hf, hs⟩ hn hrendered

/-- A length, and a double and a type under a negation: the `or` needs its
parentheses. -/
theorem Query.parse_image_nested :
    ∃ d : Double, Spells d "1.5"
      ∧ Expr.parse " a size < 2 and not ( b.c >= 1.5 or x type null )"
        = .ok (.all [.comparison ⟨"a", .size .lt, .int 2⟩,
          .not (.any [.comparison ⟨"b.c", .relation .ge, .float d⟩,
            .comparison ⟨"x", .typeOf, .typeName .null⟩])]) := by
  let d : Double := .finite false ⟨0x3ff8000000000000, by decide⟩
  let e : Expr := .all [.comparison ⟨"a", .size .lt, .int 2⟩,
    .not (.any [.comparison ⟨"b.c", .relation .ge, .float d⟩,
      .comparison ⟨"x", .typeOf, .typeName .null⟩])]
  have hd : Spells d "1.5" := ⟨by decide, by decide, by decide +kernel⟩
  have hfield : ∀ field ∈ ["a", "b.c", "x"], IsField field := by
    have hall : ∀ field ∈ ["a", "b.c", "x"],
        (∀ segment ∈ Text.segments '.' field.toList, segment ≠ []
          ∧ (segment.all fun c => c.isAlphanum || c == '_') = true)
        ∧ Text.lowerCase field ∉ Token.reservedWords ∧ ¬ IsNumeral field.toList := by
      decide
    intro field hmem
    obtain ⟨hsegments, hreserved, hnumeral⟩ := hall field hmem
    refine ⟨fun s hs => ⟨(hsegments s hs).1, fun c hc => ?_⟩, hreserved, hnumeral⟩
    simpa using List.all_eq_true.mp (hsegments s hs).2 c hc
  have hregular : e.Regular := by
    refine .all (List.forall_mem_cons.mpr ⟨.comparison ?_, List.forall_mem_singleton.mpr
      (.not (.any (List.forall_mem_cons.mpr ⟨.comparison ?_, List.forall_mem_singleton.mpr
        (.comparison ?_)⟩) (by simp) (by decide)) rfl)⟩) (by simp) (by decide)
    · exact ⟨hfield "a" (by decide), ⟨2, rfl, by decide, fun _ => by decide⟩, by
        show -2 ^ 63 ≤ (2 : Int) ∧ (2 : Int) < 2 ^ 63
        decide, fun type h => by cases h⟩
    · exact ⟨hfield "b.c" (by decide), .inr (.inr (.inr ⟨d, rfl⟩)), rfl, fun type h => by cases h⟩
    · exact ⟨hfield "x" (by decide), ⟨.null, rfl⟩, trivial, fun _ _ => rfl⟩
  have hdoubles : ∀ c ∈ e.comparisons, ∀ d', c.value = .float d' → Spells d' "1.5" := by
    intro c hc d' hvalue
    have hmem : c ∈ [Comparison.mk "a" (.size .lt) (.int 2), ⟨"b.c", .relation .ge, .float d⟩,
      ⟨"x", .typeOf, .typeName .null⟩] := hc
    simp only [List.mem_cons, List.not_mem_nil, or_false] at hmem
    rcases hmem with rfl | rfl | rfl
    · cases hvalue
    · exact Literal.float.inj hvalue ▸ hd
    · cases hvalue
  have htext : Token.spaced (e.render fun _ => "1.5").tokens
      = " a size < 2 and not ( b.c >= 1.5 or x type null )" := by
    decide +kernel
  have hnesting : (e.render fun _ => "1.5").nesting ≤ nestingLimit := by decide
  refine ⟨d, hd, (parse_image.2 _ e hregular rfl hdoubles).2.2 hnesting _ ?_⟩
  rw [← htext]
  exact Token.rendered_spaced _

end DocFilter
