import DocFilter.Expr.Parser
import Mathlib

/-!
# The grammar of queries

```text
query      = conjunct ("or" conjunct)*
conjunct   = unary ("and" unary)*
unary      = "not" unary | primary
primary    = "(" query ")" | comparison
comparison = FIELD relation literal | FIELD "~" literal | FIELD "type" NAME
           | FIELD "exists" literal | FIELD "size" relation? literal
```

A **derivation** is a piece of data, one type for each line of the
grammar, and says nothing about how a query is parsed: it has the tokens
that it derives, the tree that it stands for, and a depth, the number of
negations and parentheses that are open at once.

The grammar is a little wider than the language. A derivation is
**admissible** if its fields are paths, its literals can be read, and every
operator gets the kind of value that it takes; these conditions speak of
one comparison at a time.

The grammar is unambiguous (`Query.tokens_injective`): a unary ends where
it ends whatever follows, and a conjunct or a query ends where no `and` or
`or` follows.
-/

namespace DocFilter

/-! ## What an operator takes -/

/-- **The values that an operator takes.** Only equality takes all. -/
def Operator.Takes : Operator → Literal → Prop
  | .relation r, value => r = .eq ∨ r = .ne ∨ (∃ n, value = .int n) ∨ ∃ d, value = .float d
  | .pattern, value => ∃ p, value = .text p
  | .presence, value => ∃ b, value = .bool b
  | .size r, value => ∃ n, value = .int n ∧ 0 ≤ n ∧ (r = .lt → 1 ≤ n)
  | .typeOf, value => ∃ type, value = .typeName type

/-- **An operator takes what meets its demand.** -/
theorem Operator.takes_iff {op : Operator} (hop : op ≠ .typeOf) (value : Literal) :
    op.Takes value ↔ op.unmet? value = none := by
  cases op with
  | relation r => cases r <;> cases value <;> simp [Takes, unmet?]
  | typeOf => exact absurd rfl hop
  | presence => cases value <;> simp [Takes, unmet?]
  | pattern => cases value <;> simp [Takes, unmet?]
  | size r =>
    cases value with
    | int n =>
      simp only [Takes, unmet?, Literal.int.injEq, exists_eq_left']
      by_cases hlt : r = .lt ∧ n = 0
      · simp [hlt]
      · by_cases hn : 0 ≤ n
        · simp only [hlt, hn, if_false, if_true, true_and, iff_true]
          intro hr
          have hne : n ≠ 0 := fun h0 => hlt ⟨hr, h0⟩
          omega
        · simp [hlt, hn]
    | _ => simp [Takes, unmet?]

/-- The value of a literal, if it has one. -/
def RawLiteral.value? (raw : RawLiteral) : Option Literal :=
  (Literal.ofRaw raw 0).toOption

/-- **The place of a literal decides about errors only.** -/
theorem Literal.ofRaw_eq_ok_iff {raw : RawLiteral} {position : Nat} {value : Literal} :
    Literal.ofRaw raw position = .ok value ↔ raw.value? = some value := by
  unfold RawLiteral.value? Literal.ofRaw
  cases raw with
  | number spelling =>
    dsimp only
    unfold Literal.ofNumber
    split
    · split
      · split <;> simp [Except.toOption]
      · simp [Except.toOption]
    · split
      · split <;> simp [Except.toOption]
      · simp [Except.toOption]
  | _ => simp [Except.toOption]

namespace Grammar

/-! ## Comparisons -/

/-- **What can name a type**: a word, a text or `null`. -/
inductive TypeWord where
  /-- A plain word. -/
  | word (name : String)
  /-- A quoted text. -/
  | text (content : String)
  /-- The word for the null value. -/
  | null

namespace TypeWord

/-- The token of a name. -/
def token : TypeWord → Token
  | .word name => .word name
  | .text content => .literal (.text content)
  | .null => .literal .null

/-- The name as it is spelled. -/
def spelling : TypeWord → String
  | .word name => name
  | .text content => content
  | .null => "null"

theorem token_injective {n n' : TypeWord} (h : n.token = n'.token) : n = n' := by
  cases n <;> cases n' <;> simp_all [token]

end TypeWord

/-- **What follows the field of a comparison.** The words `exists` and
`size` may be written in any case. -/
inductive Constraint where
  /-- A relation to a literal. -/
  | relation (r : Relation) (raw : RawLiteral)
  /-- A pattern. -/
  | pattern (raw : RawLiteral)
  /-- A type. -/
  | typeOf (name : TypeWord)
  /-- Presence. -/
  | presence (word : String) (hw : Text.sameWord word "exists" = true) (raw : RawLiteral)
  /-- A length, with a relation or without. -/
  | size (word : String) (hw : Text.sameWord word "size" = true) (r : Option Relation)
    (raw : RawLiteral)

namespace Constraint

/-- The tokens of a constraint. -/
def tokens : Constraint → List Token
  | .relation r raw => [.relation r, .literal raw]
  | .pattern raw => [.pattern, .literal raw]
  | .typeOf name => [.keyword .type, name.token]
  | .presence word _ raw => [.word word, .literal raw]
  | .size word _ none raw => [.word word, .literal raw]
  | .size word _ (some r) raw => [.word word, .relation r, .literal raw]

/-- The operator of a constraint. -/
def op : Constraint → Operator
  | .relation r _ => .relation r
  | .pattern _ => .pattern
  | .typeOf _ => .typeOf
  | .presence _ _ _ => .presence
  | .size _ _ r _ => .size (r.getD .eq)

/-- The value of a constraint, if its literal or its name has one. -/
def value? : Constraint → Option Literal
  | .relation _ raw => raw.value?
  | .pattern raw => raw.value?
  | .typeOf name => (TypeName.ofName? name.spelling).map .typeName
  | .presence _ _ raw => raw.value?
  | .size _ _ _ raw => raw.value?

/-- A word is not both `exists` and `size`. -/
theorem sameWord_exists_ne_size {word : String} (he : Text.sameWord word "exists" = true) :
    Text.sameWord word "size" = false := by
  unfold Text.sameWord at he ⊢
  rw [eq_of_beq he]
  decide

/-- **A constraint ends where it ends**, whatever follows. -/
theorem tokens_append_injective {c c' : Constraint} {rest rest' : List Token}
    (h : c.tokens ++ rest = c'.tokens ++ rest') : c = c' ∧ rest = rest' := by
  cases c with
  | relation r raw =>
    cases c' with
    | size word hw r' raw' => cases r' <;> simp [tokens] at h
    | _ => simp_all [tokens]
  | pattern raw =>
    cases c' with
    | size word hw r' raw' => cases r' <;> simp [tokens] at h
    | _ => simp_all [tokens]
  | typeOf name =>
    cases c' with
    | typeOf name' =>
      simp only [tokens, List.cons_append, List.nil_append, List.cons.injEq, true_and] at h
      exact ⟨by rw [TypeWord.token_injective h.1], h.2⟩
    | size word hw r' raw' => cases r' <;> simp [tokens] at h
    | _ => simp [tokens] at h
  | presence word hw raw =>
    cases c' with
    | presence word' hw' raw' => simp_all [tokens]
    | size word' hw' r' raw' =>
      -- the word would have to be both
      exfalso
      have hword : word = word' := by cases r' <;> simp_all [tokens]
      rw [hword] at hw
      exact absurd hw' (by rw [sameWord_exists_ne_size hw]; decide)
    | _ => simp [tokens] at h
  | size word hw r raw =>
    cases c' with
    | presence word' hw' raw' =>
      exfalso
      have hword : word' = word := by cases r <;> simp_all [tokens]
      rw [hword] at hw'
      exact absurd hw (by rw [sameWord_exists_ne_size hw']; decide)
    | size word' hw' r' raw' => cases r <;> cases r' <;> simp_all [tokens]
    | _ => cases r <;> simp [tokens] at h

end Constraint

/-- **A comparison as it is written.** -/
@[ext] structure Test where
  /-- The field. -/
  field : String
  /-- What is said of it. -/
  constraint : Constraint

namespace Test

/-- The tokens of a comparison. -/
def tokens (t : Test) : List Token :=
  .word t.field :: t.constraint.tokens

/-- The comparison itself; the value matters where there is one. -/
def comparison (t : Test) : Comparison :=
  ⟨t.field, t.constraint.op, t.constraint.value?.getD .null⟩

/-- **A comparison that makes sense**: the field is a path without empty
segments, and the operator takes the value. -/
def Admissible (t : Test) : Prop :=
  (∀ segment ∈ Text.segments '.' t.field.toList, segment ≠ [])
    ∧ ∃ value, t.constraint.value? = some value ∧ t.constraint.op.Takes value

end Test

/-! ## Derivations -/

mutual

/-- **A query**: conjuncts with `or` between them. -/
inductive Query where
  /-- The last conjunct. -/
  | last (c : Conjunct)
  /-- A conjunct and more. -/
  | or (c : Conjunct) (rest : Query)

/-- **A conjunct**: unaries with `and` between them. -/
inductive Conjunct where
  /-- The last unary. -/
  | last (u : Unary)
  /-- A unary and more. -/
  | and (u : Unary) (rest : Conjunct)

/-- **A unary**: a primary under negations. -/
inductive Unary where
  /-- A negation. -/
  | not (u : Unary)
  /-- No more negations. -/
  | primary (p : Primary)

/-- **A primary**: a query in parentheses or a comparison. -/
inductive Primary where
  /-- A query in parentheses. -/
  | parens (q : Query)
  /-- A comparison. -/
  | test (t : Test)

end

mutual

/-- The tokens of a query. -/
def Query.tokens : Query → List Token
  | .last c => c.tokens
  | .or c rest => c.tokens ++ .keyword .or :: rest.tokens

/-- The tokens of a conjunct. -/
def Conjunct.tokens : Conjunct → List Token
  | .last u => u.tokens
  | .and u rest => u.tokens ++ .keyword .and :: rest.tokens

/-- The tokens of a unary. -/
def Unary.tokens : Unary → List Token
  | .not u => .keyword .not :: u.tokens
  | .primary p => p.tokens

/-- The tokens of a primary. -/
def Primary.tokens : Primary → List Token
  | .parens q => .openParen :: (q.tokens ++ [.closeParen])
  | .test t => t.tokens

end

mutual

/-- The trees of the conjuncts of a query. -/
def Query.branches : Query → List Expr
  | .last c => [.all c.operands]
  | .or c rest => .all c.operands :: rest.branches

/-- The trees of the unaries of a conjunct. -/
def Conjunct.operands : Conjunct → List Expr
  | .last u => [u.tree]
  | .and u rest => u.tree :: rest.operands

/-- The tree of a unary. -/
def Unary.tree : Unary → Expr
  | .not u => .not u.tree
  | .primary p => p.tree

/-- The tree of a primary. -/
def Primary.tree : Primary → Expr
  | .parens q => .any q.branches
  | .test t => .comparison t.comparison

end

/-- **The tree of a query**: an `or` of `and`s, however few. -/
def Query.tree (q : Query) : Expr :=
  .any q.branches

mutual

/-- **How many negations and parentheses are open at once** in a query, at
most. -/
def Query.nesting : Query → Nat
  | .last c => c.nesting
  | .or c rest => max c.nesting rest.nesting

/-- How many are open at once in a conjunct. -/
def Conjunct.nesting : Conjunct → Nat
  | .last u => u.nesting
  | .and u rest => max u.nesting rest.nesting

/-- How many are open at once in a unary. -/
def Unary.nesting : Unary → Nat
  | .not u => u.nesting + 1
  | .primary p => p.nesting

/-- How many are open at once in a primary. -/
def Primary.nesting : Primary → Nat
  | .parens q => q.nesting + 1
  | .test _ => 0

end

mutual

/-- The comparisons of a query, as they are written. -/
def Query.tests : Query → List Test
  | .last c => c.tests
  | .or c rest => c.tests ++ rest.tests

/-- The comparisons of a conjunct. -/
def Conjunct.tests : Conjunct → List Test
  | .last u => u.tests
  | .and u rest => u.tests ++ rest.tests

/-- The comparisons of a unary. -/
def Unary.tests : Unary → List Test
  | .not u => u.tests
  | .primary p => p.tests

/-- The comparisons of a primary. -/
def Primary.tests : Primary → List Test
  | .parens q => q.tests
  | .test t => [t]

end

/-- **A query that the language has**: its comparisons make sense and it is
not nested too deep. -/
structure Query.Admissible (q : Query) : Prop where
  /-- Every comparison makes sense. -/
  tests : ∀ t ∈ q.tests, t.Admissible
  /-- Negations and parentheses are within the limit. -/
  nesting : q.nesting ≤ nestingLimit

/-! ## One derivation for each list of tokens -/

/-- What follows does not start with a keyword. -/
def NotNext (k : Keyword) (rest : List Token) : Prop :=
  rest.head? ≠ some (.keyword k)

theorem notNext_of_ne {k k' : Keyword} (h : k' ≠ k) (rest : List Token) :
    NotNext k (.keyword k' :: rest) := by
  intro heq
  exact h (Token.keyword.inj (Option.some.inj heq))

mutual

/-- **A query ends where no connective follows.** -/
theorem Query.tokens_append_injective (q q' : Query) (rest rest' : List Token)
    (h : q.tokens ++ rest = q'.tokens ++ rest') (ha : NotNext .and rest) (ho : NotNext .or rest)
    (ha' : NotNext .and rest') (ho' : NotNext .or rest') : q = q' ∧ rest = rest' := by
  cases q with
  | last c =>
    cases q' with
    | last c' =>
      obtain ⟨rfl, hrest⟩ := c.tokens_append_injective c' rest rest' h ha ha'
      exact ⟨rfl, hrest⟩
    | or c' more' =>
      simp only [Query.tokens, List.append_assoc, List.cons_append] at h
      -- the first query would have to go on with the `or` of the second
      obtain ⟨-, hrest⟩ := c.tokens_append_injective c' rest _ h ha (notNext_of_ne (by decide) _)
      exact absurd (congrArg List.head? hrest) ho
  | or c more =>
    simp only [Query.tokens, List.append_assoc, List.cons_append] at h
    cases q' with
    | last c' =>
      obtain ⟨-, hrest⟩ := c.tokens_append_injective c' _ rest' h (notNext_of_ne (by decide) _) ha'
      exact absurd (congrArg List.head? hrest).symm ho'
    | or c' more' =>
      simp only [Query.tokens, List.append_assoc, List.cons_append] at h
      obtain ⟨rfl, hmore⟩ := c.tokens_append_injective c' _ _ h (notNext_of_ne (by decide) _)
        (notNext_of_ne (by decide) _)
      obtain ⟨rfl, hrest⟩ :=
        more.tokens_append_injective more' rest rest' (List.cons.inj hmore).2 ha ho ha' ho'
      exact ⟨rfl, hrest⟩

/-- **A conjunct ends where no `and` follows.** -/
theorem Conjunct.tokens_append_injective (c c' : Conjunct) (rest rest' : List Token)
    (h : c.tokens ++ rest = c'.tokens ++ rest') (ha : NotNext .and rest)
    (ha' : NotNext .and rest') : c = c' ∧ rest = rest' := by
  cases c with
  | last u =>
    cases c' with
    | last u' =>
      obtain ⟨rfl, hrest⟩ := u.tokens_append_injective u' rest rest' h
      exact ⟨rfl, hrest⟩
    | and u' more' =>
      simp only [Conjunct.tokens, List.append_assoc, List.cons_append] at h
      obtain ⟨-, hrest⟩ := u.tokens_append_injective u' rest _ h
      exact absurd (congrArg List.head? hrest) ha
  | and u more =>
    simp only [Conjunct.tokens, List.append_assoc, List.cons_append] at h
    cases c' with
    | last u' =>
      obtain ⟨-, hrest⟩ := u.tokens_append_injective u' _ rest' h
      exact absurd (congrArg List.head? hrest).symm ha'
    | and u' more' =>
      simp only [Conjunct.tokens, List.append_assoc, List.cons_append] at h
      obtain ⟨rfl, hmore⟩ := u.tokens_append_injective u' _ _ h
      obtain ⟨rfl, hrest⟩ :=
        more.tokens_append_injective more' rest rest' (List.cons.inj hmore).2 ha ha'
      exact ⟨rfl, hrest⟩

/-- **A unary ends where it ends**, whatever follows. -/
theorem Unary.tokens_append_injective (u u' : Unary) (rest rest' : List Token)
    (h : u.tokens ++ rest = u'.tokens ++ rest') : u = u' ∧ rest = rest' := by
  cases u with
  | not u =>
    cases u' with
    | not u' =>
      obtain ⟨rfl, hrest⟩ := u.tokens_append_injective u' rest rest' (List.cons.inj h).2
      exact ⟨rfl, hrest⟩
    | primary p' => cases p' <;> simp [Unary.tokens, Primary.tokens, Test.tokens] at h
  | primary p =>
    cases u' with
    | not u' => cases p <;> simp [Unary.tokens, Primary.tokens, Test.tokens] at h
    | primary p' =>
      obtain ⟨rfl, hrest⟩ := p.tokens_append_injective p' rest rest' h
      exact ⟨rfl, hrest⟩

/-- So does a primary. -/
theorem Primary.tokens_append_injective (p p' : Primary) (rest rest' : List Token)
    (h : p.tokens ++ rest = p'.tokens ++ rest') : p = p' ∧ rest = rest' := by
  cases p with
  | parens q =>
    cases p' with
    | parens q' =>
      simp only [Primary.tokens, List.cons_append, List.append_assoc, List.cons.injEq,
        true_and] at h
      have hclose : ∀ k rest, NotNext k (.closeParen :: rest) := fun k rest heq => by cases heq
      obtain ⟨rfl, hrest⟩ := q.tokens_append_injective q' _ _ h (hclose _ _) (hclose _ _)
        (hclose _ _) (hclose _ _)
      exact ⟨rfl, (List.cons.inj hrest).2⟩
    | test t' => simp [Primary.tokens, Test.tokens] at h
  | test t =>
    cases p' with
    | parens q' => simp [Primary.tokens, Test.tokens] at h
    | test t' =>
      obtain ⟨hfield, hrest⟩ := List.cons.inj h
      obtain ⟨hc, hrest⟩ := Constraint.tokens_append_injective hrest
      refine ⟨?_, hrest⟩
      rw [show t = t' from Test.ext (Token.word.inj hfield) hc]

end

/-- **The grammar is unambiguous.** -/
theorem Query.tokens_injective {q q' : Query} (h : q.tokens = q'.tokens) : q = q' := by
  have hend : ∀ k, NotNext k [] := fun k heq => by cases heq
  refine (q.tokens_append_injective q' [] [] ?_ (hend _) (hend _) (hend _) (hend _)).1
  rw [h]

end Grammar

end DocFilter
