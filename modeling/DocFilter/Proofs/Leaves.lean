import DocFilter.Proofs.Predicates
import DocFilter.Proofs.Translation

/-!
# The documents of comparisons

A comparison becomes a document of one entry, in one of three forms
(`Filter.Compared`). A test of a type, or of a length that is not just
given, is *code*; which test it is can be told from the comparison alone
(`Comparison.test?`). A test that has an operator of its own is an
*operator* over the field, and there are few of these (`OperatorEntry`).
What is left is equality, for which the field holds the *literal*.

Everything about the leaves of a translation is read off these three
forms, and the translation of a comparison is not opened again.
-/

namespace DocFilter

/-- A value that is neither a list nor a document. -/
def Value.isScalar : Value → Bool
  | .list _ => false
  | .document _ => false
  | _ => true

/-- The value of a literal is a scalar. -/
theorem Literal.isScalar_toValue (l : Literal) : l.toValue.isScalar = true := by
  cases l with
  | float d =>
    show Value.isScalar (if d.isFinite then _ else _) = true
    split <;> rfl
  | _ => rfl

/-- **An operator with a value that goes with it.** -/
inductive OperatorEntry : String → Value → Prop where
  /-- A relation other than equality. -/
  | relation {key : String} {value : Value} (hk : key ∈ ["$ne", "$gt", "$gte", "$lt", "$lte"])
    (hv : value.isScalar = true) : OperatorEntry key value
  /-- Presence or absence. -/
  | presence (b : Bool) : OperatorEntry "$exists" (.bool b)
  /-- A pattern. -/
  | pattern (p : String) : OperatorEntry "$regex" (.text p)
  /-- A pattern that is not to be met. -/
  | notPattern (p : String) : OperatorEntry "$not" (.document [("$regex", .text p)])
  /-- A length. -/
  | size (n : Int) : OperatorEntry "$size" (.int n)

/-- The key of a relation is one of five. -/
theorem OperatorEntry.of_relation {r : Relation} {key : String} (h : r.operatorKey? = some key)
    (l : Literal) : OperatorEntry key l.toValue := by
  refine .relation ?_ l.isScalar_toValue
  cases r with
  | eq => cases h
  | _ =>
    obtain rfl := Option.some.inj h
    decide

open Predicate (Test)

/-- **The test that a comparison is in code**, on its field under a sign:
every test of a type, and of a length unless it is equality. -/
def Comparison.test? (field : String) (negated : Bool) (c : Comparison) : Option Test :=
  match c.op, c.value with
  | .typeOf, .typeName type => some (if negated then .notType field type else .type field type)
  | .size r, .int n =>
    if r.underNegation negated = .eq then none else some (.size field (r.underNegation negated) n)
  | _, _ => none

namespace Filter

/-- **What the document of a comparison can be.** -/
inductive Compared (field : String) (negated : Bool) (c : Comparison) : Document → Prop where
  /-- Code for a test. -/
  | code {test : Test} {text : String} (ht : c.test? field negated = some test)
    (hc : test.code = .ok text) : Compared field negated c (underWhere text)
  /-- An operator over the field. -/
  | operator {op : String} {value : Value} (ht : c.test? field negated = none)
    (ho : OperatorEntry op value) : Compared field negated c (underOperator field op value)
  /-- The field with the literal. -/
  | literal (ht : c.test? field negated = none) :
    Compared field negated c (Document.single field c.value.toValue)

/-- **The document of a comparison has one of the three forms.** -/
theorem compared_of_ofComparison {o : Options} {negated : Bool} {c : Comparison} {d : Document}
    (h : ofComparison o negated c = .ok d) : Compared (o.resolve c.field) negated c d := by
  obtain ⟨field, op, value⟩ := c
  unfold ofComparison at h
  dsimp only at h ⊢
  generalize o.resolve field = path at h ⊢
  cases op with
  | relation r =>
    have ht : Comparison.test? path negated ⟨field, .relation r, value⟩ = none := rfl
    dsimp only [Operator.relation?] at h
    cases hkey : (r.underNegation negated).operatorKey? with
    | some key =>
      rw [hkey] at h
      obtain rfl := Except.ok.inj h
      exact .operator ht (.of_relation hkey value)
    | none =>
      rw [hkey] at h
      obtain rfl := Except.ok.inj h
      exact .literal ht
  | typeOf =>
    cases value with
    | typeName type =>
      dsimp only at h
      cases hcode : Predicate.ofType path type with
      | error e => rw [hcode] at h; cases h
      | ok code =>
        rw [hcode] at h
        obtain rfl := Except.ok.inj h
        cases negated with
        | false =>
          have ht : Comparison.test? path false ⟨field, .typeOf, .typeName type⟩
              = some (.type path type) := rfl
          exact .code ht hcode
        | true =>
          have ht : Comparison.test? path true ⟨field, .typeOf, .typeName type⟩
              = some (.notType path type) := rfl
          exact .code ht (by rw [Test.code, hcode]; rfl)
    | _ => cases h
  | presence =>
    cases value with
    | bool present =>
      obtain rfl := Except.ok.inj h
      exact .operator rfl (.presence _)
    | _ => cases h
  | pattern =>
    cases value with
    | text p =>
      cases negated with
      | false =>
        obtain rfl := Except.ok.inj h
        exact .operator rfl (.pattern p)
      | true =>
        obtain rfl := Except.ok.inj h
        exact .operator rfl (.notPattern p)
    | _ => cases h
  | size r =>
    cases value with
    | int n =>
      dsimp only at h
      split at h
      · rename_i heq
        obtain rfl := Except.ok.inj h
        exact .operator (if_pos heq) (.size n)
      · rename_i hne
        obtain ⟨code, hcode, rfl⟩ := map_eq_ok_iff.mp h
        exact .code (if_neg hne) hcode
    | _ => cases h

/-- **The document of a comparison has one entry.** -/
theorem Compared.exists_single {field : String} {negated : Bool} {c : Comparison} {d : Document}
    (h : Compared field negated c d) : ∃ key value, d = Document.single key value := by
  cases h with
  | code _ _ => exact ⟨_, _, rfl⟩
  | operator _ _ => exact ⟨_, _, rfl⟩
  | literal _ => exact ⟨_, _, rfl⟩

end Filter

end DocFilter
