import DocFilter.Filter.Basic
import DocFilter.Proofs.Predicates
import DocFilter.Proofs.Translation

/-!
# What expressions and filter documents say

An expression and a document both say something about the record at hand,
and what they say is settled by their atoms. A `Reading` gives the atoms
their truth: how a field compares with a value, whether it is there, fits
a pattern, has a type or a length, and what is left to operators, items
and code that mean nothing here. All that is asked of it is that a
relation and its complement never agree, and that code which tests a type
or a length says so. Every way of giving truth to the atoms of fields
extends to such a reading (`Reading.ofAtoms`), since from the code of a
test one can tell what it tests.

An expression is then read by its connectives (`Reading.exprHolds`). A
document is read by its entries, and all of them must hold
(`Reading.documentHolds`):

* `$and`, `$or` and `$nor` over a list want all, some or none of its items;
* `$where` over a text wants every conjunct of its code;
* any other key is a field: with a map of operators it wants each of
  them, and with any other value it wants equality.

The two readings share no definition but the atoms.
-/

namespace DocFilter

open Document (keys)

/-- **A reading of atoms**: what holds of the record at hand. -/
structure Reading where
  /-- Whether a field stands in a relation to a value. -/
  compares : String → Relation → Value → Prop
  /-- Whether a field is there. -/
  present : String → Prop
  /-- Whether a field fits a pattern. -/
  fits : String → String → Prop
  /-- Whether a field has a type. -/
  hasType : String → TypeName → Prop
  /-- Whether the length of a field stands in a relation to a number. -/
  hasSize : String → Relation → Int → Prop
  /-- Whether a field satisfies an operator that is none of the above. -/
  satisfies : String → String → Value → Prop
  /-- Whether an item counts that is not a document. -/
  item : Value → Prop
  /-- Whether a piece of code comes out true. -/
  code : String → Prop
  /-- A relation holds exactly when its complement does not. -/
  compares_complement : ∀ field r value,
    compares field r.complement value ↔ ¬ compares field r value
  /-- The same of lengths. -/
  hasSize_complement : ∀ field r n, hasSize field r.complement n ↔ ¬ hasSize field r n
  /-- Code that tests a type says whether the field has it. -/
  code_ofType : ∀ {field type text}, Predicate.ofType field type = .ok text →
    (code text ↔ hasType field type)
  /-- Code that negates the test says whether it has not. -/
  code_negated : ∀ {field type text}, Predicate.ofType field type = .ok text →
    (code ("!(" ++ text ++ ")") ↔ ¬ hasType field type)
  /-- Code that tests a length says how it compares. -/
  code_ofSize : ∀ {field r n text}, Predicate.ofSize field r n = .ok text →
    (code text ↔ hasSize field r n)

open Predicate (Test) in
/-- **Every truth of the atoms of fields is part of a reading**: code that
tests something gets its truth from what it tests, and all other code
keeps the one it is given. -/
def Reading.ofAtoms (compares : String → Relation → Value → Prop) (present : String → Prop)
    (fits : String → String → Prop) (hasType : String → TypeName → Prop)
    (hasSize : String → Relation → Int → Prop) (satisfies : String → String → Value → Prop)
    (item : Value → Prop) (otherCode : String → Prop)
    (hc : ∀ field r value, compares field r.complement value ↔ ¬ compares field r value)
    (hs : ∀ field r n, hasSize field r.complement n ↔ ¬ hasSize field r n) : Reading :=
  let truth : Test → Prop := fun test => match test with
    | .type field type => hasType field type
    | .notType field type => ¬ hasType field type
    | .size field r n => hasSize field r n
  let code : String → Prop := fun text =>
    (∃ test : Test, test.code = .ok text ∧ truth test)
      ∨ ((∀ test : Test, test.code ≠ .ok text) ∧ otherCode text)
  have hcode : ∀ (test : Test) {text : String}, test.code = .ok text →
      (code text ↔ truth test) := by
    intro test text ht
    constructor
    · rintro (⟨other, ho, htruth⟩ | ⟨hno, -⟩)
      · obtain rfl := Test.code_injective ht ho
        exact htruth
      · exact absurd ht (hno test)
    · intro htruth
      exact .inl ⟨test, ht, htruth⟩
  { compares, present, fits, hasType, hasSize, satisfies, item, code
    compares_complement := hc
    hasSize_complement := hs
    code_ofType := fun h => hcode (.type _ _) h
    code_negated := fun h => hcode (.notType _ _) (by rw [Test.code, h]; rfl)
    code_ofSize := fun h => hcode (.size _ _ _) h }

/-- The relation that an operator of a document stands for. -/
def Relation.ofOperatorKey? (op : String) : Option Relation :=
  [("$ne", Relation.ne), ("$gt", .gt), ("$gte", .ge), ("$lt", .lt), ("$lte", .le)].lookup op

namespace Reading

/-! ## Expressions -/

/-- **What a comparison says** of a field. An operator says nothing of a
literal it cannot take. -/
def comparisonHolds (I : Reading) (field : String) : Operator → Literal → Prop
  | .relation r, value => I.compares field r value.toValue
  | .typeOf, .typeName type => I.hasType field type
  | .presence, .bool b => I.present field ↔ b = true
  | .pattern, .text p => I.fits field p
  | .size r, .int n => I.hasSize field r n
  | _, _ => False

/-! ## Documents -/

/-- **What one operator says** of a field. -/
def operatorHolds (I : Reading) (field op : String) (value : Value) : Prop :=
  match Relation.ofOperatorKey? op with
  | some r => I.compares field r value
  | none =>
    match op, value with
    | "$exists", .bool b => I.present field ↔ b = true
    | "$regex", .text p => I.fits field p
    | "$not", .document [("$regex", .text p)] => ¬ I.fits field p
    | "$size", .int n => I.hasSize field .eq n
    | _, _ => I.satisfies field op value

/-- **What code says**: all that its conjuncts say. -/
def codeHolds (I : Reading) (text : String) : Prop :=
  ∀ part ∈ Predicate.conjuncts text.toList, I.code (String.ofList part)

mutual

/-- **What a document says**: all that its entries say. -/
def documentHolds (I : Reading) : List (String × Value) → Prop
  | [] => True
  | (key, value) :: rest => I.entryHolds key value ∧ I.documentHolds rest

/-- **What an entry says.** -/
def entryHolds (I : Reading) (key : String) : Value → Prop
  | .list items =>
    if key = andKey then I.allHold items
    else if key = orKey then I.someHolds items
    else if key = norKey then ¬ I.someHolds items
    else I.compares key .eq (.list items)
  | .document map =>
    if Document.isOperatorMap map then ∀ e ∈ map, I.operatorHolds key e.1 e.2
    else I.compares key .eq (.document map)
  | .text s => if key = whereKey then I.codeHolds s else I.compares key .eq (.text s)
  | v => I.compares key .eq v

/-- What an item of a list says. -/
def itemHolds (I : Reading) : Value → Prop
  | .document doc => I.documentHolds doc
  | v => I.item v

/-- Every item holds. -/
def allHold (I : Reading) : List Value → Prop
  | [] => True
  | v :: rest => I.itemHolds v ∧ I.allHold rest

/-- Some item holds. -/
def someHolds (I : Reading) : List Value → Prop
  | [] => False
  | v :: rest => I.itemHolds v ∨ I.someHolds rest

end

mutual

/-- **What an expression says**, each field by its path. -/
def exprHolds (I : Reading) (resolve : String → String) : Expr → Prop
  | .comparison c => I.comparisonHolds (resolve c.field) c.op c.value
  | .all operands => I.everyOperandHolds resolve operands
  | .any operands => I.someOperandHolds resolve operands
  | .not operand => ¬ I.exprHolds resolve operand
  | .fragment doc => I.documentHolds doc

/-- Every operand holds. -/
def everyOperandHolds (I : Reading) (resolve : String → String) : List Expr → Prop
  | [] => True
  | e :: rest => I.exprHolds resolve e ∧ I.everyOperandHolds resolve rest

/-- Some operand holds. -/
def someOperandHolds (I : Reading) (resolve : String → String) : List Expr → Prop
  | [] => False
  | e :: rest => I.exprHolds resolve e ∨ I.someOperandHolds resolve rest

end

variable {I : Reading}

/-! ## The readings as quantifiers -/

/-- A document holds when each of its entries does. -/
theorem documentHolds_iff (doc : Document) :
    I.documentHolds doc ↔ ∀ e ∈ doc, I.entryHolds e.1 e.2 := by
  induction doc with
  | nil => simp [documentHolds]
  | cons e rest ih =>
    obtain ⟨k, v⟩ := e
    rw [documentHolds, ih, List.forall_mem_cons]

@[simp] theorem documentHolds_append (doc more : Document) :
    I.documentHolds (doc ++ more) ↔ I.documentHolds doc ∧ I.documentHolds more := by
  rw [documentHolds_iff, documentHolds_iff, documentHolds_iff, List.forall_mem_append]

@[simp] theorem documentHolds_single (key : String) (value : Value) :
    I.documentHolds (Document.single key value) ↔ I.entryHolds key value := by
  show _ ∧ True ↔ _
  exact and_iff_left trivial

@[simp] theorem allHold_append (items more : List Value) :
    I.allHold (items ++ more) ↔ I.allHold items ∧ I.allHold more := by
  induction items with
  | nil => simp [allHold]
  | cons v rest ih => rw [List.cons_append, allHold, allHold, ih, and_assoc]

@[simp] theorem someHolds_append (items more : List Value) :
    I.someHolds (items ++ more) ↔ I.someHolds items ∨ I.someHolds more := by
  induction items with
  | nil => simp [someHolds]
  | cons v rest ih => rw [List.cons_append, someHolds, someHolds, ih, or_assoc]

/-- A logical key over a list wants of the items what its name says. -/
theorem entryHolds_and (items : List Value) :
    I.entryHolds andKey (.list items) ↔ I.allHold items := by
  rw [entryHolds, if_pos rfl]

theorem entryHolds_or (items : List Value) :
    I.entryHolds orKey (.list items) ↔ I.someHolds items := by
  rw [entryHolds, if_neg (by decide), if_pos rfl]

theorem entryHolds_nor (items : List Value) :
    I.entryHolds norKey (.list items) ↔ ¬ I.someHolds items := by
  rw [entryHolds, if_neg (by decide), if_neg (by decide), if_pos rfl]

theorem entryHolds_where (text : String) :
    I.entryHolds whereKey (.text text) ↔ I.codeHolds text := by
  rw [entryHolds, if_pos rfl]

/-- A map of operators wants each of its operators. -/
theorem entryHolds_operators {key : String} {map : Document}
    (h : Document.isOperatorMap map = true) :
    I.entryHolds key (.document map) ↔ ∀ e ∈ map, I.operatorHolds key e.1 e.2 := by
  rw [entryHolds, if_pos h]

/-- **Code joined from atoms says what its atoms say.** -/
theorem codeHolds_chain {text : String} {ps : List (List Char)}
    (h : Predicate.Chain text.toList ps) :
    I.codeHolds text ↔ ∀ part ∈ ps, I.code (String.ofList part) := by
  unfold codeHolds
  rw [Predicate.conjuncts_chain h]

/-- Code that was not joined says itself. -/
theorem codeHolds_atom {text : String} (h : Predicate.IsAtom text.toList) :
    I.codeHolds text ↔ I.code text := by
  rw [codeHolds_chain (.atom h), List.forall_mem_singleton, String.ofList_toList]

theorem everyOperandHolds_iff {resolve : String → String} (operands : List Expr) :
    I.everyOperandHolds resolve operands ↔ ∀ e ∈ operands, I.exprHolds resolve e := by
  induction operands with
  | nil => simp [everyOperandHolds]
  | cons e rest ih => rw [everyOperandHolds, ih, List.forall_mem_cons]

theorem someOperandHolds_iff {resolve : String → String} (operands : List Expr) :
    I.someOperandHolds resolve operands ↔ ∃ e ∈ operands, I.exprHolds resolve e := by
  induction operands with
  | nil => simp [someOperandHolds]
  | cons e rest ih =>
    rw [someOperandHolds, ih]
    simp only [List.mem_cons, exists_eq_or_imp]

end Reading

end DocFilter
