import DocFilter.Proofs.Choices
import DocFilter.Proofs.EmbeddedCode
import DocFilter.Proofs.JoinedCode

/-!
# The code of a translation is the list of its tests

Some comparisons have no form of their own in a filter and are tests in
code. An expression has its **top tests**, those that its outermost
conjunction asks for: a conjunction is an `and`, or an `or` under
negation, and its operands are conjunctions again. Where there is a choice
instead, each branch is an expression with top tests of its own, and these
are the **inner tests** (`Expr.topTests`, `Expr.innerTests`).

The filter of an expression without ready-made documents has these tests
and no other code. What stands under `$where` is the top tests, in order,
with ` && ` between them and nothing else; further down there is the code
of each branch, in the same form (`Filter.coded_ofExpr`).

That says which code there is, and not yet where: with the code of two
branches exchanged a document has the same code. A choice in the outermost
conjunction is one of the choices of the document
(`Document.choices`), wherever a merge has put it, and its alternatives
are the documents of its branches. `CodedThroughout` asks for the code of
each of them in turn (`Filter.codedThroughout_ofExpr`).

A test knows its field, its type or its relation and its number. No other
literal of the expression is in it (`Expr.topTests_blank`), so none is in
the code.
-/

namespace DocFilter

open Document (get? keys under)
open Predicate (Test)

/-! ## The tests of an expression -/

namespace Expr

mutual

/-- **The tests of the outermost conjunction** of an expression under a
sign, in order. -/
def topTests (o : Options) (negated : Bool) : Expr → List Test
  | .comparison c => (c.test? (o.resolve c.field) negated).toList
  | .all operands => if negated then [] else topTestsOf o false operands
  | .any operands => if negated then topTestsOf o true operands else []
  | .not operand => topTests o (!negated) operand
  | .fragment _ => []

/-- The top tests of operands, one after the other. -/
def topTestsOf (o : Options) (negated : Bool) : List Expr → List Test
  | [] => []
  | e :: rest => topTests o negated e ++ topTestsOf o negated rest

end

mutual

/-- **The tests of the branches below**: for each branch of a choice in
the outermost conjunction its top tests, and the tests of the branches
below that. -/
def innerTests (o : Options) (negated : Bool) : Expr → List (List Test)
  | .comparison _ => []
  | .all operands => if negated then branchTests o true operands else innerTestsOf o false operands
  | .any operands => if negated then innerTestsOf o true operands else branchTests o false operands
  | .not operand => innerTests o (!negated) operand
  | .fragment _ => []

/-- The inner tests of operands, one after the other. -/
def innerTestsOf (o : Options) (negated : Bool) : List Expr → List (List Test)
  | [] => []
  | e :: rest => innerTests o negated e ++ innerTestsOf o negated rest

/-- All tests of branches, branch by branch. -/
def branchTests (o : Options) (negated : Bool) : List Expr → List (List Test)
  | [] => []
  | e :: rest => (topTests o negated e :: innerTests o negated e) ++ branchTests o negated rest

end

/-- **An expression whose code is all generated**: it has no ready-made
documents, and no field goes by the name of the key of code. -/
structure Generated (o : Options) (e : Expr) : Prop where
  /-- There are no ready-made documents. -/
  fragments : e.fragments = []
  /-- Fields are not the key of code. -/
  fields : ∀ c ∈ e.comparisons, o.resolve c.field ≠ whereKey

/-- The operands of a group are generated if the group is. -/
theorem Generated.of_mem {o : Options} {operands : List Expr} {e : Expr}
    (hf : fragmentsOf operands = [])
    (hc : ∀ c ∈ comparisonsOf operands, o.resolve c.field ≠ whereKey) (he : e ∈ operands) :
    e.Generated o where
  fragments := by
    rw [fragmentsOf_eq_flatMap, List.flatMap_eq_nil_iff] at hf
    exact hf e he
  fields := fun c hmem => hc c (mem_comparisonsOf he hmem)

theorem Generated.of_merges {o : Options} {negated : Bool} {e : Expr} {operands : List Expr}
    (he : e.Generated o) (h : Filter.Merges negated e operands) :
    ∀ b ∈ operands, b.Generated o := by
  cases h <;> exact fun b => .of_mem he.fragments he.fields

theorem Generated.of_lists {o : Options} {negated : Bool} {e : Expr} {operands : List Expr}
    (he : e.Generated o) (h : Filter.Lists negated e operands) :
    ∀ b ∈ operands, b.Generated o := by
  cases h <;> exact fun b => .of_mem he.fragments he.fields

end Expr

/-! ## Literals -/

/-- A comparison without its literal, unless that is the name of a type or
a length. -/
def Comparison.blank (c : Comparison) : Comparison :=
  match c.op with
  | .typeOf => c
  | .size _ => c
  | _ => { c with value := .null }

/-- A test has no other literal in it. -/
theorem Comparison.test?_blank (c : Comparison) (field : String) (negated : Bool) :
    c.blank.test? field negated = c.test? field negated := by
  obtain ⟨f, op, value⟩ := c
  cases op <;> rfl

theorem Comparison.field_blank (c : Comparison) : c.blank.field = c.field := by
  obtain ⟨f, op, value⟩ := c
  cases op <;> rfl

namespace Expr

mutual

/-- **An expression without its literals**, other than names of types and
lengths. -/
def blank : Expr → Expr
  | .comparison c => .comparison c.blank
  | .all operands => .all (blankAll operands)
  | .any operands => .any (blankAll operands)
  | .not operand => .not (blank operand)
  | .fragment doc => .fragment doc

/-- The operands without their literals. -/
def blankAll : List Expr → List Expr
  | [] => []
  | e :: rest => blank e :: blankAll rest

end

mutual

/-- **The top tests have no other literal in them.** -/
theorem topTests_blank (o : Options) (negated : Bool) (e : Expr) :
    e.blank.topTests o negated = e.topTests o negated := by
  cases e with
  | comparison c =>
    rw [blank, topTests, topTests, Comparison.test?_blank, Comparison.field_blank]
  | all operands => rw [blank, topTests, topTests, topTestsOf_blankAll o false operands]
  | any operands => rw [blank, topTests, topTests, topTestsOf_blankAll o true operands]
  | not operand => rw [blank, topTests, topTests, topTests_blank o (!negated) operand]
  | fragment doc => rw [blank]

theorem topTestsOf_blankAll (o : Options) (negated : Bool) (operands : List Expr) :
    topTestsOf o negated (blankAll operands) = topTestsOf o negated operands := by
  cases operands with
  | nil => rw [blankAll]
  | cons e rest =>
    rw [blankAll, topTestsOf, topTestsOf, topTests_blank o negated e,
      topTestsOf_blankAll o negated rest]

end

mutual

/-- **Nor have the inner tests.** -/
theorem innerTests_blank (o : Options) (negated : Bool) (e : Expr) :
    e.blank.innerTests o negated = e.innerTests o negated := by
  cases e with
  | comparison c => rw [blank, innerTests, innerTests]
  | all operands =>
    rw [blank, innerTests, innerTests, innerTestsOf_blankAll o false operands,
      branchTests_blankAll o true operands]
  | any operands =>
    rw [blank, innerTests, innerTests, innerTestsOf_blankAll o true operands,
      branchTests_blankAll o false operands]
  | not operand => rw [blank, innerTests, innerTests, innerTests_blank o (!negated) operand]
  | fragment doc => rw [blank]

theorem innerTestsOf_blankAll (o : Options) (negated : Bool) (operands : List Expr) :
    innerTestsOf o negated (blankAll operands) = innerTestsOf o negated operands := by
  cases operands with
  | nil => rw [blankAll]
  | cons e rest =>
    rw [blankAll, innerTestsOf, innerTestsOf, innerTests_blank o negated e,
      innerTestsOf_blankAll o negated rest]

theorem branchTests_blankAll (o : Options) (negated : Bool) (operands : List Expr) :
    branchTests o negated (blankAll operands) = branchTests o negated operands := by
  cases operands with
  | nil => rw [blankAll]
  | cons e rest =>
    rw [blankAll, branchTests, branchTests, topTests_blank o negated e,
      innerTests_blank o negated e, branchTests_blankAll o negated rest]

end

/-! ## Choices -/

mutual

/-- **The choices in the outermost conjunction** of an expression under a
sign, in order. Each has its branches, with the sign that they have. -/
def choices (negated : Bool) : Expr → List (Bool × List Expr)
  | .comparison _ => []
  | .all operands => if negated then [(true, operands)] else choicesOf false operands
  | .any operands => if negated then choicesOf true operands else [(false, operands)]
  | .not operand => choices (!negated) operand
  | .fragment _ => []

/-- The choices of operands, one after the other. -/
def choicesOf (negated : Bool) : List Expr → List (Bool × List Expr)
  | [] => []
  | e :: rest => choices negated e ++ choicesOf negated rest

end

/-- **The branches of an expression** that is a choice under a sign, with
the sign that they have. -/
def branches? (negated : Bool) : Expr → Option (Bool × List Expr)
  | .all operands => if negated then some (true, operands) else none
  | .any operands => if negated then none else some (false, operands)
  | .not operand => branches? (!negated) operand
  | _ => none

/-- Branches are generated if the choice is. -/
theorem Generated.of_branches? {o : Options} {negated sign : Bool} {e : Expr}
    {branches : List Expr} (he : e.Generated o) (h : e.branches? negated = some (sign, branches)) :
    ∀ b ∈ branches, b.Generated o := by
  induction e using Expr.induction generalizing negated with
  | comparison c => cases h
  | all operands _ =>
    cases negated with
    | false => cases h
    | true =>
      obtain ⟨-, rfl⟩ := Prod.mk.inj (Option.some.inj h)
      exact fun b => .of_mem he.fragments he.fields
  | any operands _ =>
    cases negated with
    | false =>
      obtain ⟨-, rfl⟩ := Prod.mk.inj (Option.some.inj h)
      exact fun b => .of_mem he.fragments he.fields
    | true => cases h
  | not operand ih => exact ih ⟨he.fragments, he.fields⟩ h
  | fragment doc => cases h

end Expr

/-! ## Tests as code -/

namespace Predicate

/-- The code of a test is not joined. -/
theorem Test.isAtom_code {test : Test} {text : String} (h : test.code = .ok text) :
    IsAtom text.toList := by
  cases test with
  | type _ _ => exact isAtom_ofType h
  | notType _ _ =>
    obtain ⟨code, hcode, rfl⟩ := map_eq_ok_iff.mp h
    exact isAtom_negated (isAtom_ofType hcode)
  | size _ _ _ => exact isAtom_ofSize h

/-- Atoms with ` && ` between them are a chain. -/
theorem chain_intercalate {part : String} {parts : List String}
    (h : ∀ p ∈ part :: parts, IsAtom p.toList) :
    Chain (" && ".intercalate (part :: parts)).toList ((part :: parts).map String.toList) := by
  induction parts generalizing part with
  | nil => exact String.intercalate_singleton ▸ .atom (h part List.mem_cons_self)
  | cons next rest ih =>
    have htext : (" && ".intercalate (part :: next :: rest)).toList
        = part.toList ++ ([' ', '&', '&', ' '] ++ (" && ".intercalate (next :: rest)).toList) := by
      rw [String.intercalate_cons_cons, String.toList_append, String.toList_append,
        List.append_assoc]
      rfl
    rw [htext]
    exact .join (.atom (h part List.mem_cons_self))
      (ih (fun p hp => h p (List.mem_cons_of_mem _ hp)))

end Predicate

/-- **The code of tests**: none if there are none, and otherwise their
predicates in order with ` && ` between them. -/
inductive Renders : List Test → Option Value → Prop where
  /-- There is nothing to test. -/
  | nothing : Renders [] none
  /-- The tests are joined. -/
  | joined {tests : List Test} {parts : List String} (hne : tests ≠ [])
    (h : List.Forall₂ (fun test part => test.code = .ok part) tests parts) :
    Renders tests (some (.text (" && ".intercalate parts)))

/-- **The code of lists of tests**, each by itself. -/
inductive RendersAll : List (List Test) → Multiset Value → Prop where
  /-- There are no lists. -/
  | nil : RendersAll [] 0
  /-- The code of the first and the code of the others. -/
  | cons {tests : List Test} {code : Option Value} {more : List (List Test)}
    {codes : Multiset Value} (h : Renders tests code) (hs : RendersAll more codes) :
    RendersAll (tests :: more) (↑code.toList + codes)

namespace Renders

variable {tests more : List Test} {code code' : Option Value}

/-- The code of one test. -/
theorem single {test : Test} {text : String} (h : test.code = .ok text) :
    Renders [test] (some (.text text)) := by
  have hjoined := Renders.joined (List.cons_ne_nil test []) (.cons h .nil)
  rwa [String.intercalate_singleton] at hjoined

/-- Tests have one code. -/
theorem unique (h : Renders tests code) (h' : Renders tests code') : code = code' := by
  cases h with
  | nothing =>
    cases h' with
    | nothing => rfl
    | joined hne _ => exact absurd rfl hne
  | joined hne h =>
    cases h' with
    | nothing => exact absurd rfl hne
    | joined _ h' =>
      have hfun : Relator.RightUnique fun (test : Test) part => test.code = .ok part :=
        fun _ _ _ hp hq => Except.ok.inj (hp.symm.trans hq)
      rw [List.right_unique_forall₂' hfun h h']

/-- The code of tests has no bars, so that it needs no parentheses. -/
theorem guarded_intercalate {parts : List String}
    (h : List.Forall₂ (fun test part => test.code = .ok part) tests parts) (hne : tests ≠ []) :
    guarded (" && ".intercalate parts) false = " && ".intercalate parts := by
  have hatom : ∀ p ∈ parts, Predicate.IsAtom p.toList := by
    clear hne
    induction h with
    | nil => exact fun p hp => by cases hp
    | cons hcode _ ih => exact List.forall_mem_cons.mpr ⟨Test.isAtom_code hcode, ih⟩
  cases h with
  | nil => exact absurd rfl hne
  | cons _ _ =>
    unfold guarded
    rw [Predicate.occurs_eq_false (Predicate.chain_intercalate hatom).not_mem]
    rfl

/-- **Tests joined to tests are their tests in order.** -/
theorem join {left right : Value} {text : String} (hl : Renders tests (some left))
    (hr : Renders more (some right)) (h : joinWhere left right false false = .ok text) :
    Renders (tests ++ more) (some (.text text)) := by
  cases hl with
  | joined hne hparts =>
    rename_i parts
    cases hr with
    | joined hne' hparts' =>
      rename_i parts'
      have hsome : ∀ {ts : List Test} {ps : List String}, ts ≠ [] →
          List.Forall₂ (fun test part => test.code = .ok part) ts ps → ps ≠ [] := by
        rintro ts ps hts hps rfl
        exact hts (List.forall₂_nil_right_iff.mp hps)
      have htext : text = " && ".intercalate (parts ++ parts') := by
        rw [String.intercalate_append_of_ne_nil (hsome hne hparts) (hsome hne' hparts')]
        unfold joinWhere at h
        dsimp only at h
        split at h
        · cases h
        · rw [guarded_intercalate hparts hne, guarded_intercalate hparts' hne'] at h
          exact (Except.ok.inj h).symm
      rw [htext]
      exact .joined (List.append_ne_nil_of_left_ne_nil hne more) (List.rel_append hparts hparts')

/-- **One more document's code is joined to the pending code.** -/
theorem addAll {p p' : Conjunction.Pending} (hraw : p.raw = false) (hp : Renders tests p.code)
    (hc : Renders more code) (h : p.addAll false code.toList = .ok p') :
    p'.raw = false ∧ Renders (tests ++ more) p'.code := by
  cases code with
  | none =>
    cases hc
    obtain rfl := Except.ok.inj h
    rw [List.append_nil]
    exact ⟨hraw, hp⟩
  | some v =>
    obtain ⟨present, raw⟩ := p
    have hraw : raw = false := hraw
    subst hraw
    cases present with
    | none =>
      cases hp
      obtain rfl := Except.ok.inj h
      exact ⟨rfl, hc⟩
    | some left =>
      rw [Option.toList_some, Conjunction.Pending.addAll_singleton] at h
      obtain ⟨text, hj, rfl⟩ := map_eq_ok_iff.mp h
      exact ⟨rfl, hp.join hc hj⟩

end Renders

namespace RendersAll

variable {gs gs' : List (List Test)} {s s' : Multiset Value}

/-- Lists of tests have one multiset of code. -/
theorem unique (h : RendersAll gs s) (h' : RendersAll gs s') : s = s' := by
  induction h generalizing s' with
  | nil =>
    cases h'
    rfl
  | cons h _ ih =>
    cases h' with
    | cons h' hs' => rw [h.unique h', ih hs']

theorem append (h : RendersAll gs s) (h' : RendersAll gs' s') :
    RendersAll (gs ++ gs') (s + s') := by
  induction h with
  | nil => rwa [List.nil_append, zero_add]
  | cons h _ ih =>
    rw [List.cons_append, add_assoc]
    exact .cons h ih

end RendersAll

/-! ## The code of a translation -/

/-- **The code of a document is that of an expression's tests**, under a
sign. -/
structure Coded (o : Options) (negated : Bool) (e : Expr) (d : Document) : Prop where
  /-- Under `$where` there are the top tests. -/
  top : Renders (e.topTests o negated) (get? d whereKey)
  /-- Further down there are the inner tests. -/
  inner : RendersAll (e.innerTests o negated) d.innerCodes
  /-- Fields have no code. -/
  plain : d.FieldsPlain
  /-- Each key is given once. -/
  nodup : (keys d).Nodup

theorem Coded.codes {o : Options} {negated : Bool} {e : Expr} {d : Document}
    (h : Coded o negated e d) :
    RendersAll (e.topTests o negated :: e.innerTests o negated) d.codes := by
  rw [Document.codes_eq, Document.under_eq_toList h.nodup]
  exact .cons h.top h.inner

mutual

/-- **The code of a document is that of an expression's tests, branch by
branch**: under `$where` there are the top tests, and the choices are
coded. -/
inductive CodedThroughout (o : Options) : Bool → Expr → Document → Prop where
  /-- What stands at the top, and what stands in the choices. -/
  | intro {negated : Bool} {e : Expr} {d : Document}
    (top : Renders (e.topTests o negated) (get? d whereKey))
    (choices : ChoicesCoded o (e.choices negated) d.choices) : CodedThroughout o negated e d

/-- **Choices are coded**, each by itself. -/
inductive ChoicesCoded (o : Options) : List (Bool × List Expr) → Multiset (List Value) → Prop where
  /-- There are no choices. -/
  | nil : ChoicesCoded o [] 0
  /-- The first choice and the others. -/
  | cons {sign : Bool} {branches : List Expr} {items : List Value}
    {more : List (Bool × List Expr)} {s : Multiset (List Value)}
    (h : BranchesCoded o sign branches items) (hs : ChoicesCoded o more s) :
    ChoicesCoded o ((sign, branches) :: more) (items ::ₘ s)

/-- **The branches of a choice are coded**, one by one: the alternatives
are those of their own documents, and each of these is coded
throughout. -/
inductive BranchesCoded (o : Options) : Bool → List Expr → List Value → Prop where
  /-- There are no branches. -/
  | nil {sign : Bool} : BranchesCoded o sign [] []
  /-- The document of the first branch, and the other branches. -/
  | cons {sign : Bool} {b : Expr} {doc : Document} {rest : List Expr} {items : List Value}
    (hdoc : Filter.ofExpr o sign b = .ok doc) (h : CodedThroughout o sign b doc)
    (hs : BranchesCoded o sign rest items) :
    BranchesCoded o sign (b :: rest) (Filter.alternatives doc ++ items)

end

theorem CodedThroughout.top {o : Options} {negated : Bool} {e : Expr} {d : Document}
    (h : CodedThroughout o negated e d) : Renders (e.topTests o negated) (get? d whereKey) := by
  cases h with
  | intro top _ => exact top

theorem CodedThroughout.choices {o : Options} {negated : Bool} {e : Expr} {d : Document}
    (h : CodedThroughout o negated e d) : ChoicesCoded o (e.choices negated) d.choices := by
  cases h with
  | intro _ choices => exact choices

theorem ChoicesCoded.append {o : Options} {cs cs' : List (Bool × List Expr)}
    {s s' : Multiset (List Value)} (h : ChoicesCoded o cs s) (h' : ChoicesCoded o cs' s') :
    ChoicesCoded o (cs ++ cs') (s + s') := by
  induction cs generalizing s with
  | nil =>
    cases h
    rwa [List.nil_append, zero_add]
  | cons choice more ih =>
    cases h with
    | cons hb hs =>
      rw [List.cons_append, Multiset.cons_add]
      exact .cons hb (ih hs)

/-- A single choice is found by itself. -/
theorem ChoicesCoded.exists_of_singleton {o : Options} {sign : Bool} {branches : List Expr}
    {s : Multiset (List Value)} (h : ChoicesCoded o [(sign, branches)] s) :
    ∃ items, s = {items} ∧ BranchesCoded o sign branches items := by
  cases h with
  | cons hb hs =>
    cases hs
    exact ⟨_, rfl, hb⟩

/-- A choice between two has the documents of both. -/
theorem BranchesCoded.exists_of_pair {o : Options} {sign : Bool} {b c : Expr} {items : List Value}
    (h : BranchesCoded o sign [b, c] items) :
    ∃ left right, items = Filter.alternatives left ++ Filter.alternatives right
      ∧ CodedThroughout o sign b left ∧ CodedThroughout o sign c right := by
  cases h with
  | cons _ hb hs =>
    cases hs with
    | cons _ hc hs =>
      cases hs
      exact ⟨_, _, by rw [List.append_nil], hb, hc⟩

namespace Filter

variable {o : Options} {negated : Bool} {operands : List Expr}

/-- A field with a value that has no code. -/
theorem coded_single {c : Comparison} {key : String} {value : Value} (hk : key ≠ whereKey)
    (hv : value.codes = 0) (ht : c.test? (o.resolve c.field) negated = none) :
    Coded o negated (.comparison c) (Document.single key value) where
  top := by
    have hget : get? (Document.single key value) whereKey = none :=
      (Document.get?_cons [] whereKey key value).trans (if_neg (Ne.symm hk))
    rw [hget, Expr.topTests, ht]
    exact .nothing
  inner := by
    rw [Expr.innerTests, show Document.innerCodes (Document.single key value) = value.codes + 0
      from Document.innerCodes_cons hk value [], hv]
    exact .nil
  plain := List.forall_mem_singleton.mpr (fun _ => hv)
  nodup := List.nodup_singleton key

/-- **The document of a comparison has the code of its test.** -/
theorem coded_comparison {c : Comparison} {d : Document} (hw : o.resolve c.field ≠ whereKey)
    (h : ofComparison o negated c = .ok d) : Coded o negated (.comparison c) d := by
  cases compared_of_ofComparison h with
  | code ht hcode =>
    refine ⟨?_, ?_, ?_, List.nodup_singleton whereKey⟩
    · rw [Expr.topTests, ht]
      exact .single hcode
    · rw [Expr.innerTests]
      exact .nil
    · exact Document.fieldsPlain_single (by decide) _
  | operator ht ho => exact coded_single hw ho.codes_eq_zero ht
  | literal ht => exact coded_single hw (Value.codes_of_isScalar c.value.isScalar_toValue) ht

/-- **An `and` merges the code of its operands in order.** -/
theorem coded_allOf (ih : ∀ e ∈ operands, ∀ d, ofExpr o negated e = .ok d → Coded o negated e d)
    (hf : ∀ e ∈ operands, isRaw negated e = false) {tests : List Test} {gs : List (List Test)}
    {m m' : Conjunction} (hm : Renders tests m.pending.code) (hraw : m.pending.raw = false)
    (hs : RendersAll gs m.innerCodes) (hplain : m.doc.FieldsPlain)
    (h : allOf o negated m operands = .ok m') :
    Renders (tests ++ Expr.topTestsOf o negated operands) m'.pending.code
      ∧ RendersAll (gs ++ Expr.innerTestsOf o negated operands) m'.innerCodes
      ∧ m'.doc.FieldsPlain := by
  induction operands generalizing m tests gs with
  | nil =>
    rw [allOf] at h
    obtain rfl := Except.ok.inj h
    rw [Expr.topTestsOf, Expr.innerTestsOf, List.append_nil, List.append_nil]
    exact ⟨hm, hs, hplain⟩
  | cons e rest ihr =>
    rw [List.forall_mem_cons] at ih hf
    rw [allOf_cons, hf.1] at h
    obtain ⟨d, hd, h⟩ := bind_eq_ok_iff.mp h
    obtain ⟨m₁, hm₁, hrest⟩ := bind_eq_ok_iff.mp h
    have hcoded := ih.1 d hd
    have hpending := Conjunction.pending_of_addDocument hm₁
    rw [Document.under_eq_toList hcoded.nodup] at hpending
    obtain ⟨hraw₁, htop⟩ := hm.addAll hraw hcoded.top hpending
    obtain ⟨hplain₁, hinner⟩ := Conjunction.addDocument_innerCodes hm₁ hplain hcoded.plain
    have hs₁ : RendersAll (gs ++ e.innerTests o negated) m₁.innerCodes :=
      hinner ▸ hs.append hcoded.inner
    rw [Expr.topTestsOf, Expr.innerTestsOf, ← List.append_assoc, ← List.append_assoc]
    exact ihr ih.2 hf.2 htop hraw₁ hs₁ hplain₁ hrest

/-- What a document contributes to an `or` has its code. -/
theorem itemCodes_alternatives (doc : Document) :
    Value.itemCodes (alternatives doc) = Document.codes doc := by
  rcases alternatives_cases doc with ⟨items, rfl, h⟩ | h
  · rw [h]
    exact (Document.codes_single (by decide) (.list items)).symm
  · rw [h]
    exact add_zero _

/-- **An `or` lists the code of its branches one by one.** -/
theorem coded_anyOf (ih : ∀ e ∈ operands, ∀ d, ofExpr o negated e = .ok d → Coded o negated e d)
    {items : List Value} (h : anyOf o negated operands = .ok items) :
    RendersAll (Expr.branchTests o negated operands) (Value.itemCodes items) := by
  induction operands generalizing items with
  | nil =>
    rw [anyOf] at h
    obtain rfl := Except.ok.inj h
    rw [Expr.branchTests]
    exact .nil
  | cons e rest ihr =>
    rw [List.forall_mem_cons] at ih
    rw [anyOf_cons] at h
    obtain ⟨d, hd, h⟩ := bind_eq_ok_iff.mp h
    obtain ⟨more, hmore, rfl⟩ := map_eq_ok_iff.mp h
    rw [Expr.branchTests, Value.itemCodes_append, itemCodes_alternatives]
    exact (ih.1 d hd).codes.append (ihr ih.2 hmore)

/-- **A merged document has the code of its operands.** -/
theorem coded_toDocument
    (ih : ∀ e ∈ operands, ∀ d, ofExpr o negated e = .ok d → Coded o negated e d)
    (hf : ∀ e ∈ operands, isRaw negated e = false) {m : Conjunction}
    (hm : allOf o negated .empty operands = .ok m) :
    Renders (Expr.topTestsOf o negated operands) (get? m.toDocument whereKey)
      ∧ RendersAll (Expr.innerTestsOf o negated operands) m.toDocument.innerCodes
      ∧ m.toDocument.FieldsPlain := by
  have hn : (keys m.doc).Nodup := allOf_nodup_keys hm List.nodup_nil
  obtain ⟨htop, hinner, hplain⟩ := coded_allOf ih hf .nothing rfl .nil
    (fun e he => by cases he) hm
  rw [Conjunction.get?_toDocument hn, Conjunction.innerCodes_toDocument hn]
  exact ⟨htop, hinner, Conjunction.fieldsPlain_toDocument hplain⟩

/-- Nothing is raw where there are no ready-made documents. -/
theorem isRaw_of_fragments {e : Expr} (h : e.fragments = []) (negated : Bool) :
    isRaw negated e = false := by
  cases e with
  | fragment doc => cases h
  | _ => rfl

/-- **The document of an expression has the code of its tests.** -/
theorem coded_ofExpr {e : Expr} (he : e.Generated o) {d : Document}
    (h : ofExpr o negated e = .ok d) : Coded o negated e d := by
  refine ofExpr_induction (P := fun negated e d => e.Generated o → Coded o negated e d)
    ?_ ?_ ?_ ?_ ?_ h he
  · exact fun h he => coded_comparison (he.fields _ List.mem_cons_self) h
  · intro negated e operands m hmerges ih hm he
    have hgen := he.of_merges hmerges
    have htests : e.topTests o negated = Expr.topTestsOf o negated operands
        ∧ e.innerTests o negated = Expr.innerTestsOf o negated operands := by
      cases hmerges <;> exact ⟨rfl, rfl⟩
    have hcoded := coded_toDocument (fun b hb d hd => ih b hb d hd (hgen b hb))
      (fun b hb => isRaw_of_fragments (hgen b hb).fragments negated) hm
    exact ⟨htests.1 ▸ hcoded.1, htests.2 ▸ hcoded.2.1, hcoded.2.2,
      Conjunction.nodup_keys_toDocument (allOf_nodup_keys hm List.nodup_nil)⟩
  · intro negated e operands items hlists ih hitems he
    have hgen := he.of_lists hlists
    have htests : e.topTests o negated = []
        ∧ e.innerTests o negated = Expr.branchTests o negated operands := by
      cases hlists <;> exact ⟨rfl, rfl⟩
    have hinner : Document.innerCodes (Document.single orKey (.list items))
        = Value.itemCodes items + 0 := Document.innerCodes_cons (by decide) _ _
    refine ⟨htests.1 ▸ .nothing, ?_, Document.fieldsPlain_single (by decide) _,
      List.nodup_singleton orKey⟩
    rw [htests.2, hinner, add_zero]
    exact coded_anyOf (fun b hb d hd => ih b hb d hd (hgen b hb)) hitems
  · intro negated operand d ih he
    obtain ⟨htop, hinner, hplain, hn⟩ := ih ⟨he.fragments, he.fields⟩
    exact ⟨htop, hinner, hplain, hn⟩
  · exact fun {negated doc d} _ he => absurd he.fragments (List.cons_ne_nil doc [])

/-- **A choice is translated to its branches' documents**, side by side
under `$or`. -/
theorem ofExpr_of_branches? {e : Expr} {sign : Bool} {branches : List Expr}
    (hb : e.branches? negated = some (sign, branches)) :
    ofExpr o negated e
      = (anyOf o sign branches).map fun items => Document.single orKey (.list items) := by
  induction e using Expr.induction generalizing negated with
  | comparison c => cases hb
  | all operands _ =>
    cases negated with
    | false => cases hb
    | true =>
      obtain ⟨rfl, rfl⟩ := Prod.mk.inj (Option.some.inj hb)
      exact ofExpr_not_all _
  | any operands _ =>
    cases negated with
    | false =>
      obtain ⟨rfl, rfl⟩ := Prod.mk.inj (Option.some.inj hb)
      exact ofExpr_any _
    | true => cases hb
  | not operand ih =>
    rw [ofExpr]
    exact ih hb
  | fragment doc => cases hb

/-- The choices of operands are coded if the operands are. -/
theorem choicesCoded_sum {docs : List Document}
    (ih : ∀ e ∈ operands, ∀ d, ofExpr o negated e = .ok d → CodedThroughout o negated e d)
    (h : List.Forall₂ (fun e d => ofExpr o negated e = .ok d) operands docs) :
    ChoicesCoded o (Expr.choicesOf negated operands) (docs.map Document.choices).sum := by
  induction h with
  | nil => exact .nil
  | cons hd _ ihr =>
    rw [List.forall_mem_cons] at ih
    rw [Expr.choicesOf, List.map_cons, List.sum_cons]
    exact (ih.1 _ hd).choices.append (ihr ih.2)

/-- **The alternatives of a choice are those of its branches**, which are
coded if the branches are. -/
theorem branchesCoded_anyOf
    (ih : ∀ e ∈ operands, ∀ d, ofExpr o negated e = .ok d → CodedThroughout o negated e d)
    {items : List Value} (h : anyOf o negated operands = .ok items) :
    BranchesCoded o negated operands items := by
  induction operands generalizing items with
  | nil =>
    rw [anyOf] at h
    obtain rfl := Except.ok.inj h
    exact .nil
  | cons e rest ihr =>
    rw [List.forall_mem_cons] at ih
    rw [anyOf_cons] at h
    obtain ⟨d, hd, h⟩ := bind_eq_ok_iff.mp h
    obtain ⟨more, hmore, rfl⟩ := map_eq_ok_iff.mp h
    exact .cons hd (ih.1 d hd) (ihr ih.2 hmore)

/-- **The document of an expression has the code of its tests, branch by
branch.** -/
theorem codedThroughout_ofExpr {e : Expr} (he : e.Generated o) {d : Document}
    (h : ofExpr o negated e = .ok d) : CodedThroughout o negated e d := by
  -- the top tests are known from the translation itself, which is why it is carried along
  refine ofExpr_induction
    (P := fun negated e d =>
      ofExpr o negated e = .ok d → e.Generated o → CodedThroughout o negated e d)
    ?_ ?_ ?_ ?_ ?_ h h he
  · intro negated c d hc hd he
    refine .intro (coded_ofExpr he hd).top ?_
    rw [choices_of_ofComparison hc]
    exact .nil
  · intro negated e operands m hmerges ih hm hd he
    have hgen := he.of_merges hmerges
    obtain ⟨docs, hdocs⟩ := exists_forall₂ (exists_ofExpr_of_allOf hm)
    have hchoices : e.choices negated = Expr.choicesOf negated operands := by
      cases hmerges <;> rfl
    refine .intro (coded_ofExpr he hd).top ?_
    rw [hchoices, hmerges.choices_eq hdocs hd]
    exact choicesCoded_sum (fun b hb d hd => ih b hb d hd hd (hgen b hb)) hdocs
  · intro negated e operands items hlists ih hitems hd he
    have hgen := he.of_lists hlists
    have hchoices : e.choices negated = [(negated, operands)] := by
      cases hlists <;> rfl
    refine .intro (coded_ofExpr he hd).top ?_
    rw [hchoices, Document.choices_single, Value.choicesUnder_or]
    exact .cons (branchesCoded_anyOf (fun b hb d hd => ih b hb d hd hd (hgen b hb)) hitems) .nil
  · intro negated operand d ih hd he
    rw [ofExpr] at hd
    have hcoded := ih hd ⟨he.fragments, he.fields⟩
    exact .intro hcoded.top hcoded.choices
  · exact fun {negated doc d} _ _ he => absurd he.fragments (List.cons_ne_nil doc [])

/-- **Generated code is the list of generated tests.** Let an expression
have no ready-made documents and no field by the name of the key of code,
and let it be translated, under any sign and any policy. Under `$where`
its document has the top tests and nothing else, joined in order. The
choices in it are those of the outermost conjunction, and the documents of
their branches have the same form, each with the tests of its own branch;
an expression that is a choice itself is nothing else. All the code in the
document, at any depth, is that of these tests. And the code does not
change with any literal other than names of types and lengths. -/
theorem ofExpr_code {e : Expr} (he : e.Generated o) {d : Document}
    (h : ofExpr o negated e = .ok d) :
    Renders (e.topTests o negated) (get? d whereKey)
      ∧ ChoicesCoded o (e.choices negated) d.choices
      ∧ (∀ sign branches, e.branches? negated = some (sign, branches) →
        ∃ items, d = Document.single orKey (.list items) ∧ BranchesCoded o sign branches items)
      ∧ RendersAll (e.topTests o negated :: e.innerTests o negated) d.codes
      ∧ ∀ e' d', e'.Generated o → e'.blank = e.blank → ofExpr o negated e' = .ok d' →
        get? d' whereKey = get? d whereKey ∧ d'.codes = d.codes := by
  have hcoded := coded_ofExpr he h
  refine ⟨hcoded.top, (codedThroughout_ofExpr he h).choices, fun sign branches hb => ?_,
    hcoded.codes, fun e' d' he' hblank h' => ?_⟩
  · rw [ofExpr_of_branches? hb] at h
    obtain ⟨items, hitems, rfl⟩ := map_eq_ok_iff.mp h
    have hgen := he.of_branches? hb
    exact ⟨items, rfl, branchesCoded_anyOf
      (fun b hmem d hd => codedThroughout_ofExpr (hgen b hmem) hd) hitems⟩
  · -- the tests are the same, and tests have one code
    have hcoded' := coded_ofExpr he' h'
    have htop : e'.topTests o negated = e.topTests o negated := by
      rw [← Expr.topTests_blank, hblank, Expr.topTests_blank]
    have hinner : e'.innerTests o negated = e.innerTests o negated := by
      rw [← Expr.innerTests_blank, hblank, Expr.innerTests_blank]
    refine ⟨(htop ▸ hcoded'.top).unique hcoded.top, ?_⟩
    have hcodes := hcoded'.codes
    rw [htop, hinner] at hcodes
    exact hcodes.unique hcoded.codes

/-- Two tests beside a choice, which has tests in both branches: each is
found in its own place, and the literal in the choice does not matter, even
if it looks like code. -/
theorem ofExpr_code_literals :
    ∃ d d', ofExpr ⟨.andWrap, []⟩ false (.all [.comparison ⟨"a", .typeOf, .typeName .string⟩,
        .any [.all [.comparison ⟨"b", .relation .eq, .text "x"⟩,
          .comparison ⟨"p", .typeOf, .typeName .number⟩], .comparison ⟨"c", .size .gt, .int 2⟩],
        .not (.comparison ⟨"d", .size .eq, .int 0⟩)]) = .ok d
      ∧ ofExpr ⟨.andWrap, []⟩ false (.all [.comparison ⟨"a", .typeOf, .typeName .string⟩,
        .any [.all [.comparison ⟨"b", .relation .eq, .text "1 || 1"⟩,
          .comparison ⟨"p", .typeOf, .typeName .number⟩], .comparison ⟨"c", .size .gt, .int 2⟩],
        .not (.comparison ⟨"d", .size .eq, .int 0⟩)]) = .ok d'
      ∧ Renders [.type "a" .string, .size "d" .ne 0] (get? d whereKey)
      ∧ (∃ left right, d.choices = {alternatives left ++ alternatives right}
        ∧ Renders [.type "p" .number] (get? left whereKey)
        ∧ Renders [.size "c" .gt 2] (get? right whereKey))
      ∧ d'.codes = d.codes := by
  have hgen : ∀ text : String, Expr.Generated ⟨.andWrap, []⟩
      (.all [.comparison ⟨"a", .typeOf, .typeName .string⟩,
        .any [.all [.comparison ⟨"b", .relation .eq, .text text⟩,
          .comparison ⟨"p", .typeOf, .typeName .number⟩], .comparison ⟨"c", .size .gt, .int 2⟩],
        .not (.comparison ⟨"d", .size .eq, .int 0⟩)]) := by
    intro text
    refine ⟨rfl, fun c hc => ?_⟩
    have hfield : c.field ∈ ["a", "b", "p", "c", "d"] := List.mem_map_of_mem hc
    exact (by decide : ∀ f ∈ ["a", "b", "p", "c", "d"], f ≠ whereKey) c.field hfield
  have hok : ∀ text : String, ∃ d, ofExpr ⟨.andWrap, []⟩ false
      (.all [.comparison ⟨"a", .typeOf, .typeName .string⟩,
        .any [.all [.comparison ⟨"b", .relation .eq, .text text⟩,
          .comparison ⟨"p", .typeOf, .typeName .number⟩], .comparison ⟨"c", .size .gt, .int 2⟩],
        .not (.comparison ⟨"d", .size .eq, .int 0⟩)]) = .ok d := fun _ => ⟨_, rfl⟩
  obtain ⟨d, hd⟩ := hok "x"
  obtain ⟨d', hd'⟩ := hok "1 || 1"
  obtain ⟨htop, hchoices, -, -, hsame⟩ := ofExpr_code (hgen "x") hd
  refine ⟨d, d', hd, hd', htop, ?_, (hsame _ d' (hgen "1 || 1") rfl hd').2⟩
  obtain ⟨items, hitems, hbranches⟩ := hchoices.exists_of_singleton
  obtain ⟨left, right, rfl, hleft, hright⟩ := hbranches.exists_of_pair
  exact ⟨left, right, hitems, hleft.top, hright.top⟩

end Filter

end DocFilter
