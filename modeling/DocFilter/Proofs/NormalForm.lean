import DocFilter.Proofs.Parsing
import DocFilter.Proofs.Translation

/-!
# The normal form of expressions

An expression is in **normal form** when no group stands directly in a
group of its own kind and no group has exactly one operand
(`Expr.IsNormal`). The two kinds of groups behave alike, so that what is
said of one is said of both: a `Connective` has its groups, the parts that
an expression contributes to such a group, and the group that is built
from parts. `simplify` builds normal forms (`isNormal_simplify`) and keeps
whatever is collected leaf by leaf (`Connective.collect_join`).

A query that is written as a text says no more than its comparisons do.
The tree of a derivation has an operand in every group, holds no
ready-made document, and has the comparisons of the derivation in their
order (`Grammar.Writes`); what is parsed is its normal form
(`Grammar.parse_eq_ok_iff_derives`).
-/

namespace DocFilter

namespace Expr

/-! ## Groups of either kind -/

/-- **What joins the operands of a group.** -/
inductive Connective where
  /-- All operands hold. -/
  | and
  /-- Some operand holds. -/
  | or

namespace Connective

/-- The group of operands. -/
def group : Connective → List Expr → Expr
  | .and => .all
  | .or => .any

/-- What an expression contributes to a group. -/
def parts : Connective → Expr → List Expr
  | .and => conjuncts
  | .or => disjuncts

/-- The group of expressions in normal form, in normal form. -/
def join : Connective → List Expr → Expr
  | .and => conj
  | .or => disj

/-- An expression contributes its operands, if it is a group of that kind,
and otherwise itself. -/
theorem parts_cases (k : Connective) (e : Expr) :
    (∃ operands, e = k.group operands ∧ k.parts e = operands)
      ∨ (∀ operands, e ≠ k.group operands) ∧ k.parts e = [e] := by
  cases k with
  | and =>
    cases e with
    | all operands => exact .inl ⟨operands, rfl, rfl⟩
    | _ => exact .inr ⟨fun _ h => (by cases h), rfl⟩
  | or =>
    cases e with
    | any operands => exact .inl ⟨operands, rfl, rfl⟩
    | _ => exact .inr ⟨fun _ h => (by cases h), rfl⟩

/-- **A single part is the result, and several become a group.** -/
theorem join_cases (k : Connective) (es : List Expr) :
    (∃ e, es.flatMap k.parts = [e] ∧ k.join es = e)
      ∨ (es.flatMap k.parts).length ≠ 1 ∧ k.join es = k.group (es.flatMap k.parts) := by
  have hmany : ∀ {flat : List Expr}, (∀ e, flat = [e] → False) → flat.length ≠ 1 := by
    intro flat h hlen
    obtain ⟨e, he⟩ := List.length_eq_one_iff.mp hlen
    exact h e he
  cases k with
  | and =>
    dsimp only [parts, join, group]
    unfold conj
    split
    · exact .inl ⟨_, by assumption, rfl⟩
    · exact .inr ⟨hmany (by assumption), rfl⟩
  | or =>
    dsimp only [parts, join, group]
    unfold disj
    split
    · exact .inl ⟨_, by assumption, rfl⟩
    · exact .inr ⟨hmany (by assumption), rfl⟩

/-- A group without groups of its kind is joined from its operands. -/
theorem join_eq_group {k : Connective} {operands : List Expr}
    (hflat : ∀ inner, k.group inner ∉ operands) (hone : operands.length ≠ 1) :
    k.join operands = k.group operands := by
  have hparts : operands.flatMap k.parts = operands := by
    have hself : ∀ e ∈ operands, k.parts e = [e] := by
      intro e he
      rcases k.parts_cases e with ⟨inner, rfl, -⟩ | ⟨-, hparts⟩
      · exact absurd he (hflat inner)
      · exact hparts
    rw [List.flatMap_congr hself, List.flatMap_singleton']
  rcases k.join_cases operands with ⟨e, hsingle, -⟩ | ⟨-, hjoin⟩
  · rw [hparts] at hsingle
    exact absurd (congrArg List.length hsingle) hone
  · rw [hjoin, hparts]

/-- What is collected operand by operand is the same of an expression and
of its parts. -/
theorem collect_parts {β : Type} {f : Expr → List β} (k : Connective)
    (hf : ∀ operands, f (k.group operands) = operands.flatMap f) (e : Expr) :
    (k.parts e).flatMap f = f e := by
  rcases k.parts_cases e with ⟨operands, rfl, hp⟩ | ⟨-, hp⟩
  · rw [hp, hf]
  · rw [hp, List.flatMap_singleton]

/-- **What is collected operand by operand** is the same before and after
groups are merged. -/
theorem collect_join {β : Type} {f : Expr → List β} (k : Connective)
    (hf : ∀ operands, f (k.group operands) = operands.flatMap f) (es : List Expr) :
    f (k.join es) = es.flatMap f := by
  have hflat : (es.flatMap k.parts).flatMap f = es.flatMap f := by
    rw [List.flatMap_assoc]
    exact congrArg (es.flatMap ·) (funext (k.collect_parts hf))
  rcases k.join_cases es with ⟨e, hone, hjoin⟩ | ⟨-, hjoin⟩
  · rw [hjoin, ← hflat, hone, List.flatMap_singleton]
  · rw [hjoin, hf, hflat]

end Connective

/-- **A single operand is the `and` of it**, and any other number of them
make a group. -/
theorem conj_cases (es : List Expr) :
    (∃ e, es.flatMap conjuncts = [e] ∧ conj es = e)
      ∨ conj es = .all (es.flatMap conjuncts) :=
  (Connective.join_cases .and es).imp_right And.right

/-! ## Normal forms -/

/-- **An expression in normal form.** -/
inductive IsNormal : Expr → Prop where
  /-- A comparison. -/
  | comparison (c : Comparison) : IsNormal (.comparison c)
  /-- An `and` with no `and` among its operands. -/
  | all {operands : List Expr} (hn : ∀ e ∈ operands, IsNormal e)
    (hflat : ∀ inner, .all inner ∉ operands) (hone : operands.length ≠ 1) :
    IsNormal (.all operands)
  /-- An `or` with no `or` among its operands. -/
  | any {operands : List Expr} (hn : ∀ e ∈ operands, IsNormal e)
    (hflat : ∀ inner, .any inner ∉ operands) (hone : operands.length ≠ 1) :
    IsNormal (.any operands)
  /-- A negation. -/
  | not {operand : Expr} (h : IsNormal operand) : IsNormal (.not operand)
  /-- A ready-made document. -/
  | fragment (doc : Document) : IsNormal (.fragment doc)

/-- **An expression in which every group has an operand.** -/
inductive HasOperands : Expr → Prop where
  /-- A comparison. -/
  | comparison (c : Comparison) : HasOperands (.comparison c)
  /-- An `and` of something. -/
  | all {operands : List Expr} (h : ∀ e ∈ operands, HasOperands e) (hne : operands ≠ []) :
    HasOperands (.all operands)
  /-- An `or` of something. -/
  | any {operands : List Expr} (h : ∀ e ∈ operands, HasOperands e) (hne : operands ≠ []) :
    HasOperands (.any operands)
  /-- A negation. -/
  | not {operand : Expr} (h : HasOperands operand) : HasOperands (.not operand)
  /-- A ready-made document. -/
  | fragment (doc : Document) : HasOperands (.fragment doc)

namespace Connective

variable {k : Connective} {es operands : List Expr}

theorem isNormal_group_iff : (k.group operands).IsNormal
    ↔ (∀ e ∈ operands, e.IsNormal) ∧ (∀ inner, k.group inner ∉ operands)
      ∧ operands.length ≠ 1 := by
  cases k with
  | and =>
    refine ⟨fun h => ?_, fun ⟨hn, hflat, hone⟩ => .all hn hflat hone⟩
    cases h with
    | all hn hflat hone => exact ⟨hn, hflat, hone⟩
  | or =>
    refine ⟨fun h => ?_, fun ⟨hn, hflat, hone⟩ => .any hn hflat hone⟩
    cases h with
    | any hn hflat hone => exact ⟨hn, hflat, hone⟩

theorem hasOperands_group_iff : (k.group operands).HasOperands
    ↔ (∀ e ∈ operands, e.HasOperands) ∧ operands ≠ [] := by
  cases k with
  | and =>
    refine ⟨fun h => ?_, fun ⟨ho, hne⟩ => .all ho hne⟩
    cases h with
    | all ho hne => exact ⟨ho, hne⟩
  | or =>
    refine ⟨fun h => ?_, fun ⟨ho, hne⟩ => .any ho hne⟩
    cases h with
    | any ho hne => exact ⟨ho, hne⟩

/-- **A group of normal forms is built in normal form.** -/
theorem isNormal_join (h : ∀ e ∈ es, e.IsNormal) : (k.join es).IsNormal := by
  -- a part is in normal form, and is not itself such a group
  have hpart : ∀ p ∈ es.flatMap k.parts, p.IsNormal ∧ ∀ inner, p ≠ k.group inner := by
    intro p hp
    obtain ⟨e, he, hp⟩ := List.mem_flatMap.mp hp
    rcases k.parts_cases e with ⟨operands, rfl, hparts⟩ | ⟨hno, hparts⟩
    · rw [hparts] at hp
      obtain ⟨hn, hflat, -⟩ := isNormal_group_iff.mp (h _ he)
      exact ⟨hn p hp, fun inner hinner => hflat inner (hinner ▸ hp)⟩
    · rw [hparts] at hp
      obtain rfl := List.mem_singleton.mp hp
      exact ⟨h p he, hno⟩
  rcases k.join_cases es with ⟨e, hone, hjoin⟩ | ⟨hone, hjoin⟩
  · rw [hjoin]
    exact (hpart e (by rw [hone]; exact List.mem_singleton_self e)).1
  · rw [hjoin, isNormal_group_iff]
    exact ⟨fun p hp => (hpart p hp).1, fun inner hmem => (hpart _ hmem).2 inner rfl, hone⟩

/-- **A group of something is a group of something.** -/
theorem hasOperands_join (h : ∀ e ∈ es, e.HasOperands) (hne : es ≠ []) :
    (k.join es).HasOperands := by
  have hpart : ∀ e ∈ es, (∀ p ∈ k.parts e, p.HasOperands) ∧ k.parts e ≠ [] := by
    intro e he
    rcases k.parts_cases e with ⟨operands, rfl, hparts⟩ | ⟨-, hparts⟩
    · rw [hparts]
      exact hasOperands_group_iff.mp (h _ he)
    · rw [hparts]
      refine ⟨fun p hp => ?_, List.cons_ne_nil e []⟩
      obtain rfl := List.mem_singleton.mp hp
      exact h p he
  have hparts : ∀ p ∈ es.flatMap k.parts, p.HasOperands := by
    intro p hp
    obtain ⟨e, he, hp⟩ := List.mem_flatMap.mp hp
    exact (hpart e he).1 p hp
  rcases k.join_cases es with ⟨e, hone, hjoin⟩ | ⟨-, hjoin⟩
  · rw [hjoin]
    exact hparts e (by rw [hone]; exact List.mem_singleton_self e)
  · rw [hjoin, hasOperands_group_iff]
    refine ⟨hparts, fun hnil => ?_⟩
    obtain ⟨e, he⟩ := List.exists_mem_of_ne_nil es hne
    exact (hpart e he).2 (List.flatMap_eq_nil_iff.mp hnil e he)

/-- A normal form by itself is the group of itself. -/
theorem join_singleton {e : Expr} (h : e.IsNormal) : k.join [e] = e := by
  have hflat : [e].flatMap k.parts = k.parts e := List.flatMap_singleton k.parts e
  rcases k.parts_cases e with ⟨operands, rfl, hparts⟩ | ⟨-, hparts⟩
  · rcases k.join_cases [k.group operands] with ⟨e', hone, -⟩ | ⟨-, hjoin⟩
    · rw [hflat, hparts] at hone
      exact absurd (congrArg List.length hone) (isNormal_group_iff.mp h).2.2
    · rw [hjoin, hflat, hparts]
  · rcases k.join_cases [e] with ⟨e', hone, hjoin⟩ | ⟨hone, -⟩
    · rw [hflat, hparts] at hone
      rw [hjoin, (List.cons.inj hone).1]
    · rw [hflat, hparts] at hone
      exact absurd rfl hone

end Connective

/-! ## What simplifying keeps -/

/-- What holds of every operand once it is simplified holds of the
simplified operands. -/
theorem forall_mem_simplifyAll {P : Expr → Prop} {operands : List Expr}
    (h : ∀ e ∈ operands, P e.simplify) : ∀ e ∈ simplifyAll operands, P e := by
  rw [simplifyAll_eq_map]
  exact List.forall_mem_map.mpr h

/-- **Simplifying gives a normal form.** -/
theorem isNormal_simplify (e : Expr) : e.simplify.IsNormal := by
  induction e using Expr.induction with
  | comparison c => exact .comparison c
  | all operands ih => exact Connective.isNormal_join (k := .and) (forall_mem_simplifyAll ih)
  | any operands ih => exact Connective.isNormal_join (k := .or) (forall_mem_simplifyAll ih)
  | not operand ih => exact .not ih
  | fragment doc => exact .fragment doc

/-- **Simplifying empties no group.** -/
theorem HasOperands.simplify {e : Expr} (h : e.HasOperands) : e.simplify.HasOperands := by
  have hne : ∀ operands : List Expr, operands ≠ [] → simplifyAll operands ≠ [] := by
    intro operands hne
    rw [simplifyAll_eq_map]
    exact fun hnil => hne (List.map_eq_nil_iff.mp hnil)
  induction h with
  | comparison c => exact .comparison c
  | all _ hnil ih =>
    exact Connective.hasOperands_join (k := .and) (forall_mem_simplifyAll ih) (hne _ hnil)
  | any _ hnil ih =>
    exact Connective.hasOperands_join (k := .or) (forall_mem_simplifyAll ih) (hne _ hnil)
  | not _ ih => exact .not ih
  | fragment doc => exact .fragment doc

/-- **Simplifying keeps what is collected leaf by leaf**, under whatever
number of negations. -/
theorem collect_simplify {β : Type} {f : Expr → List β}
    (hgroup : ∀ (k : Connective) operands, f (k.group operands) = operands.flatMap f)
    (hnot : ∀ a b, f a = f b → f (.not a) = f (.not b)) (e : Expr) : f e.simplify = f e := by
  have hjoin : ∀ (k : Connective) (operands : List Expr), (∀ e ∈ operands, f e.simplify = f e) →
      f (k.join (simplifyAll operands)) = f (k.group operands) := by
    intro k operands ih
    rw [k.collect_join (hgroup k), hgroup, simplifyAll_eq_map, List.flatMap_map]
    exact List.flatMap_congr ih
  induction e using Expr.induction with
  | comparison c => rfl
  | all operands ih => exact hjoin .and operands ih
  | any operands ih => exact hjoin .or operands ih
  | not operand ih => exact hnot _ _ ih
  | fragment doc => rfl

theorem comparisons_group (k : Connective) (operands : List Expr) :
    (k.group operands).comparisons = operands.flatMap comparisons := by
  cases k <;> exact comparisonsOf_eq_flatMap operands

theorem fragments_group (k : Connective) (operands : List Expr) :
    (k.group operands).fragments = operands.flatMap fragments := by
  cases k <;> exact fragmentsOf_eq_flatMap operands

@[simp] theorem comparisons_simplify (e : Expr) : e.simplify.comparisons = e.comparisons :=
  collect_simplify comparisons_group (fun _ _ h => h) e

@[simp] theorem fragments_simplify (e : Expr) : e.simplify.fragments = e.fragments :=
  collect_simplify fragments_group (fun _ _ h => h) e

end Expr

/-! ## The trees of queries -/

namespace Grammar

/-- **An expression that says what comparisons say**: its leaves are these,
in order, and every group has an operand. -/
structure Writes (e : Expr) (tests : List Test) : Prop where
  /-- Every group has an operand. -/
  operands : e.HasOperands
  /-- No leaf is a ready-made document. -/
  fragments : e.fragments = []
  /-- The comparisons, from left to right. -/
  comparisons : e.comparisons = tests.map Test.comparison

/-- Operands that say what comparisons say. -/
structure WritesAll (es : List Expr) (tests : List Test) : Prop where
  /-- There is an operand. -/
  ne_nil : es ≠ []
  /-- Every group has an operand. -/
  operands : ∀ e ∈ es, e.HasOperands
  /-- No leaf is a ready-made document. -/
  fragments : es.flatMap Expr.fragments = []
  /-- The comparisons, from left to right. -/
  comparisons : es.flatMap Expr.comparisons = tests.map Test.comparison

theorem Writes.singleton {e : Expr} {tests : List Test} (h : Writes e tests) :
    WritesAll [e] tests where
  ne_nil := List.cons_ne_nil e []
  operands := List.forall_mem_singleton.mpr h.operands
  fragments := by rw [List.flatMap_singleton, h.fragments]
  comparisons := by rw [List.flatMap_singleton, h.comparisons]

theorem Writes.cons {e : Expr} {es : List Expr} {tests more : List Test} (h : Writes e tests)
    (hs : WritesAll es more) : WritesAll (e :: es) (tests ++ more) where
  ne_nil := List.cons_ne_nil e es
  operands := List.forall_mem_cons.mpr ⟨h.operands, hs.operands⟩
  fragments := by rw [List.flatMap_cons, h.fragments, hs.fragments, List.nil_append]
  comparisons := by rw [List.flatMap_cons, h.comparisons, hs.comparisons, List.map_append]

theorem WritesAll.group {es : List Expr} {tests : List Test} (h : WritesAll es tests)
    (k : Expr.Connective) : Writes (k.group es) tests where
  operands := Expr.Connective.hasOperands_group_iff.mpr ⟨h.operands, h.ne_nil⟩
  fragments := by rw [Expr.fragments_group, h.fragments]
  comparisons := by rw [Expr.comparisons_group, h.comparisons]

theorem Writes.simplify {e : Expr} {tests : List Test} (h : Writes e tests) :
    Writes e.simplify tests where
  operands := h.operands.simplify
  fragments := by rw [Expr.fragments_simplify, h.fragments]
  comparisons := by rw [Expr.comparisons_simplify, h.comparisons]

mutual

/-- The branches of a query say what its comparisons say. -/
theorem Query.writesAll_branches (q : Query) : WritesAll q.branches q.tests := by
  cases q with
  | last c => exact (c.writesAll_operands.group .and).singleton
  | or c rest => exact (c.writesAll_operands.group .and).cons rest.writesAll_branches

/-- So do the operands of a conjunct. -/
theorem Conjunct.writesAll_operands (c : Conjunct) : WritesAll c.operands c.tests := by
  cases c with
  | last u => exact u.writes_tree.singleton
  | and u rest => exact u.writes_tree.cons rest.writesAll_operands

/-- So does the tree of a unary. -/
theorem Unary.writes_tree (u : Unary) : Writes u.tree u.tests := by
  cases u with
  | not u =>
    obtain ⟨hoperands, hfragments, hcomparisons⟩ := u.writes_tree
    exact ⟨.not hoperands, hfragments, hcomparisons⟩
  | primary p => exact p.writes_tree

/-- So does the tree of a primary. -/
theorem Primary.writes_tree (p : Primary) : Writes p.tree p.tests := by
  cases p with
  | parens q => exact q.writesAll_branches.group .or
  | test t => exact ⟨.comparison _, rfl, rfl⟩

end

/-- **The tree of a query says what its comparisons say.** -/
theorem Query.writes_tree (q : Query) : Writes q.tree q.tests :=
  q.writesAll_branches.group .or

/-- **The tokens of a text are those of a query.** -/
def Derives (s : String) (q : Query) : Prop :=
  ∃ ts, tokenize s = .ok ts ∧ q.tokens ++ [.eof] = ts.map Placed.token

/-- **What is parsed is the tree of an admissible query**, in normal form,
and each such tree is parsed. -/
theorem parse_eq_ok_iff_derives {s : String} {e : Expr} :
    Expr.parse s = .ok e ↔ ∃ q, Derives s q ∧ q.Admissible ∧ e = q.tree.simplify := by
  cases hts : tokenize s with
  | error err =>
    unfold Expr.parse
    rw [hts]
    refine ⟨fun h => (by cases h), ?_⟩
    rintro ⟨q, ⟨ts, hts', -⟩, -⟩
    exact absurd (hts.symm.trans hts') (by simp)
  | ok ts =>
    obtain ⟨body, hbody, hparse⟩ := Parser.parse_eq_ok_iff_steps hts
    rw [hparse e, steps_initial_iff]
    refine exists_congr (fun q => and_congr_left' ?_)
    refine ⟨fun h => ⟨ts, hts, by rw [hbody, h]⟩, ?_⟩
    rintro ⟨ts', hts', htokens⟩
    obtain rfl := Except.ok.inj (hts.symm.trans hts')
    exact List.append_cancel_right (htokens.trans hbody)

end Grammar

/-- What is parsed is in normal form. -/
theorem Expr.isNormal_of_parse {s : String} {e : Expr} (h : Expr.parse s = .ok e) :
    e.IsNormal := by
  obtain ⟨q, -, -, rfl⟩ := Grammar.parse_eq_ok_iff_derives.mp h
  exact isNormal_simplify q.tree

/-- **What is parsed says what the comparisons of a query say.** -/
theorem Expr.exists_writes_of_parse {s : String} {e : Expr} (h : Expr.parse s = .ok e) :
    ∃ q, Grammar.Derives s q ∧ q.Admissible ∧ Grammar.Writes e q.tests := by
  obtain ⟨q, hd, ha, rfl⟩ := Grammar.parse_eq_ok_iff_derives.mp h
  exact ⟨q, hd, ha, q.writes_tree.simplify⟩

end DocFilter
