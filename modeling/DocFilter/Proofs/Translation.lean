import DocFilter.Filter.Basic
import DocFilter.Proofs.Merging

/-!
# Following a translation through an expression

A group holds a list of expressions, so the induction that goes with
`Expr` is over expressions whose operands are *all* known already
(`Expr.induction`). What a group does with its operands is one step per
operand: `allOf` translates an operand and merges its document,
`anyOf` translates it and lists what it contributes. The lemmas here open
these steps once, for outcomes that are a document.

`Expr.comparisons` and `Expr.fragments` are the leaves, which is where a
condition on an expression speaks of its content.
-/

namespace DocFilter

/-! ## Induction on expressions -/

namespace Expr

/-- **Induction on expressions**, with the hypothesis for every operand of
a group. -/
@[elab_as_elim] theorem induction {P : Expr → Prop} (comparison : ∀ c, P (.comparison c))
    (all : ∀ operands, (∀ e ∈ operands, P e) → P (.all operands))
    (any : ∀ operands, (∀ e ∈ operands, P e) → P (.any operands))
    (not : ∀ operand, P operand → P (.not operand))
    (fragment : ∀ doc, P (.fragment doc)) (e : Expr) : P e := by
  refine @Expr.rec P (fun operands => ∀ e ∈ operands, P e) comparison all any not fragment
    ?_ ?_ e
  · intro e he
    cases he
  · intro e rest he hrest e' he'
    rcases List.mem_cons.mp he' with rfl | hmem
    · exact he
    · exact hrest e' hmem

/-! ## Leaves -/

mutual

/-- The comparisons of an expression, from left to right. -/
def comparisons : Expr → List Comparison
  | .comparison c => [c]
  | .all operands => comparisonsOf operands
  | .any operands => comparisonsOf operands
  | .not operand => comparisons operand
  | .fragment _ => []

/-- The comparisons of operands, from left to right. -/
def comparisonsOf : List Expr → List Comparison
  | [] => []
  | e :: rest => comparisons e ++ comparisonsOf rest

end

mutual

/-- The ready-made documents of an expression, from left to right. -/
def fragments : Expr → List Document
  | .comparison _ => []
  | .all operands => fragmentsOf operands
  | .any operands => fragmentsOf operands
  | .not operand => fragments operand
  | .fragment doc => [doc]

/-- The ready-made documents of operands, from left to right. -/
def fragmentsOf : List Expr → List Document
  | [] => []
  | e :: rest => fragments e ++ fragmentsOf rest

end

/-- What operands have is what each of them has. -/
@[simp] theorem comparisonsOf_eq_flatMap (operands : List Expr) :
    comparisonsOf operands = operands.flatMap comparisons := by
  induction operands with
  | nil => rfl
  | cons e rest ih => rw [comparisonsOf, ih, List.flatMap_cons]

@[simp] theorem fragmentsOf_eq_flatMap (operands : List Expr) :
    fragmentsOf operands = operands.flatMap fragments := by
  induction operands with
  | nil => rfl
  | cons e rest ih => rw [fragmentsOf, ih, List.flatMap_cons]

/-- The leaves of an operand are leaves of the group. -/
theorem mem_comparisonsOf {operands : List Expr} {e : Expr} {c : Comparison} (he : e ∈ operands)
    (h : c ∈ e.comparisons) : c ∈ comparisonsOf operands := by
  rw [comparisonsOf_eq_flatMap]
  exact List.mem_flatMap.mpr ⟨e, he, h⟩

theorem mem_fragmentsOf {operands : List Expr} {e : Expr} {doc : Document} (he : e ∈ operands)
    (h : doc ∈ e.fragments) : doc ∈ fragmentsOf operands := by
  rw [fragmentsOf_eq_flatMap]
  exact List.mem_flatMap.mpr ⟨e, he, h⟩

end Expr

namespace Filter

variable {o : Options} {negated : Bool} {m : Conjunction}

/-! ## Groups, operand by operand -/

/-- The four groups: an `and` and the negation of an `or` merge documents,
an `or` and the negation of an `and` list alternatives. -/
theorem ofExpr_all (operands : List Expr) :
    ofExpr o false (.all operands)
      = (allOf o false .empty operands).map Conjunction.toDocument := by
  rw [ofExpr]
  rfl

theorem ofExpr_not_any (operands : List Expr) :
    ofExpr o true (.any operands) = (allOf o true .empty operands).map Conjunction.toDocument := by
  rw [ofExpr]
  rfl

theorem ofExpr_any (operands : List Expr) :
    ofExpr o false (.any operands)
      = (anyOf o false operands).map fun items => Document.single orKey (.list items) := by
  rw [ofExpr]
  rfl

theorem ofExpr_not_all (operands : List Expr) :
    ofExpr o true (.all operands)
      = (anyOf o true operands).map fun items => Document.single orKey (.list items) := by
  rw [ofExpr]
  rfl

/-- **An `and` takes its operands one by one**: each is translated and
merged into what is there. -/
theorem allOf_cons (e : Expr) (rest : List Expr) :
    allOf o negated m (e :: rest) = (ofExpr o negated e).bind fun doc =>
      (m.addDocument o.collision (isRaw negated e) doc).bind fun m' => allOf o negated m' rest := by
  rw [allOf]
  cases ofExpr o negated e with
  | error err => rfl
  | ok doc =>
    dsimp only [Except.bind]
    cases m.addDocument o.collision (isRaw negated e) doc with
    | error err => rfl
    | ok m' => rfl

/-- Operands are merged from left to right. -/
theorem allOf_append (before after : List Expr) (m : Conjunction) :
    allOf o negated m (before ++ after)
      = (allOf o negated m before).bind fun m' => allOf o negated m' after := by
  induction before generalizing m with
  | nil =>
    rw [List.nil_append, allOf]
    rfl
  | cons e rest ih =>
    rw [List.cons_append, allOf_cons, allOf_cons]
    cases ofExpr o negated e with
    | error err => rfl
    | ok doc =>
      show (m.addDocument o.collision (isRaw negated e) doc).bind _
        = ((m.addDocument o.collision (isRaw negated e) doc).bind _).bind _
      cases m.addDocument o.collision (isRaw negated e) doc with
      | error err => rfl
      | ok m₁ => exact ih m₁

/-- **An `or` takes its operands one by one**: each is translated and
lists what it contributes. -/
theorem anyOf_cons (e : Expr) (rest : List Expr) :
    anyOf o negated (e :: rest) = (ofExpr o negated e).bind fun doc =>
      (anyOf o negated rest).map fun items => alternatives doc ++ items := by
  rw [anyOf]
  cases ofExpr o negated e with
  | error err => rfl
  | ok doc =>
    dsimp only [Except.bind]
    cases anyOf o negated rest with
    | error err => rfl
    | ok items => rfl

/-- The code of a document. -/
def codeOf (doc : Document) : List Value :=
  Document.under doc whereKey

/-- **What a document contributes to an `or`** is the items of the `$or`
that is all it holds, or the document as one item. -/
theorem alternatives_cases (doc : Document) :
    (∃ items, doc = [(orKey, .list items)] ∧ alternatives doc = items)
      ∨ alternatives doc = [.document doc] := by
  unfold alternatives
  split
  · rename_i key items
    by_cases hk : key = orKey
    · rw [if_pos hk]
      exact .inl ⟨items, by rw [hk], rfl⟩
    · rw [if_neg hk]
      exact .inr rfl
  · exact .inr rfl

/-- A document of two entries is one item. -/
theorem alternatives_cons_cons (e e' : String × Value) (rest : Document) :
    alternatives (e :: e' :: rest) = [.document (e :: e' :: rest)] := by
  rcases alternatives_cases (e :: e' :: rest) with ⟨items, hdoc, -⟩ | h
  · cases hdoc
  · exact h

/-! ## Translations, case by case -/

/-- **A group whose documents are merged**, under a sign: an `and`, or an
`or` under negation. -/
inductive Merges : Bool → Expr → List Expr → Prop where
  /-- An `and`. -/
  | all (operands : List Expr) : Merges false (.all operands) operands
  /-- The negation of an `or`. -/
  | any (operands : List Expr) : Merges true (.any operands) operands

/-- **A group whose documents are listed**, under a sign: an `or`, or an
`and` under negation. -/
inductive Lists : Bool → Expr → List Expr → Prop where
  /-- An `or`. -/
  | any (operands : List Expr) : Lists false (.any operands) operands
  /-- The negation of an `and`. -/
  | all (operands : List Expr) : Lists true (.all operands) operands

/-- **Induction on translations.** What holds of the document of a
comparison, of a ready-made document, of documents merged and of documents
listed holds of every document that an expression has. -/
theorem ofExpr_induction {P : Bool → Expr → Document → Prop}
    (comparison : ∀ {negated c d}, ofComparison o negated c = .ok d →
      P negated (.comparison c) d)
    (merged : ∀ {negated e operands m}, Merges negated e operands →
      (∀ e ∈ operands, ∀ d, ofExpr o negated e = .ok d → P negated e d) →
      allOf o negated .empty operands = .ok m → P negated e m.toDocument)
    (listed : ∀ {negated e operands items}, Lists negated e operands →
      (∀ e ∈ operands, ∀ d, ofExpr o negated e = .ok d → P negated e d) →
      anyOf o negated operands = .ok items → P negated e (Document.single orKey (.list items)))
    (not : ∀ {negated operand d}, P (!negated) operand d → P negated (.not operand) d)
    (fragment : ∀ {negated doc d}, ofExpr o negated (.fragment doc) = .ok d →
      P negated (.fragment doc) d)
    {e : Expr} {d : Document} (h : ofExpr o negated e = .ok d) : P negated e d := by
  induction e using Expr.induction generalizing negated d with
  | comparison c =>
    rw [ofExpr] at h
    exact comparison h
  | all operands ih =>
    cases negated with
    | false =>
      rw [ofExpr_all] at h
      obtain ⟨m, hm, rfl⟩ := map_eq_ok_iff.mp h
      exact merged (.all operands) (fun e he _ hd => ih e he hd) hm
    | true =>
      rw [ofExpr_not_all] at h
      obtain ⟨items, hitems, rfl⟩ := map_eq_ok_iff.mp h
      exact listed (.all operands) (fun e he _ hd => ih e he hd) hitems
  | any operands ih =>
    cases negated with
    | false =>
      rw [ofExpr_any] at h
      obtain ⟨items, hitems, rfl⟩ := map_eq_ok_iff.mp h
      exact listed (.any operands) (fun e he _ hd => ih e he hd) hitems
    | true =>
      rw [ofExpr_not_any] at h
      obtain ⟨m, hm, rfl⟩ := map_eq_ok_iff.mp h
      exact merged (.any operands) (fun e he _ hd => ih e he hd) hm
  | not operand ih =>
    rw [ofExpr] at h
    exact not (ih h)
  | fragment doc => exact fragment h

end Filter

end DocFilter
