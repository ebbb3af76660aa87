import DocFilter.Proofs.JoinedCode

/-!
# Failures stay as clauses are added

The clauses of a list are merged from left to right, and a merge that has
failed does not go on. So a list that has no filter has none however many
clauses are put after it, and the failure is the same
(`Query.toFilter_take_error`).

Two things stand between the list and the merge. A clause that is an `and`
is merged operand by operand, so that the operands of a longer list begin
with those of the shorter one, whatever the clauses are. And an `and` of
one operand is that operand, which is translated by itself and merged with
nothing; there the failure is one of the operand, and a merge that begins
with the operand runs into it before it has merged anything
(`Filter.allOf_of_toFilter_conj`).
-/

namespace DocFilter

namespace Filter

variable {o : Options} {es : List Expr} {err : FilterError}

/-- **A failure of an `and` is one of merging its operands**, also if there
is but one of them and nothing was merged. -/
theorem allOf_of_toFilter_conj (h : (Expr.conj es).toFilter o = .error err) :
    allOf o false .empty (es.flatMap Expr.conjuncts) = .error err := by
  rcases Expr.conj_cases es with ⟨e, hflat, hconj⟩ | hconj
  · have he : ofExpr o false e = .error err := hconj ▸ h
    rw [hflat, allOf_cons, he]
    rfl
  · have hall : ofExpr o false (.all (es.flatMap Expr.conjuncts)) = .error err := hconj ▸ h
    rw [ofExpr_all] at hall
    exact map_eq_error_iff.mp hall

/-- **An `and` that fails goes on to fail** with more expressions after its
own. -/
theorem toFilter_conj_append (h : (Expr.conj es).toFilter o = .error err) (more : List Expr) :
    (Expr.conj (es ++ more)).toFilter o = .error err := by
  have hall := allOf_of_toFilter_conj h
  have hflat : (es ++ more).flatMap Expr.conjuncts
      = es.flatMap Expr.conjuncts ++ more.flatMap Expr.conjuncts := List.flatMap_append
  rcases Expr.conj_cases (es ++ more) with ⟨e, hone, hconj⟩ | hconj
  · -- one operand in all: the shorter list has it, since no operands do not fail
    rcases List.append_eq_singleton_iff.mp (hflat.symm.trans hone) with ⟨hnil, -⟩ | ⟨hes, -⟩
    · rw [hnil, allOf] at hall
      cases hall
    · have hsame : Expr.conj es = e := by
        rw [Expr.conj, hes]
      rw [hconj, ← hsame]
      exact h
  · rw [hconj, hflat]
    show ofExpr o false (.all _) = _
    rw [ofExpr_all, allOf_append, hall]
    rfl

end Filter

/-- **Failures stay as clauses are added.** Let every text of a list of
clauses be parsed. If the first clauses of it have no filter, this is for a
reason found in translating them, and however many more of the clauses are
taken, they have none for the same reason. -/
theorem Query.toFilter_take_error {o : Options} {cs : List Clause}
    (htext : ∀ s, .text s ∈ cs → ∃ e, Expr.parse s = .ok e) {n m : Nat} (hnm : n ≤ m)
    {err : QueryError} (h : (Query.clauses (cs.take n)).toFilter o = .error err) :
    (∃ e, err = .filter e) ∧ (Query.clauses (cs.take m)).toFilter o = .error err := by
  obtain ⟨es, hes⟩ := Clause.exists_parseAll_of_texts htext
  have hfirst : ∀ k, Clause.parseAll (cs.take k) = .ok (es.take k) := fun k =>
    Clause.parseAll_eq_ok_iff.mpr (List.forall₂_take k (Clause.parseAll_eq_ok_iff.mp hes))
  have hsplit : es.take m = es.take n ++ (es.take m).drop n := by
    conv_lhs => rw [← List.take_append_drop n (es.take m), List.take_take, Nat.min_eq_left hnm]
  rw [toFilter_clauses (hfirst n)] at h
  rw [toFilter_clauses (hfirst m), hsplit]
  cases hn : (Expr.conj (es.take n)).toFilter o with
  | error e =>
    rw [hn] at h
    obtain rfl := Except.error.inj h
    rw [Filter.toFilter_conj_append hn]
    exact ⟨⟨e, rfl⟩, rfl⟩
  | ok d =>
    rw [hn] at h
    cases h

/-- The one clause of the shorter list is translated by itself, and fails.
The longer list would have a collision besides, but does not get there. -/
theorem Query.toFilter_take_error_single :
    (Query.clauses [.text "2nd type string"]).toFilter ⟨.reject, []⟩
      = .error (.filter (.unsafeField "2nd"))
    ∧ (Query.clauses [.text "2nd type string", .fragment [("a", .int 1)],
        .fragment [("a", .int 2)]]).toFilter ⟨.reject, []⟩
      = .error (.filter (.unsafeField "2nd")) := by
  have hparse : (Clause.text "2nd type string").parse
      = .ok (.comparison ⟨"2nd", .typeOf, .typeName .string⟩) := by
    cbv
  have hone : (Query.clauses [.text "2nd type string"]).toFilter ⟨.reject, []⟩
      = .error (.filter (.unsafeField "2nd")) := by
    rw [toFilter_clauses (Clause.parseAll_eq_ok_iff.mpr (.cons hparse .nil))]
    rfl
  have htext : ∀ s, .text s ∈ [Clause.text "2nd type string", .fragment [("a", .int 1)],
      .fragment [("a", .int 2)]] → ∃ e, Expr.parse s = .ok e := by
    intro s hs
    simp only [List.mem_cons, Clause.text.injEq, reduceCtorEq, List.not_mem_nil, or_false] at hs
    obtain rfl := hs
    exact ⟨_, hparse⟩
  exact ⟨hone, (toFilter_take_error htext (by decide : 1 ≤ 3) hone).2⟩

end DocFilter
