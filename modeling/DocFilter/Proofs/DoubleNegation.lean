import DocFilter.Proofs.Twins

/-!
# Two negations and a pair of parentheses

A negation travels down an expression, so two of them, one on top of the
other, come out where they went in: the document of `not not s` is the
document of `s`. There is one place that looks at an operand before it is
translated: an `and` asks whether an operand *is* a ready-made document, in
order to put its code in parentheses, and `not not` of one is not.

`LosesParentheses` spells out when this shows, and
`Expr.toFilter_not_not_iff` that it is the only thing that ever does: in
every context the translation with the two negations is the translation
without them, unless the code of a ready-made document loses the
parentheses that it needs beside other code. What differs in one group
differs in the groups around it, since documents that are apart stay
apart on the way out (`toFilter_fill_apart`).
-/

namespace DocFilter

namespace Filter

variable {o : Options} {negated : Bool} {m m' : Conjunction} {a b : Expr}

/-! ## Groups of operands that are apart -/

/-- **Documents that are apart**, in whatever key. -/
def DocumentsApart (doc doc' : Document) : Prop :=
  ∃ key, Document.Apart key doc doc'

/-- Documents that are apart are different alternatives. -/
theorem alternatives_ne {doc doc' : Document} (h : DocumentsApart doc doc') :
    alternatives doc ≠ alternatives doc' := by
  obtain ⟨key, h⟩ := h
  have hdoc : alternatives doc = [.document doc] → alternatives doc' = [.document doc'] →
      alternatives doc ≠ alternatives doc' := by
    intro hx hy heq
    rw [hx, hy, List.cons.injEq] at heq
    exact h.ne (Value.document.inj heq.1)
  cases h with
  | @entry before v v' hb hv after =>
    -- only a document with nothing but the key can be taken for its items
    cases before with
    | nil =>
      cases after with
      | nil =>
        cases hv with
        | code _ _ _ _ => exact hdoc rfl rfl
        | @items _ xs xs' _ _ hne =>
          show (if key = orKey then xs else _) ≠ (if key = orKey then xs' else _)
          by_cases hk : key = orKey
          · rwa [if_pos hk, if_pos hk]
          · rw [if_neg hk, if_neg hk]
            exact fun heq => hne (by simpa using heq)
      | cons e rest => exact hdoc (alternatives_cons_cons _ _ _) (alternatives_cons_cons _ _ _)
    | cons e rest =>
      cases rest with
      | nil => exact hdoc (alternatives_cons_cons _ _ _) (alternatives_cons_cons _ _ _)
      | cons e' rest => exact hdoc (alternatives_cons_cons _ _ _) (alternatives_cons_cons _ _ _)

/-- **An `or` keeps documents apart**, as items that differ. -/
theorem anyOf_apart
    (h : Outcomes DocumentsApart (ofExpr o negated a) (ofExpr o negated b))
    (before after : List Expr) :
    Outcomes (fun items items' => items ≠ items') (anyOf o negated (before ++ a :: after))
      (anyOf o negated (before ++ b :: after)) := by
  induction before with
  | nil =>
    rw [List.nil_append, List.nil_append, anyOf_cons, anyOf_cons]
    refine h.bind (fun doc doc' hd => ?_)
    cases anyOf o negated after with
    | error err => exact .error err
    | ok items => exact .ok (fun heq => alternatives_ne hd (List.append_cancel_right heq))
  | cons e rest ih =>
    rw [List.cons_append, List.cons_append, anyOf_cons, anyOf_cons]
    refine .bind_same (fun doc _ => ?_)
    exact ih.map (fun _ _ hne heq => hne (List.append_cancel_left heq))

/-- **An `and` keeps conjunctions apart.** -/
theorem allOf_conjunctions_apart {key : String} (h : Conjunction.Apart key m m')
    (operands : List Expr) :
    Outcomes (Conjunction.Apart key) (allOf o negated m operands)
      (allOf o negated m' operands) := by
  induction operands generalizing m m' with
  | nil =>
    rw [allOf, allOf]
    exact .ok h
  | cons e rest ih =>
    rw [allOf_cons, allOf_cons]
    refine .bind_same (fun doc _ => ?_)
    exact (h.addDocument doc).bind (fun _ _ h₁ => ih h₁)

/-- **An `and` keeps documents apart.** -/
theorem allOf_apart
    (h : Outcomes DocumentsApart (ofExpr o negated a) (ofExpr o negated b))
    (hraw : isRaw negated a = isRaw negated b) (before after : List Expr) (m : Conjunction) :
    Outcomes (fun m m' => DocumentsApart m.toDocument m'.toDocument)
      (allOf o negated m (before ++ a :: after)) (allOf o negated m (before ++ b :: after)) := by
  rw [allOf_append, allOf_append]
  refine .bind_same (fun m₁ _ => ?_)
  rw [allOf_cons, allOf_cons, hraw]
  refine h.bind (fun doc doc' ⟨key, hd⟩ => ?_)
  refine (Conjunction.addDocument_apart hd m₁).bind (fun m₂ m₂' h₂ => ?_)
  exact (allOf_conjunctions_apart h₂ after).mono (fun _ _ _ _ h => h.toDocument)

/-! ## Groups of operands that are the same -/

/-- The operands of an `and` may be exchanged for operands with the same
document and the same mark. -/
theorem allOf_congr (h : ofExpr o negated a = ofExpr o negated b)
    (hraw : isRaw negated a = isRaw negated b) (before after : List Expr) (m : Conjunction) :
    allOf o negated m (before ++ a :: after) = allOf o negated m (before ++ b :: after) := by
  rw [allOf_append, allOf_append]
  refine congrArg _ (funext fun m₁ => ?_)
  rw [allOf_cons, allOf_cons, h, hraw]

/-- Those of an `or` need the same document only. -/
theorem anyOf_congr (h : ofExpr o negated a = ofExpr o negated b) (before after : List Expr) :
    anyOf o negated (before ++ a :: after) = anyOf o negated (before ++ b :: after) := by
  induction before with
  | nil => rw [List.nil_append, List.nil_append, anyOf, anyOf, h]
  | cons e rest ih => rw [List.cons_append, List.cons_append, anyOf, anyOf, ih]

/-- Under a negation nothing stands as it is. -/
theorem isRaw_true (e : Expr) : isRaw true e = false := by
  cases e <;> rfl

/-! ## The group of the two negations -/

section NotNot

variable {before after : List Expr} {doc : Document}

/-- **Two negations set an `and` apart** if plain code in a ready-made
document stands beside other code. -/
theorem ofExpr_all_not_not_apart
    (hlost : (codeOf doc).any Value.isPlainCode = true
      ∧ 2 ≤ (codesOf o false (before ++ .fragment doc :: after)).length) :
    Outcomes DocumentsApart (ofExpr o false (.all (before ++ .fragment doc :: after)))
      (ofExpr o false (.all (before ++ .not (.not (.fragment doc)) :: after))) := by
  rw [ofExpr_all, ofExpr_all]
  refine (allOf_not_not_twin before after doc).map (fun m m' hm => ?_)
  rcases hm.toDocument with ⟨-, -, hapart⟩ | ⟨hnot, -⟩
  · exact hapart
  · exact absurd hlost hnot

/-- **They cancel in it otherwise.** -/
theorem ofExpr_all_not_not_eq
    (hkept : ¬ ((codeOf doc).any Value.isPlainCode = true
      ∧ 2 ≤ (codesOf o false (before ++ .fragment doc :: after)).length)) :
    ofExpr o false (.all (before ++ .not (.not (.fragment doc)) :: after))
      = ofExpr o false (.all (before ++ .fragment doc :: after)) := by
  have htwin := allOf_not_not_twin (o := o) before after doc
  rw [ofExpr_all, ofExpr_all]
  rcases htwin.inversion with ⟨err, hx, hy⟩ | ⟨m, m', hx, hy, hm⟩
  · rw [hx, hy]
  · rw [hx, hy]
    rcases hm.toDocument with ⟨hplain, htwo, -⟩ | ⟨-, hsame⟩
    · exact absurd ⟨hplain, htwo⟩ hkept
    · exact congrArg Except.ok hsame.symm

end NotNot

end Filter

/-! ## Contexts -/

namespace Expr

open DocFilter.Filter

/-- **One step from an operand to the expression around it.** -/
inductive Frame where
  /-- The operand of an `and`, among others. -/
  | all (before after : List Expr)
  /-- The operand of an `or`, among others. -/
  | any (before after : List Expr)
  /-- The operand of a negation. -/
  | not

namespace Frame

variable {o : Options} {a b : Expr}

/-- The expression around an operand. -/
def plug : Frame → Expr → Expr
  | .all before after, e => .all (before ++ e :: after)
  | .any before after, e => .any (before ++ e :: after)
  | .not, e => .not e

/-- Whether the operand is negated, from whether the expression is. -/
def negates : Frame → Bool → Bool
  | .not, negated => !negated
  | _, negated => negated

theorem isRaw_plug (f : Frame) (negated : Bool) (e : Expr) : isRaw negated (f.plug e) = false := by
  cases f <;> rfl

/-- **Operands may be exchanged for operands with the same document**, and
in an `and` with the same mark. -/
theorem ofExpr_plug_congr (f : Frame) (negated : Bool)
    (h : ofExpr o (f.negates negated) a = ofExpr o (f.negates negated) b)
    (hraw : ∀ before after, f = .all before after → negated = false →
      isRaw false a = isRaw false b) :
    ofExpr o negated (f.plug a) = ofExpr o negated (f.plug b) := by
  cases f with
  | all before after =>
    rw [plug, plug]
    cases negated with
    | false =>
      have hmark : isRaw false a = isRaw false b := hraw before after rfl rfl
      rw [ofExpr_all, ofExpr_all]
      exact congrArg (Except.map _) (allOf_congr h hmark before after .empty)
    | true =>
      rw [ofExpr_not_all, ofExpr_not_all]
      exact congrArg (Except.map _) (anyOf_congr h before after)
  | any before after =>
    rw [plug, plug]
    cases negated with
    | false =>
      rw [ofExpr_any, ofExpr_any]
      exact congrArg (Except.map _) (anyOf_congr h before after)
    | true =>
      have hmark : isRaw true a = isRaw true b := by rw [isRaw_true, isRaw_true]
      rw [ofExpr_not_any, ofExpr_not_any]
      exact congrArg (Except.map _) (allOf_congr h hmark before after .empty)
  | not =>
    rw [plug, plug, ofExpr, ofExpr]
    exact h

/-- **Operands whose documents are apart keep the expressions apart.** -/
theorem ofExpr_plug_apart (f : Frame) (negated : Bool)
    (h : Outcomes DocumentsApart (ofExpr o (f.negates negated) a) (ofExpr o (f.negates negated) b))
    (hraw : isRaw (f.negates negated) a = isRaw (f.negates negated) b) :
    Outcomes DocumentsApart (ofExpr o negated (f.plug a)) (ofExpr o negated (f.plug b)) := by
  have hor : ∀ items items' : List Value, items ≠ items' →
      DocumentsApart (Document.single orKey (.list items))
        (Document.single orKey (.list items')) := by
    intro items items' hne
    have hkey : orKey ∉ Document.keys [] := List.not_mem_nil
    exact ⟨orKey, .entry hkey (.items (by decide) (by decide) hne) []⟩
  cases f with
  | all before after =>
    rw [plug, plug]
    cases negated with
    | false =>
      rw [ofExpr_all, ofExpr_all]
      exact (allOf_apart h hraw before after .empty).map (fun _ _ h => h)
    | true =>
      rw [ofExpr_not_all, ofExpr_not_all]
      exact (anyOf_apart h before after).map hor
  | any before after =>
    rw [plug, plug]
    cases negated with
    | false =>
      rw [ofExpr_any, ofExpr_any]
      exact (anyOf_apart h before after).map hor
    | true =>
      rw [ofExpr_not_any, ofExpr_not_any]
      exact (allOf_apart h hraw before after .empty).map (fun _ _ h => h)
  | not =>
    rw [plug, plug, ofExpr, ofExpr]
    exact h

end Frame

/-- **An expression with a hole**: the steps from the hole to the whole,
innermost first. -/
abbrev Context := List Frame

namespace Context

variable {o : Options} {a b : Expr}

/-- The expression with something in the hole. -/
def fill : Context → Expr → Expr
  | [], e => e
  | f :: outer, e => fill outer (f.plug e)

/-- Whether the hole stands under an odd number of negations. -/
def isNegated : Context → Bool
  | [] => false
  | f :: outer => f.negates (isNegated outer)

/-- What has the same document and the same mark in the hole has the same
document as a whole. -/
theorem toFilter_fill_congr (C : Context)
    (h : ofExpr o (isNegated C) a = ofExpr o (isNegated C) b)
    (hraw : isRaw (isNegated C) a = isRaw (isNegated C) b) :
    (fill C a).toFilter o = (fill C b).toFilter o := by
  induction C generalizing a b with
  | nil => exact h
  | cons f outer ih =>
    refine ih (f.ofExpr_plug_congr _ h ?_) ?_
    · rintro before after rfl hneg
      have hmark : isRaw (isNegated outer) a = isRaw (isNegated outer) b := hraw
      rwa [hneg] at hmark
    · rw [Frame.isRaw_plug, Frame.isRaw_plug]

/-- **What is apart in the hole is apart as a whole.** -/
theorem toFilter_fill_apart (C : Context)
    (h : Outcomes DocumentsApart (ofExpr o (isNegated C) a) (ofExpr o (isNegated C) b))
    (hraw : isRaw (isNegated C) a = isRaw (isNegated C) b) :
    Outcomes DocumentsApart ((fill C a).toFilter o) ((fill C b).toFilter o) := by
  induction C generalizing a b with
  | nil => exact h
  | cons f outer ih =>
    refine ih (f.ofExpr_plug_apart _ h hraw) ?_
    rw [Frame.isRaw_plug, Frame.isRaw_plug]

/-- **When two negations cost a pair of parentheses**: they come between a
ready-made document and the `and` that it is an operand of; the document
has code without two bars side by side; there is other code in the `and`;
and nothing else keeps the whole from being translated. -/
def LosesParentheses (o : Options) (C : Context) (s : Expr) : Prop :=
  ∃ before after outer doc, C = .all before after :: outer ∧ s = .fragment doc
    ∧ isNegated outer = false
    ∧ (codeOf doc).any Value.isPlainCode = true
    ∧ 2 ≤ (codesOf o false (before ++ s :: after)).length
    ∧ ∃ d, (fill C s).toFilter o = .ok d

/-- An operand that is no ready-made document in an `and` has the same
document with two negations on it. -/
theorem ofExpr_plug_not_not (f : Frame) (negated : Bool) (s : Expr)
    (h : ∀ before after doc, f = .all before after → negated = false → s ≠ .fragment doc) :
    ofExpr o negated (f.plug (.not (.not s))) = ofExpr o negated (f.plug s) := by
  refine f.ofExpr_plug_congr negated ?_ (fun before after hf hneg => ?_)
  · rw [ofExpr, ofExpr, Bool.not_not]
  · cases s with
    | fragment doc => exact absurd rfl (h before after doc hf hneg)
    | _ => rfl

end Context

/-- **Two negations cancel in every context, except that they may cost a
pair of parentheses.** The translation of an expression with two negations
on a part of it is the translation of the expression itself, unless the
part is a ready-made document that loses its parentheses. -/
theorem toFilter_not_not_iff (o : Options) (C : Context) (s : Expr) :
    (C.fill (.not (.not s))).toFilter o = (C.fill s).toFilter o ↔ ¬ C.LosesParentheses o s := by
  cases C with
  | nil =>
    refine ⟨fun _ ⟨_, _, _, _, hC, _⟩ => ?_, fun _ => rfl⟩
    cases hC
  | cons f outer =>
    by_cases hplace : ∃ before after doc,
        f = .all before after ∧ s = .fragment doc ∧ Context.isNegated outer = false
    · obtain ⟨before, after, doc, rfl, rfl, hneg⟩ := hplace
      by_cases hlost : (codeOf doc).any Value.isPlainCode = true
          ∧ 2 ≤ (codesOf o false (before ++ .fragment doc :: after)).length
      · -- apart in the group, hence apart as a whole, unless the whole fails
        have hgroup := ofExpr_all_not_not_apart hlost
        rw [← hneg] at hgroup
        rcases (Context.toFilter_fill_apart outer hgroup rfl).inversion with
          ⟨err, hx, hy⟩ | ⟨d, d', hx, hy, ⟨key, hd⟩⟩
        · refine ⟨fun _ ⟨_, _, _, _, _, _, _, _, _, d, hok⟩ => ?_, fun _ => hy.trans hx.symm⟩
          exact absurd (hok.symm.trans hx) (by simp)
        · refine ⟨fun heq => ?_, fun hnot => ?_⟩
          · exact absurd (Except.ok.inj (hx.symm.trans (heq.symm.trans hy))) hd.ne
          · exact absurd ⟨before, after, outer, doc, rfl, rfl, hneg, hlost.1, hlost.2, d, hx⟩ hnot
      · -- the same in the group, hence the same as a whole
        have hgroup := ofExpr_all_not_not_eq hlost
        rw [← hneg] at hgroup
        refine ⟨fun _ => ?_, fun _ => Context.toFilter_fill_congr outer hgroup rfl⟩
        rintro ⟨_, _, _, _, hC, hs, -, hplain, htwo, -⟩
        cases hC
        cases hs
        exact hlost ⟨hplain, htwo⟩
    · have hgroup := Context.ofExpr_plug_not_not (o := o) f (Context.isNegated outer) s
        (fun before after doc hf hneg hs => hplace ⟨before, after, doc, hf, hs, hneg⟩)
      refine ⟨fun _ => ?_, fun _ => Context.toFilter_fill_congr outer hgroup ?_⟩
      · rintro ⟨before, after, _, doc, hC, hs, hneg, -⟩
        cases hC
        exact hplace ⟨before, after, doc, rfl, hs, hneg⟩
      · rw [Frame.isRaw_plug, Frame.isRaw_plug]

/-- A choice that came with a document loses its parentheses beside a
test, and the test becomes part of its last branch. -/
theorem toFilter_not_not_choice :
    let choice : Expr := .fragment [("$where", .text "this.x ? this.y : this.z")]
    let test : Expr := .comparison ⟨"b", .typeOf, .typeName .string⟩
    (Expr.all [choice, test]).toFilter ⟨.lastWins, []⟩
        = .ok [("$where", .text "(this.x ? this.y : this.z) && typeof this.b == \"string\"")]
      ∧ (Expr.all [.not (.not choice), test]).toFilter ⟨.lastWins, []⟩
        = .ok [("$where", .text "this.x ? this.y : this.z && typeof this.b == \"string\"")]
      ∧ ¬ ∀ (o : Options) (C : Context) (s : Expr),
        (C.fill (.not (.not s))).toFilter o = (C.fill s).toFilter o := by
  intro choice test
  have hwith : (Expr.all [choice, test]).toFilter ⟨.lastWins, []⟩
      = .ok [("$where", .text "(this.x ? this.y : this.z) && typeof this.b == \"string\"")] := by
    rfl
  have hwithout : (Expr.all [.not (.not choice), test]).toFilter ⟨.lastWins, []⟩
      = .ok [("$where", .text "this.x ? this.y : this.z && typeof this.b == \"string\"")] := by
    rfl
  refine ⟨hwith, hwithout, fun h => ?_⟩
  have heq : (Expr.all [.not (.not choice), test]).toFilter ⟨.lastWins, []⟩
      = (Expr.all [choice, test]).toFilter ⟨.lastWins, []⟩ :=
    h ⟨.lastWins, []⟩ [.all [] [test]] choice
  rw [hwith, hwithout] at heq
  simp at heq

end Expr

end DocFilter
