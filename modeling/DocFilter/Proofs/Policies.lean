import DocFilter.Proofs.Translation

/-!
# The policy matters only where fields collide

The three policies differ in what an `and` does with two constraints on a
field that cannot stand side by side, and in nothing else. Two
comparisons of runs make this precise.

A run that rejects collisions and meets none is every other run
(`ofExpr_agrees`): up to a collision the three take the same steps, so
that a result, or a failure that is not a collision, is the same under
all.

The two policies that go on after a collision build different documents
from there, and these are merged again in the groups around. What they
have in common is their code, and code is all that a later failure can
depend on: the documents of an expression have the same values under
`$where` under both (`ofExpr_sameCode`), hence the two fail together.
-/

namespace DocFilter

open Document (get? keys under)

/-! ## Up to a collision -/

/-- **Two outcomes agree up to a collision**: the first is the rejection of
one, or the second is the same. -/
def Agrees {α : Type} (x y : Except FilterError α) : Prop :=
  (∃ field, x = .error (.fieldConflict field)) ∨ y = x

namespace Agrees

variable {α β : Type} {x y : Except FilterError α}

/-- What agrees step by step agrees. -/
theorem bind {f g : α → Except FilterError β} (h : Agrees x y) (hfg : ∀ a, Agrees (f a) (g a)) :
    Agrees (x.bind f) (y.bind g) := by
  rcases h with ⟨field, rfl⟩ | rfl
  · exact .inl ⟨field, rfl⟩
  · cases y with
    | error err => exact .inr rfl
    | ok a => exact hfg a

theorem map (h : Agrees x y) (f : α → β) : Agrees (x.map f) (y.map f) := by
  rcases h with ⟨field, rfl⟩ | rfl
  · exact .inl ⟨field, rfl⟩
  · exact .inr rfl

end Agrees

namespace Conjunction

/-- **An entry is rejected, or added under every policy alike.** -/
theorem addEntry_agrees (p : CollisionPolicy) (raw : Bool) (m : Conjunction) (key : String)
    (value : Value) :
    Agrees (m.addEntry .reject raw key value) (m.addEntry p raw key value) := by
  cases hg : get? m.doc key with
  | none =>
    rw [addEntry_of_none hg, addEntry_of_none hg]
    exact .inr rfl
  | some present =>
    by_cases hw : key = whereKey
    · subst hw
      rw [addEntry_of_where hg, addEntry_of_where hg]
      exact .inr rfl
    · by_cases hk : isOperatorKey key = true
      · rw [addEntry_of_operator hg hw hk, addEntry_of_operator hg hw hk]
        exact .inr rfl
      · rw [Bool.not_eq_true] at hk
        rw [addEntry_of_field hg hk, addEntry_of_field hg hk]
        unfold constrainAgain
        -- the one place where the policy is asked, and where `reject` rejects
        cases Value.uniteOperators? present value with
        | some both => exact .inr rfl
        | none => exact .inl ⟨key, rfl⟩

/-- **So is a document.** -/
theorem addDocument_agrees (p : CollisionPolicy) (raw : Bool) (m : Conjunction) (doc : Document) :
    Agrees (m.addDocument .reject raw doc) (m.addDocument p raw doc) := by
  induction doc generalizing m with
  | nil => exact .inr rfl
  | cons e rest ih =>
    rw [addDocument_cons, addDocument_cons]
    exact (addEntry_agrees p raw m e.1 e.2).bind (fun m' => ih m')

end Conjunction

namespace Filter

variable {aliases : List (String × String)} {operands : List Expr}

/-- **Operands of an `and` collide, or are merged under every policy
alike**, if this is so of each of them. -/
theorem allOf_agrees (p : CollisionPolicy) {negated : Bool}
    (ih : ∀ e ∈ operands,
      Agrees (ofExpr ⟨.reject, aliases⟩ negated e) (ofExpr ⟨p, aliases⟩ negated e))
    (m : Conjunction) :
    Agrees (allOf ⟨.reject, aliases⟩ negated m operands)
      (allOf ⟨p, aliases⟩ negated m operands) := by
  induction operands generalizing m with
  | nil => exact .inr rfl
  | cons e rest ihr =>
    rw [allOf_cons, allOf_cons]
    refine (ih e List.mem_cons_self).bind (fun doc => ?_)
    refine (m.addDocument_agrees p (isRaw negated e) doc).bind (fun m' => ?_)
    exact ihr (fun e he => ih e (List.mem_cons_of_mem _ he)) m'

/-- Operands of an `or` likewise. -/
theorem anyOf_agrees (p : CollisionPolicy) {negated : Bool}
    (ih : ∀ e ∈ operands,
      Agrees (ofExpr ⟨.reject, aliases⟩ negated e) (ofExpr ⟨p, aliases⟩ negated e)) :
    Agrees (anyOf ⟨.reject, aliases⟩ negated operands) (anyOf ⟨p, aliases⟩ negated operands) := by
  induction operands with
  | nil => exact .inr rfl
  | cons e rest ihr =>
    rw [anyOf_cons, anyOf_cons]
    refine (ih e List.mem_cons_self).bind (fun doc => ?_)
    exact (ihr (fun e he => ih e (List.mem_cons_of_mem _ he))).map _

/-- **A run that rejects collisions meets one, or is every other run.** -/
theorem ofExpr_agrees (p : CollisionPolicy) (e : Expr) (negated : Bool) :
    Agrees (ofExpr ⟨.reject, aliases⟩ negated e) (ofExpr ⟨p, aliases⟩ negated e) := by
  induction e using Expr.induction generalizing negated with
  | comparison c => exact .inr rfl
  | all operands ih =>
    cases negated with
    | false =>
      rw [ofExpr_all, ofExpr_all]
      exact (allOf_agrees p (fun e he => ih e he false) _).map _
    | true =>
      rw [ofExpr_not_all, ofExpr_not_all]
      exact (anyOf_agrees p (fun e he => ih e he true)).map _
  | any operands ih =>
    cases negated with
    | false =>
      rw [ofExpr_any, ofExpr_any]
      exact (anyOf_agrees p (fun e he => ih e he false)).map _
    | true =>
      rw [ofExpr_not_any, ofExpr_not_any]
      exact (allOf_agrees p (fun e he => ih e he true) _).map _
  | not operand ih =>
    rw [ofExpr, ofExpr]
    exact ih (!negated)
  | fragment doc => exact .inr rfl

/-! ## After a collision -/

/-- Documents with the same code. -/
def SameCode (doc doc' : Document) : Prop :=
  codeOf doc = codeOf doc'

variable {p q : CollisionPolicy}

/-- **Operands of an `and` leave the same code pending** under policies
that reject nothing, if each of them has the same code. -/
theorem allOf_pending (hp : p ≠ .reject) (hq : q ≠ .reject) {negated : Bool}
    (ih : ∀ e ∈ operands,
      Outcomes SameCode (ofExpr ⟨p, aliases⟩ negated e) (ofExpr ⟨q, aliases⟩ negated e))
    {m m' : Conjunction} (hm : m.pending = m'.pending) :
    Outcomes (fun m m' => m.pending = m'.pending) (allOf ⟨p, aliases⟩ negated m operands)
      (allOf ⟨q, aliases⟩ negated m' operands) := by
  induction operands generalizing m m' with
  | nil =>
    rw [allOf, allOf]
    exact .ok hm
  | cons e rest ihr =>
    rw [allOf_cons, allOf_cons]
    refine (ih e List.mem_cons_self).bind (fun doc doc' hdoc => ?_)
    -- the documents may differ, but the merge is driven by their code
    have hadd : Outcomes (fun m m' => m.pending = m'.pending)
        (m.addDocument p (isRaw negated e) doc) (m'.addDocument q (isRaw negated e) doc') := by
      refine .of_map_eq ?_
      rw [Conjunction.pending_addDocument hp, Conjunction.pending_addDocument hq, hm]
      exact congrArg _ hdoc
    exact hadd.bind (fun _ _ hm₁ => ihr (fun e he => ih e (List.mem_cons_of_mem _ he)) hm₁)

/-- Operands of an `or` fail alike. -/
theorem anyOf_outcomes {negated : Bool}
    (ih : ∀ e ∈ operands,
      Outcomes SameCode (ofExpr ⟨p, aliases⟩ negated e) (ofExpr ⟨q, aliases⟩ negated e)) :
    Outcomes (fun _ _ => True) (anyOf ⟨p, aliases⟩ negated operands)
      (anyOf ⟨q, aliases⟩ negated operands) := by
  induction operands with
  | nil =>
    rw [anyOf, anyOf]
    exact .ok trivial
  | cons e rest ihr =>
    rw [anyOf_cons, anyOf_cons]
    refine (ih e List.mem_cons_self).bind (fun _ _ _ => ?_)
    exact (ihr (fun e he => ih e (List.mem_cons_of_mem _ he))).map (fun _ _ _ => trivial)

/-- Merging operands keeps the keys of the document distinct. -/
theorem allOf_nodup_keys {o : Options} {negated : Bool} {m m' : Conjunction}
    (h : allOf o negated m operands = .ok m') (hn : (keys m.doc).Nodup) :
    (keys m'.doc).Nodup := by
  induction operands generalizing m with
  | nil =>
    rw [allOf] at h
    obtain rfl := Except.ok.inj h
    exact hn
  | cons e rest ih =>
    rw [allOf_cons] at h
    obtain ⟨doc, -, h⟩ := bind_eq_ok_iff.mp h
    obtain ⟨m₁, hadd, hrest⟩ := bind_eq_ok_iff.mp h
    exact ih hrest (Conjunction.addDocument_nodup_keys hadd hn)

/-- The document of an `and` has the same code under both policies. -/
theorem all_sameCode (hp : p ≠ .reject) (hq : q ≠ .reject) {negated : Bool}
    (ih : ∀ e ∈ operands,
      Outcomes SameCode (ofExpr ⟨p, aliases⟩ negated e) (ofExpr ⟨q, aliases⟩ negated e)) :
    Outcomes SameCode ((allOf ⟨p, aliases⟩ negated .empty operands).map Conjunction.toDocument)
      ((allOf ⟨q, aliases⟩ negated .empty operands).map Conjunction.toDocument) := by
  have hempty : (keys Conjunction.empty.doc).Nodup := List.nodup_nil
  refine ((allOf_pending hp hq ih rfl).mono (fun m m' hx hy hm => ?_)).map (fun _ _ h => h)
  show under m.toDocument whereKey = under m'.toDocument whereKey
  rw [Conjunction.under_toDocument (allOf_nodup_keys hx hempty),
    Conjunction.under_toDocument (allOf_nodup_keys hy hempty), hm]

/-- The document of an `or` has no code under either. -/
theorem any_sameCode {negated : Bool}
    (ih : ∀ e ∈ operands,
      Outcomes SameCode (ofExpr ⟨p, aliases⟩ negated e) (ofExpr ⟨q, aliases⟩ negated e)) :
    Outcomes SameCode
      ((anyOf ⟨p, aliases⟩ negated operands).map fun items => Document.single orKey (.list items))
      ((anyOf ⟨q, aliases⟩ negated operands).map
        fun items => Document.single orKey (.list items)) :=
  (anyOf_outcomes ih).map (fun _ _ _ => rfl)

/-- **The code of an expression does not depend on the policy**, nor does
its failure, as long as nothing is rejected. -/
theorem ofExpr_sameCode (hp : p ≠ .reject) (hq : q ≠ .reject) (e : Expr) (negated : Bool) :
    Outcomes SameCode (ofExpr ⟨p, aliases⟩ negated e) (ofExpr ⟨q, aliases⟩ negated e) := by
  induction e using Expr.induction generalizing negated with
  | comparison c => exact .of_map_eq rfl
  | all operands ih =>
    cases negated with
    | false =>
      rw [ofExpr_all, ofExpr_all]
      exact all_sameCode hp hq (fun e he => ih e he false)
    | true =>
      rw [ofExpr_not_all, ofExpr_not_all]
      exact any_sameCode (fun e he => ih e he true)
  | any operands ih =>
    cases negated with
    | false =>
      rw [ofExpr_any, ofExpr_any]
      exact any_sameCode (fun e he => ih e he false)
    | true =>
      rw [ofExpr_not_any, ofExpr_not_any]
      exact all_sameCode hp hq (fun e he => ih e he true)
  | not operand ih =>
    rw [ofExpr, ofExpr]
    exact ih (!negated)
  | fragment doc => exact .of_map_eq rfl

end Filter

/-- **The policy matters only where fields collide.** A filter that is
found when collisions are rejected is found under every policy; the two
policies that reject nothing fail together; and a failure that is no
collision is a failure under every policy. -/
theorem Expr.toFilter_policies (aliases : List (String × String)) (e : Expr) :
    (∀ d, e.toFilter ⟨.reject, aliases⟩ = .ok d →
      e.toFilter ⟨.lastWins, aliases⟩ = .ok d ∧ e.toFilter ⟨.andWrap, aliases⟩ = .ok d)
    ∧ (∀ err, e.toFilter ⟨.lastWins, aliases⟩ = .error err
      ↔ e.toFilter ⟨.andWrap, aliases⟩ = .error err)
    ∧ (∀ err, e.toFilter ⟨.reject, aliases⟩ = .error err → (∀ field, err ≠ .fieldConflict field) →
      e.toFilter ⟨.lastWins, aliases⟩ = .error err
        ∧ e.toFilter ⟨.andWrap, aliases⟩ = .error err) := by
  refine ⟨fun d hd => ?_, fun err => ?_, fun err herr hne => ?_⟩
  · have hsame : ∀ p, e.toFilter ⟨p, aliases⟩ = .ok d := by
      intro p
      rcases Filter.ofExpr_agrees p e false with ⟨field, hfield⟩ | hsame
      · exact absurd (hd.symm.trans hfield) (by simp)
      · exact hsame.trans hd
    exact ⟨hsame _, hsame _⟩
  · have hcode : Outcomes Filter.SameCode (e.toFilter ⟨.lastWins, aliases⟩)
        (e.toFilter ⟨.andWrap, aliases⟩) :=
      Filter.ofExpr_sameCode (by decide) (by decide) e false
    rcases hcode.inversion with ⟨err', hx, hy⟩ | ⟨d, d', hx, hy, -⟩
    · rw [hx, hy]
    · rw [hx, hy]
      exact ⟨fun h => (by cases h), fun h => (by cases h)⟩
  · have hsame : ∀ p, e.toFilter ⟨p, aliases⟩ = .error err := by
      intro p
      rcases Filter.ofExpr_agrees p e false with ⟨field, hfield⟩ | hsame
      · exact absurd (Except.error.inj (herr.symm.trans hfield)) (hne field)
      · exact hsame.trans herr
    exact ⟨hsame _, hsame _⟩

/-- Two bounds on a field share its map under every policy, and a field
that code cannot name fails under every policy. -/
theorem Expr.toFilter_policies_bounds :
    let bounds : Expr :=
      .all [.comparison ⟨"a", .relation .gt, .int 1⟩, .comparison ⟨"a", .relation .lt, .int 5⟩]
    let unnamed : Expr := .comparison ⟨"2nd", .typeOf, .typeName .string⟩
    (∃ d, bounds.toFilter ⟨.lastWins, []⟩ = .ok d ∧ bounds.toFilter ⟨.andWrap, []⟩ = .ok d)
      ∧ unnamed.toFilter ⟨.lastWins, []⟩ = .error (.unsafeField "2nd")
      ∧ unnamed.toFilter ⟨.andWrap, []⟩ = .error (.unsafeField "2nd") := by
  intro bounds unnamed
  refine ⟨⟨_, (toFilter_policies [] bounds).1 _ rfl⟩, ?_⟩
  refine (toFilter_policies [] unnamed).2.2 _ rfl (fun field h => ?_)
  cases h

end DocFilter
