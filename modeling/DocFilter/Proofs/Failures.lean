import DocFilter.Proofs.JoinedCode
import DocFilter.Proofs.Leaves
import DocFilter.Proofs.Policies
import DocFilter.Proofs.Regular

/-!
# Why a filter is not found

A query of texts that is parsed has comparisons whose operators take
their values, so no comparison is refused for its value; and the code of
its filter is generated, never the text of a function, so code can always
be joined. Two reasons are left. Constraints collide, where collisions are
rejected; or a comparison has to be written in code, on a field that code
cannot name.

Which comparisons are code can be told from the leaves of the expression
and the number of negations above them (`Leaf.isCode`), and whether the
query fails from the leaves alone, from left to right (`verdict`). The
translation goes through the leaves in that order and does nothing else
that could fail (`Filter.ofExpr_verdict`): its documents are merged one by
one, and what is merged has only code that can be joined.
-/

namespace DocFilter

open Document (get? keys under)

/-! ## Leaves -/

/-- **A comparison where it stands**, under a number of negations. -/
structure Leaf where
  /-- The comparison. -/
  comparison : Comparison
  /-- How many negations stand above it. -/
  nots : Nat

mutual

/-- **The leaves of an expression** that stands under negations, from left
to right. -/
def Expr.leaves (nots : Nat) : Expr → List Leaf
  | .comparison c => [⟨c, nots⟩]
  | .all operands => leavesOf nots operands
  | .any operands => leavesOf nots operands
  | .not operand => leaves (nots + 1) operand
  | .fragment _ => []

/-- The leaves of operands, from left to right. -/
def Expr.leavesOf (nots : Nat) : List Expr → List Leaf
  | [] => []
  | e :: rest => leaves nots e ++ leavesOf nots rest

end

/-- Whether a number of negations negates. -/
def isOdd (nots : Nat) : Bool :=
  nots % 2 == 1

theorem isOdd_succ (nots : Nat) : isOdd (nots + 1) = !isOdd nots := by
  unfold isOdd
  rcases Nat.mod_two_eq_zero_or_one nots with h | h <;> rw [Nat.add_mod, h] <;> rfl

namespace Leaf

/-- **Whether a comparison is written in code**: a test of a type always,
and one of a length unless it is equality where it stands. -/
def isCode (l : Leaf) : Bool :=
  match l.comparison.op with
  | .typeOf => true
  | .size r => r.underNegation (isOdd l.nots) != .eq
  | _ => false

/-- The field as the documents know it. -/
def field (o : Options) (l : Leaf) : String :=
  o.resolve l.comparison.field

/-- **Whether a comparison cannot be written**: it has to be code, and code
cannot name its field. -/
def isUnsafe (o : Options) (l : Leaf) : Bool :=
  l.isCode && !(Predicate.path (l.field o)).isOk

end Leaf

/-- **What leaves decide**, from left to right: the first one that cannot
be written is the failure. -/
def verdict (o : Options) : List Leaf → Except FilterError Unit
  | [] => .ok ()
  | l :: rest => if l.isUnsafe o then .error (.unsafeField (l.field o)) else verdict o rest

section Verdict

variable {o : Options}

theorem verdict_append (ls more : List Leaf) :
    verdict o (ls ++ more) = (verdict o ls).bind fun _ => verdict o more := by
  induction ls with
  | nil => rfl
  | cons l rest ih =>
    rw [List.cons_append, verdict, verdict, ih]
    split <;> rfl

/-- Leaves decide for a filter if each of them can be written. -/
theorem verdict_eq_ok_iff {ls : List Leaf} :
    verdict o ls = .ok () ↔ ∀ l ∈ ls, l.isUnsafe o = false := by
  induction ls with
  | nil => simp [verdict]
  | cons l rest ih =>
    rw [verdict, List.forall_mem_cons, ← ih]
    cases hl : l.isUnsafe o with
    | true => simp
    | false => simp

/-- **The first leaf that cannot be written is the failure.** -/
theorem verdict_of_first {before after : List Leaf} {l : Leaf}
    (hbefore : ∀ b ∈ before, b.isUnsafe o = false) (hl : l.isUnsafe o = true) :
    verdict o (before ++ l :: after) = .error (.unsafeField (l.field o)) := by
  rw [verdict_append, verdict_eq_ok_iff.mpr hbefore]
  show verdict o (l :: after) = _
  rw [verdict, if_pos hl]

/-- A failure that leaves decide for is about a field. -/
theorem exists_unsafeField_of_verdict {ls : List Leaf} {err : FilterError}
    (h : verdict o ls = .error err) : ∃ field, err = .unsafeField field := by
  induction ls with
  | nil => cases h
  | cons l rest ih =>
    rw [verdict] at h
    split at h
    · exact ⟨l.field o, (Except.error.inj h).symm⟩
    · exact ih h

end Verdict

/-! ## Generated code -/

namespace Predicate

/-- Generated code starts like no function. -/
theorem Test.head_code {test : Test} {code : String} (h : test.code = .ok code) :
    ∃ c, code.toList.head? = some c ∧ Text.isBlank c = false ∧ c ≠ 'f' := by
  cases test with
  | type field type =>
    obtain ⟨p, hp, rfl⟩ := map_eq_ok_iff.mp h
    obtain ⟨cs, -, hcs⟩ := path_eq_ok hp
    rw [typeTest_toList, hcs]
    cases type <;> exact ⟨_, rfl, by decide, by decide⟩
  | notType field type =>
    obtain ⟨p, -, rfl⟩ := map_eq_ok_iff.mp h
    exact ⟨'!', head_negated p, by decide, by decide⟩
  | size field r n =>
    obtain ⟨p, hp, hcode⟩ := ofSize_eq_ok h
    obtain ⟨cs, -, hcs⟩ := path_eq_ok hp
    rw [hcode, hcs]
    exact ⟨'t', rfl, by decide, by decide⟩

/-- **Generated code is not a function.** -/
theorem Test.not_isFunctionCode {test : Test} {code : String} (h : test.code = .ok code) :
    ¬ IsFunctionCode code := by
  obtain ⟨c, hc, hblank, hf⟩ := head_code h
  rintro ⟨blanks, rest, hcode, hblanks, -⟩
  rw [hcode] at hc
  cases blanks with
  | nil => exact hf (Option.some.inj hc).symm
  | cons b blanks =>
    have hb := hblanks b List.mem_cons_self
    rw [Option.some.inj hc, hblank] at hb
    cases hb

end Predicate

/-- **A value under `$where` that can be joined.** -/
def Value.IsExpression (v : Value) : Prop :=
  Piece.IsExpression ⟨v, false⟩

namespace Conjunction

/-- **Code that can be joined to**: there is none, or it can be joined. -/
def Pending.Joins (p : Pending) : Prop :=
  ∀ v, p.code = some v → v.IsExpression

variable {p : Pending} {raw : Bool} {v : Value}

/-- A step: code that can be joined is joined, and can be joined to. -/
theorem Pending.Joins.add (hp : p.Joins) (hv : v.IsExpression) :
    ∃ p', p.add raw v = .ok p' ∧ p'.Joins := by
  unfold Pending.add
  cases hcode : p.code with
  | none =>
    refine ⟨_, rfl, fun w hw => ?_⟩
    obtain rfl := Option.some.inj hw
    exact hv
  | some present =>
    rcases joinWhere_cases ⟨present, p.raw⟩ ⟨v, raw⟩ with ⟨-, -, c, d, -, -, hjoin, he⟩ | ⟨hnot, -⟩
    · refine ⟨⟨some (.text (c ++ " && " ++ d)), false⟩, ?_, fun w hw => ?_⟩
      · show Except.map _ (joinWhere present v p.raw raw) = _
        rw [show joinWhere present v p.raw raw = .ok (c ++ " && " ++ d) from hjoin]
        rfl
      · obtain rfl := Option.some.inj hw
        exact he
    · exact absurd ⟨hp present hcode, hv⟩ hnot

/-- A run: so are any number of them. -/
theorem Pending.Joins.addAll {vs : List Value} (hp : p.Joins) (hvs : ∀ v ∈ vs, v.IsExpression) :
    ∃ p', p.addAll raw vs = .ok p' ∧ p'.Joins := by
  induction vs generalizing p with
  | nil => exact ⟨p, rfl, hp⟩
  | cons v rest ih =>
    rw [List.forall_mem_cons] at hvs
    obtain ⟨p₁, hadd, hp₁⟩ := hp.add hvs.1
    rw [Pending.addAll, hadd]
    exact ih hp₁ hvs.2

/-- **A document whose code can be joined is merged**, if nothing is
rejected. -/
theorem exists_addDocument {policy : CollisionPolicy} (hpolicy : policy ≠ .reject)
    {m : Conjunction} (hm : m.pending.Joins) {doc : Document}
    (hdoc : ∀ v ∈ under doc whereKey, v.IsExpression) (raw : Bool) :
    ∃ m', m.addDocument policy raw doc = .ok m' ∧ m'.pending.Joins := by
  have hadd : ∃ p, m.pending.addAll raw (under doc whereKey) = .ok p ∧ p.Joins := hm.addAll hdoc
  obtain ⟨p, hp, hjoins⟩ := hadd
  rw [← pending_addDocument hpolicy] at hp
  obtain ⟨m', hm', rfl⟩ := map_eq_ok_iff.mp hp
  exact ⟨m', hm', hjoins⟩

end Conjunction

/-! ## Translating -/

namespace Filter

variable {o : Options}

/-- **A document whose code can be joined.** -/
def Joinable (d : Document) : Prop :=
  ∀ v ∈ codeOf d, v.IsExpression

/-- A document without code has none that could not. -/
theorem joinable_single {key : String} (h : key ≠ whereKey) (value : Value) :
    Joinable (Document.single key value) := by
  have hcode : codeOf (Document.single key value) = [] := Document.under_cons_of_ne h value []
  unfold Joinable
  rw [hcode]
  exact fun v hv => by cases hv

/-- The document of a comparison has joinable code, if its field is not the
key of code. -/
theorem joinable_ofComparison {negated : Bool} {c : Comparison} {d : Document}
    (hkey : o.resolve c.field ≠ whereKey) (h : ofComparison o negated c = .ok d) :
    Joinable d := by
  cases compared_of_ofComparison h with
  | code ht hc =>
    intro v hv
    obtain rfl := List.mem_singleton.mp hv
    exact ⟨_, rfl, Predicate.Test.not_isFunctionCode hc⟩
  | operator _ _ => exact joinable_single hkey _
  | literal _ => exact joinable_single hkey _

/-- What is made of the path of a field fails for that field. -/
theorem map_path {α : Type} (field : String) (f : String → α) :
    ((Predicate.path field).map f).map (fun _ => ())
      = if (Predicate.path field).isOk then .ok () else .error (.unsafeField field) := by
  unfold Predicate.path
  cases Predicate.chainChars (Text.segments '.' field.toList) with
  | none => rfl
  | some cs => rfl

/-- **A comparison whose operator takes its value fails as its leaf says.** -/
theorem map_ofComparison {c : Comparison} (h : c.op.Takes c.value) (nots : Nat) :
    (ofComparison o (isOdd nots) c).map (fun _ => ()) = verdict o [⟨c, nots⟩] := by
  have hcode : Leaf.isCode ⟨c, nots⟩ = true → verdict o [⟨c, nots⟩]
      = if (Predicate.path (o.resolve c.field)).isOk then .ok ()
        else .error (.unsafeField (o.resolve c.field)) := by
    intro hcode
    rw [verdict, Leaf.isUnsafe, hcode, Leaf.field]
    cases (Predicate.path (o.resolve c.field)).isOk <;> rfl
  have hplain : Leaf.isCode ⟨c, nots⟩ = false → verdict o [⟨c, nots⟩] = .ok () := by
    intro hcode
    rw [verdict, Leaf.isUnsafe, hcode]
    rfl
  obtain ⟨field, op, value⟩ := c
  cases op with
  | relation r =>
    rw [hplain rfl, ofComparison]
    dsimp only [Operator.relation?]
    split <;> rfl
  | presence =>
    obtain ⟨b, rfl⟩ := h
    rw [hplain rfl]
    rfl
  | pattern =>
    obtain ⟨p, rfl⟩ := h
    rw [hplain rfl, ofComparison]
    dsimp only
    split <;> rfl
  | typeOf =>
    obtain ⟨type, rfl⟩ := h
    rw [hcode rfl, ← map_path _ fun p => Predicate.typeTest p type, ofComparison]
    dsimp only [Predicate.ofType]
    cases Predicate.path (o.resolve field) with
    | error err => rfl
    | ok p => rfl
  | size r =>
    obtain ⟨n, rfl, -⟩ := h
    rw [ofComparison]
    dsimp only
    split
    · rename_i heq
      have hleaf : Leaf.isCode ⟨⟨field, .size r, .int n⟩, nots⟩ = false := by
        show (r.underNegation (isOdd nots) != .eq) = false
        rw [heq]
        rfl
      rw [hplain hleaf]
      rfl
    · rename_i hne
      have hleaf : Leaf.isCode ⟨⟨field, .size r, .int n⟩, nots⟩ = true := bne_iff_ne.mpr hne
      rw [hcode hleaf, ← map_path _ fun p => underWhere p, Predicate.ofSize]
      cases Predicate.path (o.resolve field) with
      | error err => rfl
      | ok p => rfl

/-- **So does its document**, and it has code that can be joined. -/
theorem ofComparison_verdict {c : Comparison} (h : c.op.Takes c.value)
    (hkey : o.resolve c.field ≠ whereKey) (nots : Nat) :
    Outcomes (fun d _ => Joinable d) (ofComparison o (isOdd nots) c) (verdict o [⟨c, nots⟩]) := by
  have hsame : (ofComparison o (isOdd nots) c).map (fun _ => ())
      = (verdict o [⟨c, nots⟩]).map (fun _ => ()) := by
    rw [map_ofComparison h]
    cases verdict o [⟨c, nots⟩] <;> rfl
  exact (Outcomes.of_map_eq hsame).mono fun d _ hd _ _ => joinable_ofComparison hkey hd

variable {negated : Bool} {nots : Nat} {operands : List Expr}

/-- **Operands of an `and` fail as their leaves say**, if each of them
does: what is merged can always be merged. -/
theorem allOf_verdict (hp : o.collision ≠ .reject)
    (ih : ∀ e ∈ operands,
      Outcomes (fun d _ => Joinable d) (ofExpr o negated e) (verdict o (e.leaves nots)))
    {m : Conjunction} (hm : m.pending.Joins) :
    Outcomes (fun m' _ => m'.pending.Joins) (allOf o negated m operands)
      (verdict o (Expr.leavesOf nots operands)) := by
  induction operands generalizing m with
  | nil =>
    rw [allOf]
    exact .ok hm
  | cons e rest ihr =>
    rw [allOf_cons, Expr.leavesOf, verdict_append]
    refine (ih e List.mem_cons_self).bind fun d _ hd => ?_
    obtain ⟨m', hm', hjoins⟩ := Conjunction.exists_addDocument hp hm hd (isRaw negated e)
    rw [hm']
    exact ihr (fun e he => ih e (List.mem_cons_of_mem _ he)) hjoins

/-- Operands of an `or` likewise. -/
theorem anyOf_verdict
    (ih : ∀ e ∈ operands,
      Outcomes (fun d _ => Joinable d) (ofExpr o negated e) (verdict o (e.leaves nots))) :
    Outcomes (fun _ _ => True) (anyOf o negated operands)
      (verdict o (Expr.leavesOf nots operands)) := by
  induction operands with
  | nil =>
    rw [anyOf]
    exact .ok trivial
  | cons e rest ihr =>
    rw [anyOf_cons, Expr.leavesOf, verdict_append]
    refine (ih e List.mem_cons_self).bind fun d _ _ => ?_
    exact (ihr fun e he => ih e (List.mem_cons_of_mem _ he)).map_left fun _ _ _ _ => trivial

/-- The document of an `and` fails as its leaves say. -/
theorem all_verdict (hp : o.collision ≠ .reject)
    (ih : ∀ e ∈ operands,
      Outcomes (fun d _ => Joinable d) (ofExpr o negated e) (verdict o (e.leaves nots))) :
    Outcomes (fun d _ => Joinable d)
      ((allOf o negated .empty operands).map Conjunction.toDocument)
      (verdict o (Expr.leavesOf nots operands)) := by
  have hempty : Conjunction.empty.pending.Joins := fun v hv => by cases hv
  refine (allOf_verdict hp ih hempty).map_left fun m _ hm hjoins v hv => ?_
  have hcode : codeOf m.toDocument = m.pending.code.toList :=
    Conjunction.under_toDocument (allOf_nodup_keys hm List.nodup_nil)
  rw [hcode, Option.mem_toList] at hv
  exact hjoins v hv

/-- The document of an `or` likewise. -/
theorem any_verdict
    (ih : ∀ e ∈ operands,
      Outcomes (fun d _ => Joinable d) (ofExpr o negated e) (verdict o (e.leaves nots))) :
    Outcomes (fun d _ => Joinable d)
      ((anyOf o negated operands).map fun items => Document.single orKey (.list items))
      (verdict o (Expr.leavesOf nots operands)) :=
  (anyOf_verdict ih).map_left fun _ _ _ _ => joinable_single (by decide) _

/-- **An expression that is safe to merge**: every operator takes its
value, no field is the key of code, and no ready-made document has code. -/
structure Mergeable (o : Options) (e : Expr) : Prop where
  /-- Every operator takes its value. -/
  takes : ∀ c ∈ e.comparisons, c.op.Takes c.value
  /-- No field is the key of code. -/
  fields : ∀ c ∈ e.comparisons, o.resolve c.field ≠ whereKey
  /-- No ready-made document has code. -/
  fragments : ∀ doc ∈ e.fragments, codeOf doc = []

theorem Mergeable.of_group {k : Expr.Connective} (h : Mergeable o (k.group operands)) :
    ∀ e ∈ operands, Mergeable o e := by
  intro e he
  obtain ⟨htakes, hfields, hfragments⟩ := h
  rw [Expr.comparisons_group] at htakes hfields
  rw [Expr.fragments_group] at hfragments
  refine ⟨fun c hc => ?_, fun c hc => ?_, fun doc hdoc => ?_⟩
  · exact htakes c (List.mem_flatMap.mpr ⟨e, he, hc⟩)
  · exact hfields c (List.mem_flatMap.mpr ⟨e, he, hc⟩)
  · exact hfragments doc (List.mem_flatMap.mpr ⟨e, he, hdoc⟩)

/-- **A translation fails as the leaves say**, if the expression is safe to
merge and nothing is rejected. -/
theorem ofExpr_verdict (hp : o.collision ≠ .reject) {e : Expr} (h : Mergeable o e) (nots : Nat) :
    Outcomes (fun d _ => Joinable d) (ofExpr o (isOdd nots) e) (verdict o (e.leaves nots)) := by
  induction e using Expr.induction generalizing nots with
  | comparison c =>
    exact ofComparison_verdict (h.takes c List.mem_cons_self) (h.fields c List.mem_cons_self) nots
  | all operands ih =>
    have hall := fun e he => ih e he (h.of_group (k := .and) e he) nots
    cases hn : isOdd nots with
    | false =>
      rw [hn] at hall
      rw [ofExpr_all]
      exact all_verdict hp hall
    | true =>
      rw [hn] at hall
      rw [ofExpr_not_all]
      exact any_verdict hall
  | any operands ih =>
    have hall := fun e he => ih e he (h.of_group (k := .or) e he) nots
    cases hn : isOdd nots with
    | false =>
      rw [hn] at hall
      rw [ofExpr_any]
      exact any_verdict hall
    | true =>
      rw [hn] at hall
      rw [ofExpr_not_any]
      exact all_verdict hp hall
  | not operand ih =>
    have hoperand := ih ⟨h.takes, h.fields, h.fragments⟩ (nots + 1)
    rw [isOdd_succ] at hoperand
    rw [ofExpr]
    exact hoperand
  | fragment doc =>
    rw [ofExpr]
    cases isOdd nots with
    | true => exact .ok (joinable_single (by decide) _)
    | false =>
      refine .ok fun v hv => ?_
      rw [h.fragments doc List.mem_cons_self] at hv
      cases hv

end Filter

/-! ## Queries of texts -/

/-- **A query that is written in texts**, with nothing ready-made in it. -/
def Query.IsTextual (q : Query) : Prop :=
  ∀ c ∈ q.allClauses, ∃ s, c = .text s

/-- A field that a text can name does not stand for the key of code, if no
alias does. -/
theorem resolve_ne_whereKey {o : Options} (ho : ∀ a ∈ o.aliases, a.2 ≠ whereKey) {field : String}
    (hf : IsField field) : o.resolve field ≠ whereKey := by
  have hword : isOperatorKey field = false := isOperatorKey_eq_false (isField_iff.mp hf).1.chars
  exact Options.resolve_of_forall (P := (· ≠ whereKey)) ho
    (ne_of_isOperatorKey hword isOperatorKey_whereKey)

namespace Query

/-- Nothing is ready-made in the expression of texts but the empty
document, for a group of no clauses. -/
theorem IsTextual.fragments {q : Query} (hq : q.IsTextual) {e : Expr}
    (h : q.parse = .ok (some e)) : ∀ doc ∈ e.fragments, doc = [] := by
  refine of_parse (P := fun e => ∀ doc ∈ e.fragments, doc = []) ?_ ?_ ?_ h
  · exact fun doc hdoc => List.mem_singleton.mp hdoc
  · intro k es _ hes doc hdoc
    rw [k.collect_join (Expr.fragments_group k)] at hdoc
    obtain ⟨e, he, hdoc⟩ := List.mem_flatMap.mp hdoc
    exact hes e he doc hdoc
  · intro c hc e hce doc hdoc
    obtain ⟨s, rfl⟩ := hq c hc
    rw [(Expr.written_of_parse hce).fragments] at hdoc
    cases hdoc

variable {q : Query} {e : Expr} {o : Options}

/-- **The expression of texts fails as its leaves say**, where nothing is
rejected. -/
theorem IsTextual.toFilter_verdict (hq : q.IsTextual) (h : q.parse = .ok (some e))
    (ho : ∀ a ∈ o.aliases, a.2 ≠ whereKey) (hp : o.collision ≠ .reject) :
    Outcomes (fun d _ => Filter.Joinable d) (e.toFilter o) (verdict o (e.leaves 0)) := by
  have hproper := (regular_of_parse h).proper
  refine Filter.ofExpr_verdict hp ⟨fun c hc => (hproper c hc).takes, fun c hc => ?_,
    fun doc hdoc => ?_⟩ 0
  · exact resolve_ne_whereKey ho (hproper c hc).field
  · rw [hq.fragments h doc hdoc]
    rfl

/-- **The expression of texts fails for two reasons only**, and for one
where nothing is rejected. -/
theorem IsTextual.toFilter_error (hq : q.IsTextual) (h : q.parse = .ok (some e))
    (ho : ∀ a ∈ o.aliases, a.2 ≠ whereKey) {err : FilterError} (herr : e.toFilter o = .error err) :
    (∃ field, err = .unsafeField field)
      ∨ o.collision = .reject ∧ ∃ field, err = .fieldConflict field := by
  have hother : ∀ o' : Options, o'.aliases = o.aliases → o'.collision ≠ .reject →
      e.toFilter o' = .error err → ∃ field, err = .unsafeField field := by
    intro o' haliases hp herr'
    rcases (hq.toFilter_verdict h (haliases ▸ ho) hp).inversion with ⟨err', hx, hy⟩ | ⟨d, _, hx, -⟩
    · obtain rfl := Except.error.inj (hx.symm.trans herr')
      exact exists_unsafeField_of_verdict hy
    · exact absurd (hx.symm.trans herr') (by simp)
  by_cases hp : o.collision = .reject
  · obtain ⟨collision, aliases⟩ := o
    obtain rfl : collision = .reject := hp
    -- short of a collision, the run is one that rejects nothing
    rcases Filter.ofExpr_agrees .lastWins e false with ⟨field, hfield⟩ | hsame
    · obtain rfl := Except.error.inj (hfield.symm.trans herr)
      exact .inr ⟨rfl, field, rfl⟩
    · exact .inl (hother ⟨.lastWins, aliases⟩ rfl (by simp) (hsame.trans herr))
  · exact .inl (hother o rfl hp herr)

/-- A query fails as its expression does. -/
theorem toFilter_eq_error_iff (h : q.parse = .ok (some e)) {err : QueryError} :
    q.toFilter o = .error err ↔ ∃ err', e.toFilter o = .error err' ∧ err = .filter err' := by
  rw [toFilter, h]
  dsimp only
  cases e.toFilter o with
  | error err' => simp [eq_comm]
  | ok d => simp

/-- **Why a query of texts has no filter.** Let it be parsed, and let no
alias be the key of code. It fails for a field that code cannot name, or,
where collisions are rejected, for a field that is constrained twice, and
for nothing else. Where they are not rejected, it fails exactly when some
comparison has to be code on a field that code cannot name, and the error
names the field of the first such comparison. -/
theorem toFilter_failures (q : Query) (e : Expr) (o : Options) (hq : q.IsTextual)
    (h : q.parse = .ok (some e)) (ho : ∀ a ∈ o.aliases, a.2 ≠ whereKey) :
    (∀ err, q.toFilter o = .error err →
      (∃ field, err = .filter (.unsafeField field))
        ∨ o.collision = .reject ∧ ∃ field, err = .filter (.fieldConflict field))
    ∧ (o.collision ≠ .reject →
      ((∃ err, q.toFilter o = .error err) ↔ ∃ l ∈ e.leaves 0, l.isUnsafe o = true)
      ∧ ∀ before l after, e.leaves 0 = before ++ l :: after →
        (∀ b ∈ before, b.isUnsafe o = false) → l.isUnsafe o = true →
        q.toFilter o = .error (.filter (.unsafeField (o.resolve l.comparison.field)))) := by
  refine ⟨fun err herr => ?_, fun hp => ?_⟩
  · obtain ⟨err', herr', rfl⟩ := (toFilter_eq_error_iff h).mp herr
    rcases hq.toFilter_error h ho herr' with ⟨field, rfl⟩ | ⟨hreject, field, rfl⟩
    · exact .inl ⟨field, rfl⟩
    · exact .inr ⟨hreject, field, rfl⟩
  · have houtcomes := hq.toFilter_verdict h ho hp
    -- the run and the leaves fail together, with one error
    have hsame : ∀ err, verdict o (e.leaves 0) = .error err → e.toFilter o = .error err := by
      intro err hverdict
      rw [hverdict] at houtcomes
      cases houtcomes.inversion with
      | inl herror =>
        obtain ⟨err', hx, hy⟩ := herror
        rw [hx, Except.error.inj hy]
      | inr hok =>
        obtain ⟨d, _, -, hy, -⟩ := hok
        cases hy
    refine ⟨⟨?_, ?_⟩, fun before l after hleaves hbefore hl => ?_⟩
    · rintro ⟨err, herr⟩
      obtain ⟨err', herr', rfl⟩ := (toFilter_eq_error_iff h).mp herr
      by_contra hnone
      have hsafe : ∀ l ∈ e.leaves 0, l.isUnsafe o = false :=
        fun l hl => Bool.eq_false_iff.mpr fun hcannot => hnone ⟨l, hl, hcannot⟩
      rw [verdict_eq_ok_iff.mpr hsafe, herr'] at houtcomes
      cases houtcomes
    · rintro ⟨l, hl, hcannot⟩
      cases hverdict : verdict o (e.leaves 0) with
      | error err => exact ⟨_, (toFilter_eq_error_iff h).mpr ⟨err, hsame err hverdict, rfl⟩⟩
      | ok u =>
        have hsafe := verdict_eq_ok_iff.mp hverdict l hl
        rw [hcannot] at hsafe
        cases hsafe
    · refine (toFilter_eq_error_iff h).mpr ⟨_, hsame _ ?_, rfl⟩
      rw [hleaves]
      exact verdict_of_first hbefore hl

/-- A length that is just given is no code, and becomes code under a
negation. Its field is the one that is named, by its alias, and the type
to the right is of no account. -/
theorem toFilter_failures_negated :
    (Query.text "2nd size 1 and not (2nd size 1 or 3rd type string)").toFilter
      ⟨.andWrap, [("2nd", "x.2nd")]⟩ = .error (.filter (.unsafeField "x.2nd")) := by
  let size : Grammar.Test := ⟨"2nd", .size "size" (by decide) none (.number "1")⟩
  let type : Grammar.Test := ⟨"3rd", .typeOf (.word "string")⟩
  let q : Grammar.Query := .last (.and (.primary (.test size)) (.last (.not (.primary
    (.parens (.or (.last (.primary (.test size))) (.last (.last (.primary (.test type))))))))))
  let e : Expr := .all [.comparison ⟨"2nd", .size .eq, .int 1⟩,
    .not (.any [.comparison ⟨"2nd", .size .eq, .int 1⟩,
      .comparison ⟨"3rd", .typeOf, .typeName .string⟩])]
  have hsize : size.constraint.value? = some (.int 1) := by cbv
  have htype : type.constraint.value? = some (.typeName .string) := by cbv
  have htree : q.tree.simplify = e := by
    show Expr.all [.comparison size.comparison,
      .not (.any [.comparison size.comparison, .comparison type.comparison])] = e
    rw [Grammar.Test.comparison_eq hsize, Grammar.Test.comparison_eq htype]
    rfl
  have hadmissible : q.Admissible := by
    refine ⟨?_, by decide⟩
    have hpath : ∀ field ∈ ["2nd", "3rd"], ∀ segment ∈ Text.segments '.' field.toList,
        segment ≠ [] := by
      decide
    have htest : size.Admissible :=
      ⟨hpath "2nd" (by decide), .int 1, hsize, 1, rfl, by decide, fun h => by cases h⟩
    exact List.forall_mem_cons.mpr ⟨htest, List.forall_mem_cons.mpr ⟨htest,
      List.forall_mem_singleton.mpr ⟨hpath "3rd" (by decide), _, htype, .string, rfl⟩⟩⟩
  have hparse : Expr.parse "2nd size 1 and not (2nd size 1 or 3rd type string)" = .ok e :=
    Grammar.parse_eq_ok_iff_derives.mpr ⟨q, ⟨[⟨.word "2nd", 0⟩, ⟨.word "size", 4⟩,
      ⟨.literal (.number "1"), 9⟩, ⟨.keyword .and, 11⟩, ⟨.keyword .not, 15⟩, ⟨.openParen, 19⟩,
      ⟨.word "2nd", 20⟩, ⟨.word "size", 24⟩, ⟨.literal (.number "1"), 29⟩, ⟨.keyword .or, 31⟩,
      ⟨.word "3rd", 34⟩, ⟨.keyword .type, 38⟩, ⟨.word "string", 43⟩, ⟨.closeParen, 49⟩,
      ⟨.eof, 50⟩], by cbv, rfl⟩, hadmissible, htree.symm⟩
  have hquery : (Query.text "2nd size 1 and not (2nd size 1 or 3rd type string)").parse
      = .ok (some e) := by
    have hblank : Text.isAllBlank "2nd size 1 and not (2nd size 1 or 3rd type string)" = false := by
      decide
    rw [parse, if_neg (by rw [hblank]; decide), hparse]
    rfl
  have htextual :
      (Query.text "2nd size 1 and not (2nd size 1 or 3rd type string)").IsTextual :=
    List.forall_mem_singleton.mpr ⟨_, rfl⟩
  refine ((toFilter_failures _ e ⟨.andWrap, [("2nd", "x.2nd")]⟩ htextual hquery (by decide)).2
    (by decide)).2 [⟨⟨"2nd", .size .eq, .int 1⟩, 0⟩] ⟨⟨"2nd", .size .eq, .int 1⟩, 1⟩
    [⟨⟨"3rd", .typeOf, .typeName .string⟩, 1⟩] rfl ?_ ?_
  · exact List.forall_mem_singleton.mpr (by decide)
  · decide

end Query

end DocFilter
