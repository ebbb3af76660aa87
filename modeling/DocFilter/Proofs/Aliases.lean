import DocFilter.Proofs.Translation

/-!
# Aliases are a renaming

An alias is looked up when a comparison is translated, and the path that it
stands for goes wherever the field would have gone: into keys, into code
and into errors. The same filter is found by renaming the fields first,
all at once, and translating without aliases (`Expr.toFilter_aliases`). A
path that happens to be the name of an alias is not looked up again, and
two fields that have one path collide as one field does with itself.
Ready-made documents hold no fields of comparisons and stay as they are.

There is one place where a field goes in by its own name: the error for a
literal that the operator does not work on. So the operators have to suit
their literals (`Operator.Suits`).
-/

namespace DocFilter

/-- **A literal of the kind that an operator works on.** A query asks for
more, such as a number where there is an order, and a translation does not. -/
inductive Operator.Suits : Operator → Literal → Prop where
  /-- A relation works on every literal. -/
  | relation (r : Relation) (value : Literal) : Suits (.relation r) value
  /-- A test of a type works on the name of one. -/
  | typeOf (type : TypeName) : Suits .typeOf (.typeName type)
  /-- A test whether a field is there works on a truth value. -/
  | presence (b : Bool) : Suits .presence (.bool b)
  /-- A match works on a text. -/
  | pattern (p : String) : Suits .pattern (.text p)
  /-- A relation on a length works on an integer. -/
  | size (r : Relation) (n : Int) : Suits (.size r) (.int n)

/-! ## Renaming -/

/-- The comparison with another field. -/
def Comparison.rename (f : String → String) (c : Comparison) : Comparison :=
  { c with field := f c.field }

mutual

/-- **The expression with every field of a comparison replaced** by what a
renaming makes of it. -/
def Expr.rename (f : String → String) : Expr → Expr
  | .comparison c => .comparison (c.rename f)
  | .all operands => .all (renameAll f operands)
  | .any operands => .any (renameAll f operands)
  | .not operand => .not (rename f operand)
  | .fragment doc => .fragment doc

/-- Every operand renamed. -/
def Expr.renameAll (f : String → String) : List Expr → List Expr
  | [] => []
  | e :: rest => rename f e :: renameAll f rest

end

namespace Filter

variable {f : String → String} {o o' : Options} {negated : Bool} {operands : List Expr}

/-- A renamed ready-made document still stands as it is. -/
@[simp] theorem isRaw_rename (e : Expr) : isRaw negated (e.rename f) = isRaw negated e := by
  cases e <;> rfl

/-- **A comparison of a renamed field** has the document of the comparison,
if the two fields have one path. -/
theorem ofComparison_rename {c : Comparison} (hpath : o'.resolve (f c.field) = o.resolve c.field)
    (hs : c.op.Suits c.value) :
    ofComparison o' negated (c.rename f) = ofComparison o negated c := by
  obtain ⟨field, op, value⟩ := c
  unfold ofComparison
  dsimp only [Comparison.rename] at hpath ⊢
  rw [hpath]
  cases hs with
  | relation r value => rfl
  | typeOf type => rfl
  | presence b => rfl
  | pattern p => rfl
  | size r n => rfl

/-- Operands that have the same documents are merged alike. -/
theorem allOf_rename (hcollision : o'.collision = o.collision)
    (ih : ∀ e ∈ operands, ofExpr o' negated (e.rename f) = ofExpr o negated e)
    (m : Conjunction) :
    allOf o' negated m (Expr.renameAll f operands) = allOf o negated m operands := by
  induction operands generalizing m with
  | nil => rw [Expr.renameAll, allOf, allOf]
  | cons e rest ihr =>
    rw [List.forall_mem_cons] at ih
    rw [Expr.renameAll, allOf_cons, allOf_cons, ih.1, hcollision, isRaw_rename]
    refine congrArg _ (funext fun doc => congrArg _ (funext fun m' => ?_))
    exact ihr ih.2 m'

/-- And they are listed alike. -/
theorem anyOf_rename (ih : ∀ e ∈ operands, ofExpr o' negated (e.rename f) = ofExpr o negated e) :
    anyOf o' negated (Expr.renameAll f operands) = anyOf o negated operands := by
  induction operands with
  | nil => rw [Expr.renameAll, anyOf, anyOf]
  | cons e rest ihr =>
    rw [List.forall_mem_cons] at ih
    rw [Expr.renameAll, anyOf_cons, anyOf_cons, ih.1, ihr ih.2]

/-- **Renaming fields to fields of the same path keeps the document**, under
either sign. -/
theorem ofExpr_rename (hcollision : o'.collision = o.collision)
    (hpath : ∀ field, o'.resolve (f field) = o.resolve field) {e : Expr}
    (hs : ∀ c ∈ e.comparisons, c.op.Suits c.value) (negated : Bool) :
    ofExpr o' negated (e.rename f) = ofExpr o negated e := by
  induction e using Expr.induction generalizing negated with
  | comparison c =>
    rw [Expr.rename, ofExpr, ofExpr]
    exact ofComparison_rename (hpath c.field) (hs c List.mem_cons_self)
  | all operands ih =>
    have hall := fun sign e he => ih e he (fun c hc => hs c (Expr.mem_comparisonsOf he hc)) sign
    rw [Expr.rename]
    cases negated with
    | false => rw [ofExpr_all, ofExpr_all, allOf_rename hcollision (hall false)]
    | true => rw [ofExpr_not_all, ofExpr_not_all, anyOf_rename (hall true)]
  | any operands ih =>
    have hall := fun sign e he => ih e he (fun c hc => hs c (Expr.mem_comparisonsOf he hc)) sign
    rw [Expr.rename]
    cases negated with
    | false => rw [ofExpr_any, ofExpr_any, anyOf_rename (hall false)]
    | true => rw [ofExpr_not_any, ofExpr_not_any, allOf_rename hcollision (hall true)]
  | not operand ih =>
    rw [Expr.rename, ofExpr, ofExpr]
    exact ih hs (!negated)
  | fragment doc => rfl

end Filter

/-- **Aliases are one renaming of all fields at once.** Let every operator
suit its literal. The expression with every field that has an alias
replaced by the path of the alias, and every other left as it is, has
without aliases the filter, or the error, that the expression has with
them. -/
theorem Expr.toFilter_aliases (collision : CollisionPolicy) (aliases : List (String × String))
    (e : Expr) (hs : ∀ c ∈ e.comparisons, c.op.Suits c.value) :
    e.toFilter ⟨collision, aliases⟩
      = (e.rename fun field => (aliases.lookup field).getD field).toFilter ⟨collision, []⟩ := by
  -- without aliases a path is its own path, so nothing is looked up a second time
  have hpath : ∀ field, Options.resolve ⟨collision, []⟩ ((aliases.lookup field).getD field)
      = Options.resolve ⟨collision, aliases⟩ field := fun _ => rfl
  refine (Filter.ofExpr_rename ?_ hpath hs false).symm
  rfl

/-- Two fields get one path, which is itself the name of an alias. Their
constraints are united under it, the field of that name goes into code by
its own path, and the ready-made document keeps its field. -/
theorem Expr.toFilter_aliases_chained :
    (Expr.all [.comparison ⟨"a", .relation .gt, .int 1⟩, .comparison ⟨"d", .relation .lt, .int 5⟩,
        .not (.comparison ⟨"b", .typeOf, .typeName .string⟩),
        .fragment [("a", .int 1)]]).toFilter
          ⟨.reject, [("a", "b"), ("b", "c.0"), ("d", "b")]⟩
      = (Expr.all [.comparison ⟨"b", .relation .gt, .int 1⟩,
        .comparison ⟨"b", .relation .lt, .int 5⟩,
        .not (.comparison ⟨"c.0", .typeOf, .typeName .string⟩),
        .fragment [("a", .int 1)]]).toFilter ⟨.reject, []⟩
    ∧ (Expr.all [.comparison ⟨"b", .relation .gt, .int 1⟩,
        .comparison ⟨"b", .relation .lt, .int 5⟩,
        .not (.comparison ⟨"c.0", .typeOf, .typeName .string⟩),
        .fragment [("a", .int 1)]]).toFilter ⟨.reject, []⟩
      = .ok [("b", .document [("$gt", .int 1), ("$lt", .int 5)]),
        ("$where", .text "!(typeof this.c[0] == \"string\")"), ("a", .int 1)] := by
  refine ⟨toFilter_aliases .reject [("a", "b"), ("b", "c.0"), ("d", "b")] _ fun c hc => ?_, rfl⟩
  simp only [comparisons, comparisonsOf, List.append_nil, List.cons_append, List.nil_append,
    List.mem_cons, List.not_mem_nil, or_false] at hc
  rcases hc with rfl | rfl | rfl
  · exact .relation _ _
  · exact .relation _ _
  · exact .typeOf _

end DocFilter
