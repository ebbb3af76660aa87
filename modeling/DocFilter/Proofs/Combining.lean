import DocFilter.Proofs.Merging
import Mathlib.Data.List.Induction

/-!
# Constraints that stand side by side

Two constraints on a field can be **combined** when both are maps of
operators and no operator is in both (`Value.combines`). A merge never
asks this of two constraints. It asks whether a new constraint can be
united with *what the field holds by then*, which may be the union of
many.

The two questions come to the same: a constraint can be united with a
union exactly when it can be combined with every constraint in it
(`Unites.combines_iff`). What a field holds after a list of constraints
can therefore be said by pairs alone, and `kept` says it: the constraints
in a row that are all combined with each other, to which a new one is
added, or which, if it cannot be combined with all of them, it replaces or
leaves as they are, as the policy has it.

What a constraint demands is said one operator at a time
(`Value.Requires`), so that it can be asked whether the demand is still
there when its constraint has become part of a union.
-/

namespace DocFilter

open Document (get? keys)

/-! ## Two constraints -/

namespace Value

/-- The entries of a map; any other value has none. -/
def entries : Value → Document
  | .document map => map
  | _ => []

/-- The keys of a map; any other value has none. -/
def operators (v : Value) : List String :=
  keys v.entries

/-- **A map of operators**: there is a key, and every key is an operator. -/
def isOperators (v : Value) : Bool :=
  !v.operators.isEmpty && v.operators.all isOperatorKey

/-- **Two constraints that stand side by side**: both are maps of
operators, and no operator is in both. -/
def combines (v w : Value) : Bool :=
  v.isOperators && w.isOperators && v.operators.all fun op => !w.operators.contains op

variable {v w : Value}

theorem isOperators_iff :
    v.isOperators = true ↔ v.operators ≠ [] ∧ ∀ op ∈ v.operators, isOperatorKey op = true := by
  rw [isOperators, Bool.and_eq_true, Bool.not_eq_true', List.isEmpty_eq_false_iff,
    List.all_eq_true]

theorem isOperators_document (map : Document) :
    (Value.document map).isOperators = map.isOperatorMap := by
  cases map <;> rfl

theorem combines_iff :
    v.combines w = true ↔ v.isOperators = true ∧ w.isOperators = true
      ∧ ∀ op ∈ v.operators, op ∉ w.operators := by
  simp [combines, and_assoc]

/-- Sharing a key is mutual. -/
theorem any_has_eq_not_all (l r : Document) :
    (!(keys r).any (Document.has l)) = (keys l).all fun op => !(keys r).contains op := by
  rw [Bool.eq_iff_iff, Bool.not_eq_true', List.any_eq_false, List.all_eq_true]
  simp only [Document.has_eq_true_iff, Bool.not_eq_true', List.contains_eq_mem,
    decide_eq_false_iff_not]
  exact ⟨fun h op hl hr => h op hr hl, fun h op hr hl => h op hl hr⟩

/-- **Constraints are united exactly when they can be combined.** -/
theorem uniteOperators?_eq (v w : Value) :
    v.uniteOperators? w
      = if v.combines w then some (.document (Document.append v.entries w.entries)) else none := by
  cases v with
  | document l =>
    cases w with
    | document r =>
      show (if _ then _ else _) = if (_ && _ && _) = true then _ else _
      rw [isOperators_document, isOperators_document, any_has_eq_not_all]
      rfl
    | _ => simp [uniteOperators?, combines, isOperators, operators, entries]
  | _ => rfl

theorem uniteOperators?_eq_some_iff {both : Value} :
    v.uniteOperators? w = some both
      ↔ v.combines w = true ∧ .document (Document.append v.entries w.entries) = both := by
  rw [uniteOperators?_eq]
  cases v.combines w <;> simp

theorem uniteOperators?_eq_none_iff : v.uniteOperators? w = none ↔ v.combines w = false := by
  rw [uniteOperators?_eq]
  cases v.combines w <;> simp

/-- A union has the keys of both. -/
theorem mem_operators_union (l r : Document) (op : String) :
    op ∈ (Value.document (Document.append l r)).operators ↔ op ∈ keys l ∨ op ∈ keys r := by
  show op ∈ keys (r.foldl _ l) ↔ _
  induction r generalizing l with
  | nil => simp
  | cons e rest ih =>
    obtain ⟨k, x⟩ := e
    rw [List.foldl_cons, ih, Document.keys_insert, Document.keys_cons, List.mem_cons]
    by_cases hk : k ∈ keys l
    · rw [if_pos hk]
      exact ⟨fun h => h.imp_right .inr, fun h => h.elim .inl fun h => h.elim
        (fun h => .inl (h ▸ hk)) .inr⟩
    · rw [if_neg hk, List.mem_append, List.mem_singleton, or_assoc]

/-- A union is a map of operators again. -/
theorem isOperators_union (h : v.combines w = true) :
    (Value.document (Document.append v.entries w.entries)).isOperators = true := by
  obtain ⟨hv, hw, -⟩ := combines_iff.mp h
  rw [isOperators_iff] at hv hw ⊢
  obtain ⟨op, hop⟩ := List.exists_mem_of_ne_nil _ hv.1
  refine ⟨List.ne_nil_of_mem ((mem_operators_union _ _ op).mpr (.inl hop)), fun op hmem => ?_⟩
  exact ((mem_operators_union _ _ op).mp hmem).elim (hv.2 op) (hw.2 op)

/-- **What can be combined with a union** can be combined with both of its
parts. -/
theorem combines_union {u : Value} (h : v.combines w = true) :
    (Value.document (Document.append v.entries w.entries)).combines u = true
      ↔ v.combines u = true ∧ w.combines u = true := by
  obtain ⟨hv, hw, -⟩ := combines_iff.mp h
  have hunion := isOperators_union h
  rw [combines_iff, combines_iff, combines_iff]
  simp only [hunion, hv, hw, true_and, mem_operators_union, or_imp, forall_and]
  exact ⟨fun ⟨hu, hl, hr⟩ => ⟨⟨hu, hl⟩, hu, hr⟩, fun ⟨⟨hu, hl⟩, _, hr⟩ => ⟨hu, hl, hr⟩⟩

end Value

/-! ## What a constraint demands -/

/-- **One demand of a constraint.** -/
inductive Requirement where
  /-- An operator with its operand. -/
  | operator (op : String) (operand : Value)
  /-- A value as a whole. -/
  | whole (value : Value)

/-- **The demands of a constraint**: each operator of a map of operators,
and any other value as a whole. -/
def Value.Requires (v : Value) : Requirement → Prop
  | .operator op operand => v.isOperators = true ∧ (op, operand) ∈ v.entries
  | .whole value => v.isOperators = false ∧ v = value

/-- **A demand that a document makes of a field.** -/
def Document.Imposes (doc : Document) (field : String) (c : Requirement) : Prop :=
  ∃ v, get? doc field = some v ∧ v.Requires c

/-- **A union demands what its parts demand**, if they give each key once. -/
theorem Value.requires_union {v w : Value} (h : v.combines w = true) (hw : w.operators.Nodup)
    (c : Requirement) :
    (Value.document (Document.append v.entries w.entries)).Requires c
      ↔ v.Requires c ∨ w.Requires c := by
  obtain ⟨hvo, hwo, hdisjoint⟩ := combines_iff.mp h
  have happend : Document.append v.entries w.entries = v.entries ++ w.entries :=
    Document.append_eq_of_disjoint _ hw fun op hop hmem => hdisjoint op hmem hop
  have hunion := isOperators_union h
  cases c with
  | operator op operand =>
    show _ ∧ (op, operand) ∈ Document.append v.entries w.entries ↔ (_ ∧ _) ∨ (_ ∧ _)
    rw [happend, List.mem_append, and_iff_right (happend ▸ hunion), and_iff_right hvo,
      and_iff_right hwo]
  | whole value =>
    show _ ∧ _ ↔ (_ ∧ _) ∨ (_ ∧ _)
    rw [hunion, hvo, hwo]
    simp

/-! ## Constraints in a row -/

/-- **The union of constraints in a row**, each combined with those before
it. -/
inductive Unites : List Value → Value → Prop where
  /-- One constraint by itself. -/
  | one (v : Value) : Unites [v] v
  /-- One more. -/
  | more {run : List Value} {union v : Value} (h : Unites run union)
    (hc : union.combines v = true) :
    Unites (run ++ [v]) (.document (Document.append union.entries v.entries))

namespace Unites

variable {run : List Value} {union : Value}

/-- **A constraint can be united with a union exactly when it can be
combined with every constraint in it.** -/
theorem combines_iff (h : Unites run union) (v : Value) :
    union.combines v = true ↔ ∀ u ∈ run, u.combines v = true := by
  induction h with
  | one u => simp
  | more _ hc ih => rw [Value.combines_union hc, ih, List.forall_mem_append,
      List.forall_mem_singleton]

/-- **A union demands what its constraints demand**, if they give each key
once. -/
theorem requires_iff (h : Unites run union) (hn : ∀ v ∈ run, v.operators.Nodup) (c : Requirement) :
    union.Requires c ↔ ∃ v ∈ run, v.Requires c := by
  induction h with
  | one v => simp
  | @more run union v _ hc ih =>
    rw [List.forall_mem_append, List.forall_mem_singleton] at hn
    rw [Value.requires_union hc hn.2, ih hn.1]
    simp only [List.mem_append, List.mem_singleton, or_and_right, exists_or, exists_eq_left]

end Unites

/-- **What a field holds**: nothing, or the union of a row of constraints. -/
inductive FieldHolds : List Value → Option Value → Prop where
  /-- Nothing, of no constraints. -/
  | nothing : FieldHolds [] none
  /-- The union of constraints. -/
  | united {run : List Value} {union : Value} (h : Unites run union) :
    FieldHolds run (some union)

/-- **A constraint can be united with what a field holds exactly when it
can be combined with every constraint in it.** -/
theorem FieldHolds.combines_iff {run : List Value} {present : Value}
    (h : FieldHolds run (some present)) (v : Value) :
    present.combines v = true ↔ ∀ u ∈ run, u.combines v = true := by
  cases h with
  | united h => exact h.combines_iff v

theorem FieldHolds.not_forall_combines {run : List Value} {present v : Value}
    (h : FieldHolds run (some present)) (hu : Value.uniteOperators? present v = none) :
    ¬ ∀ u ∈ run, u.combines v = true := by
  rw [← h.combines_iff, Value.uniteOperators?_eq_none_iff.mp hu]
  exact Bool.false_ne_true

/-- **One more constraint in a row.** It joins those that it can be
combined with, if these are all; otherwise it replaces them, or they stay
without it. -/
def keep (policy : CollisionPolicy) (run : List Value) (v : Value) : List Value :=
  if run.all fun u => u.combines v then run ++ [v]
  else if policy = .lastWins then [v] else run

/-- **The constraints that a field holds** after a list of them. -/
def kept (policy : CollisionPolicy) (vs : List Value) : List Value :=
  vs.foldl (keep policy) []

theorem keep_of_forall {run : List Value} {v : Value} (h : ∀ u ∈ run, u.combines v = true)
    (policy : CollisionPolicy) : keep policy run v = run ++ [v] := by
  rw [keep, if_pos (List.all_eq_true.mpr h)]

theorem keep_of_not_forall {run : List Value} {v : Value} (h : ¬ ∀ u ∈ run, u.combines v = true)
    (policy : CollisionPolicy) :
    keep policy run v = if policy = .lastWins then [v] else run := by
  rw [keep, if_neg (fun hall => h (List.all_eq_true.mp hall))]

theorem kept_concat (policy : CollisionPolicy) (vs : List Value) (v : Value) :
    kept policy (vs ++ [v]) = keep policy (kept policy vs) v := by
  rw [kept, List.foldl_append]
  rfl

theorem mem_of_mem_keep {policy : CollisionPolicy} {run : List Value} {v w : Value}
    (h : v ∈ keep policy run w) : v ∈ run ++ [w] := by
  unfold keep at h
  split at h
  · exact h
  · split at h
    · exact List.mem_append_right run h
    · exact List.mem_append_left [w] h

/-- What is kept was there. -/
theorem mem_of_mem_kept {policy : CollisionPolicy} {vs : List Value} {v : Value}
    (h : v ∈ kept policy vs) : v ∈ vs := by
  induction vs using List.reverseRecOn with
  | nil => exact h
  | append_singleton vs w ih =>
    rw [kept_concat] at h
    exact (List.mem_append.mp (mem_of_mem_keep h)).elim
      (fun h => List.mem_append_left [w] (ih h)) (List.mem_append_right vs)

end DocFilter
