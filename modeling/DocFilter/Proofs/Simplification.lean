import DocFilter.Proofs.NormalForm

/-!
# What simplifying computes

Simplifying merges a group into a group of its own kind and takes a lone
operand out of its group. Taking it out can bring a group under one of its
own kind where there was none before, so that the order of the two counts:
the operands are simplified first, and what they contribute is merged last.

`simplify_normalForm` says what comes of it. The result is in normal form,
and an expression is left alone exactly when it is in normal form already.
Nothing is lost on the way: the **atoms** of an expression, the comparisons
and ready-made documents at its leaves, stay in their order and under as
many negations as before (`Expr.atoms`). And nothing changes its meaning:
whatever the truth of the atoms, even of two equal ones at different
places, the expression has the truth it had (`Expr.truthAt`).
-/

namespace DocFilter

/-- **What stands at a leaf** of an expression. -/
inductive Atom where
  /-- A comparison. -/
  | comparison (c : Comparison)
  /-- A ready-made document. -/
  | fragment (doc : Document)

namespace Expr

/-! ## Atoms -/

mutual

/-- **The atoms of an expression**, from left to right, each with the number
of negations above it. -/
def atoms : Expr → List (Atom × Nat)
  | .comparison c => [(.comparison c, 0)]
  | .all operands => atomsOf operands
  | .any operands => atomsOf operands
  | .not operand => (atoms operand).map fun a => (a.1, a.2 + 1)
  | .fragment doc => [(.fragment doc, 0)]

/-- The atoms of operands, from left to right. -/
def atomsOf : List Expr → List (Atom × Nat)
  | [] => []
  | e :: rest => atoms e ++ atomsOf rest

end

@[simp] theorem atomsOf_eq_flatMap (operands : List Expr) :
    atomsOf operands = operands.flatMap atoms := by
  induction operands with
  | nil => rfl
  | cons e rest ih => rw [atomsOf, ih, List.flatMap_cons]

theorem atoms_group (k : Connective) (operands : List Expr) :
    (k.group operands).atoms = operands.flatMap atoms := by
  cases k <;> exact atomsOf_eq_flatMap operands

/-- **Simplifying keeps the atoms**, their order and their negations. -/
@[simp] theorem atoms_simplify (e : Expr) : e.simplify.atoms = e.atoms := by
  refine collect_simplify atoms_group (fun a b hab => ?_) e
  show (atoms a).map _ = (atoms b).map _
  rw [hab]

/-! ## Truth -/

namespace Connective

/-- The truth of a group without operands. -/
def neutral : Connective → Bool
  | .and => true
  | .or => false

/-- The truth of two operands together. -/
def combine : Connective → Bool → Bool → Bool
  | .and, a, b => a && b
  | .or, a, b => a || b

variable (k : Connective)

@[simp] theorem neutral_combine (b : Bool) : k.combine k.neutral b = b := by
  cases k <;> rfl

@[simp] theorem combine_neutral (b : Bool) : k.combine b k.neutral = b := by
  cases k <;> cases b <;> rfl

theorem combine_assoc (a b c : Bool) :
    k.combine (k.combine a b) c = k.combine a (k.combine b c) := by
  cases k with
  | and => exact Bool.and_assoc a b c
  | or => exact Bool.or_assoc a b c

end Connective

mutual

/-- **The truth of an expression** whose first atom is at a place. The
places are those of the atoms from left to right, so that each atom has a
truth of its own. -/
def truthAt (v : Nat → Atom → Bool) (place : Nat) : Expr → Bool
  | .comparison c => v place (.comparison c)
  | .all operands => groupTruthAt .and v place operands
  | .any operands => groupTruthAt .or v place operands
  | .not operand => !truthAt v place operand
  | .fragment doc => v place (.fragment doc)

/-- The truth of operands that a connective joins. -/
def groupTruthAt (k : Connective) (v : Nat → Atom → Bool) (place : Nat) : List Expr → Bool
  | [] => k.neutral
  | e :: rest =>
    k.combine (truthAt v place e) (groupTruthAt k v (place + e.atoms.length) rest)

end

/-- **The truth of an expression**, from the truth of its atoms. -/
def truth (v : Nat → Atom → Bool) (e : Expr) : Bool :=
  e.truthAt v 0

section Truth

variable {k : Connective} {v : Nat → Atom → Bool} {place : Nat}

theorem truthAt_group (operands : List Expr) :
    (k.group operands).truthAt v place = groupTruthAt k v place operands := by
  cases k <;> rfl

@[simp] theorem groupTruthAt_singleton (e : Expr) :
    groupTruthAt k v place [e] = e.truthAt v place :=
  k.combine_neutral _

/-- Operands go on at the place after those before them. -/
theorem groupTruthAt_append (es more : List Expr) :
    groupTruthAt k v place (es ++ more)
      = k.combine (groupTruthAt k v place es)
        (groupTruthAt k v (place + (es.flatMap atoms).length) more) := by
  induction es generalizing place with
  | nil =>
    show _ = k.combine k.neutral _
    rw [Connective.neutral_combine]
    rfl
  | cons e rest ih =>
    rw [List.cons_append, groupTruthAt, groupTruthAt, ih, Connective.combine_assoc,
      List.flatMap_cons, List.length_append, Nat.add_assoc]

/-- **The parts of operands say what the operands say.** -/
theorem groupTruthAt_parts (es : List Expr) :
    groupTruthAt k v place (es.flatMap k.parts) = groupTruthAt k v place es := by
  induction es generalizing place with
  | nil => rfl
  | cons e rest ih =>
    have hpart : groupTruthAt k v place (k.parts e) = e.truthAt v place := by
      rcases k.parts_cases e with ⟨operands, rfl, hparts⟩ | ⟨-, hparts⟩
      · rw [hparts, truthAt_group]
      · rw [hparts, groupTruthAt_singleton]
    rw [List.flatMap_cons, groupTruthAt_append, hpart, k.collect_parts (atoms_group k), ih,
      groupTruthAt]

/-- So does the group that is joined from them. -/
theorem truthAt_join (es : List Expr) :
    (k.join es).truthAt v place = groupTruthAt k v place es := by
  rw [← groupTruthAt_parts]
  rcases k.join_cases es with ⟨e, hone, hjoin⟩ | ⟨-, hjoin⟩
  · rw [hjoin, hone, groupTruthAt_singleton]
  · rw [hjoin, truthAt_group]

/-- Operands may be replaced by others that say the same and have the same
atoms. -/
theorem groupTruthAt_map {f : Expr → Expr} {es : List Expr}
    (hatoms : ∀ e, (f e).atoms = e.atoms)
    (h : ∀ e ∈ es, ∀ place, (f e).truthAt v place = e.truthAt v place) :
    groupTruthAt k v place (es.map f) = groupTruthAt k v place es := by
  induction es generalizing place with
  | nil => rfl
  | cons e rest ih =>
    rw [List.forall_mem_cons] at h
    rw [List.map_cons, groupTruthAt, groupTruthAt, hatoms, h.1, ih h.2]

/-- **Simplifying keeps the truth** of an expression, wherever it stands. -/
theorem truthAt_simplify (e : Expr) (place : Nat) :
    e.simplify.truthAt v place = e.truthAt v place := by
  have hjoin : ∀ (k : Connective) (operands : List Expr),
      (∀ e ∈ operands, ∀ place, e.simplify.truthAt v place = e.truthAt v place) → ∀ place,
      (k.join (simplifyAll operands)).truthAt v place = (k.group operands).truthAt v place := by
    intro k operands ih place
    rw [truthAt_join, truthAt_group, simplifyAll_eq_map, groupTruthAt_map atoms_simplify ih]
  induction e using Expr.induction generalizing place with
  | comparison c => rfl
  | all operands ih => exact hjoin .and operands ih place
  | any operands ih => exact hjoin .or operands ih place
  | not operand ih => exact congrArg Bool.not (ih place)
  | fragment doc => rfl

end Truth

/-! ## Fixed points -/

/-- **What is in normal form is left alone.** -/
theorem IsNormal.simplify_eq {e : Expr} (h : e.IsNormal) : e.simplify = e := by
  have hgroup : ∀ (k : Connective) (operands : List Expr), (∀ e ∈ operands, e.simplify = e) →
      (∀ inner, k.group inner ∉ operands) → operands.length ≠ 1 →
      k.join (simplifyAll operands) = k.group operands := by
    intro k operands ih hflat hone
    have hmap : operands.map simplify = operands := by
      rw [List.map_congr_left ih, List.map_id']
    rw [simplifyAll_eq_map, hmap, Connective.join_eq_group hflat hone]
  induction h with
  | comparison c => rfl
  | all _ hflat hone ih => exact hgroup .and _ ih hflat hone
  | any _ hflat hone ih => exact hgroup .or _ ih hflat hone
  | not _ ih => exact congrArg Expr.not ih
  | fragment doc => rfl

/-- **Simplifying computes the normal form.** What it gives has no group
directly in a group of its own kind and no group of one operand; it leaves
an expression alone exactly when the expression is of that form, so that
simplifying twice is simplifying once; it keeps the atoms, in order and
each under as many negations; and it keeps the truth of the expression,
whatever the truth of the atoms. -/
theorem simplify_normalForm (e : Expr) :
    e.simplify.IsNormal
    ∧ (e.simplify = e ↔ e.IsNormal)
    ∧ e.simplify.simplify = e.simplify
    ∧ e.simplify.atoms = e.atoms
    ∧ ∀ v : Nat → Atom → Bool, e.simplify.truth v = e.truth v := by
  refine ⟨isNormal_simplify e, ⟨fun h => ?_, IsNormal.simplify_eq⟩, ?_, atoms_simplify e,
    fun v => truthAt_simplify e 0⟩
  · rw [← h]
    exact isNormal_simplify e
  · exact (isNormal_simplify e).simplify_eq

/-- A lone operand that is taken out is merged one level up, and a group
without operands goes with it. -/
example (a b c : Comparison) :
    (Expr.all [.any [.all [.comparison a, .comparison b]], .all [],
      .all [.not (.any [.comparison c])]]).simplify
      = .all [.comparison a, .comparison b, .not (.comparison c)] :=
  rfl

end Expr

end DocFilter
