import DocFilter.Query
import Mathlib.Data.Set.List

/-!
# Queries as values

A query can be written as a value and read back. There are three shapes
that a value can have as a query, and they are told from the value alone:
a text, a list of lists of clauses (`Value.IsGroups`), and a list of
clauses (`Value.IsClauses`). The empty list has both of the last two
shapes, and is the only value with more than one; it is read as groups.

Reading and writing fit each other (`Query.ofValue?_eq_some_iff`): a value
is read as the query that is written as it, and of the two queries that
are written as the empty list one is never read. Both of these ask for
nothing, so that no query means anything else once it was written and
read.

That two functions fit each other is one statement, `Value.Inverse`, and
it is carried from clauses to lists of them, and from there to groups
(`Value.Inverse.mapM`).
-/

namespace DocFilter

/-! ## Shapes -/

/-- **A value that is a clause**: a text or a document. -/
def Value.IsClause (v : Value) : Prop :=
  (∃ s, v = .text s) ∨ ∃ doc, v = .document doc

/-- **A list of clauses.** -/
def Value.IsClauses (v : Value) : Prop :=
  ∃ items, v = .list items ∧ ∀ item ∈ items, item.IsClause

/-- **A list of lists of clauses.** -/
def Value.IsGroups (v : Value) : Prop :=
  ∃ items, v = .list items ∧ ∀ item ∈ items, item.IsClauses

/-! ## Reading what is written -/

/-- **A reader and a writer that fit each other**: a value is read as the
thing that is written as it, and as nothing else. -/
def Value.Inverse {α : Type} (read : Value → Option α) (write : α → Value) : Prop :=
  ∀ v a, read v = some a ↔ write a = v

/-- **What fits for things fits for lists of them**, all items being read
or none. -/
theorem Value.Inverse.mapM {α : Type} {read : Value → Option α} {write : α → Value}
    (h : Inverse read write) (items : List Value) (as : List α) :
    items.mapM read = some as ↔ as.map write = items := by
  induction items generalizing as with
  | nil => simp [eq_comm]
  | cons v rest ih =>
    have hcons : (v :: rest).mapM read = some as
        ↔ ∃ a as', read v = some a ∧ rest.mapM read = some as' ∧ a :: as' = as := by
      simp [List.mapM_cons, Option.bind_eq_some_iff]
    rw [hcons, List.map_eq_cons_iff]
    simp only [ih, h v]
    constructor
    · rintro ⟨a, as', ha, has, rfl⟩
      exact ⟨a, as', rfl, ha, has⟩
    · rintro ⟨a, as', rfl, ha, has⟩
      exact ⟨a, as', ha, has, rfl⟩

namespace Clause

/-- A value that is a clause is read as one. -/
theorem inverse_toValue : Value.Inverse ofValue? toValue := by
  intro v c
  cases v with
  | text s => cases c <;> simp [ofValue?, toValue, eq_comm]
  | document doc => cases c <;> simp [ofValue?, toValue, eq_comm]
  | _ => cases c <;> simp [ofValue?, toValue]

theorem listOfValues?_eq_mapM (items : List Value) : listOfValues? items = items.mapM ofValue? := by
  induction items with
  | nil => rfl
  | cons v rest ih =>
    rw [listOfValues?, List.mapM_cons, ih]
    cases ofValue? v with
    | none => rfl
    | some c => cases rest.mapM ofValue? <;> rfl

/-- Values are read as the clauses that are written as them. -/
theorem listOfValues?_eq_some_iff {items : List Value} {cs : List Clause} :
    listOfValues? items = some cs ↔ cs.map toValue = items := by
  rw [listOfValues?_eq_mapM, inverse_toValue.mapM]

/-- **Clauses as a value.** -/
def listToValue (cs : List Clause) : Value :=
  .list (cs.map toValue)

/-- A list of clauses is read as these. -/
theorem inverse_listToValue : Value.Inverse listOfValue? listToValue := by
  intro v cs
  unfold listOfValue? listToValue
  split
  · rw [listOfValues?_eq_some_iff, Value.list.injEq]
  · rename_i hno
    exact ⟨fun h => (by cases h), fun h => absurd h.symm (hno _)⟩

theorem isClause_iff {v : Value} : v.IsClause ↔ v ∈ Set.range toValue := by
  constructor
  · rintro (⟨s, rfl⟩ | ⟨doc, rfl⟩)
    · exact ⟨.text s, rfl⟩
    · exact ⟨.fragment doc, rfl⟩
  · rintro ⟨c, rfl⟩
    cases c with
    | text s => exact .inl ⟨s, rfl⟩
    | fragment doc => exact .inr ⟨doc, rfl⟩

theorem isClauses_iff {v : Value} : v.IsClauses ↔ v ∈ Set.range listToValue := by
  constructor
  · rintro ⟨items, rfl, hitems⟩
    have hrange : items ∈ Set.range (List.map toValue) := by
      rw [Set.range_list_map]
      exact fun item hitem => isClause_iff.mp (hitems item hitem)
    obtain ⟨cs, rfl⟩ := hrange
    exact ⟨cs, rfl⟩
  · rintro ⟨cs, rfl⟩
    refine ⟨_, rfl, fun item hitem => ?_⟩
    obtain ⟨c, -, rfl⟩ := List.mem_map.mp hitem
    exact isClause_iff.mpr ⟨c, rfl⟩

end Clause

namespace Query

open Clause (listToValue)

theorem groupsOfValues?_eq_mapM (items : List Value) :
    groupsOfValues? items = items.mapM Clause.listOfValue? := by
  induction items with
  | nil => rfl
  | cons v rest ih =>
    rw [groupsOfValues?, List.mapM_cons, ih]
    cases Clause.listOfValue? v with
    | none => rfl
    | some g => cases rest.mapM Clause.listOfValue? <;> rfl

/-- And as the groups that are written as them. -/
theorem groupsOfValues?_eq_some_iff {items : List Value} {gs : List (List Clause)} :
    groupsOfValues? items = some gs ↔ gs.map listToValue = items := by
  rw [groupsOfValues?_eq_mapM, Clause.inverse_listToValue.mapM]

/-- **Clauses are not groups**, if there are any. -/
theorem map_toValue_ne_map_listToValue {cs : List Clause} (hne : cs ≠ [])
    (gs : List (List Clause)) : gs.map listToValue ≠ cs.map Clause.toValue := by
  intro h
  obtain ⟨c, rest, rfl⟩ := List.exists_cons_of_ne_nil hne
  obtain ⟨g, gs', -, hg, -⟩ := List.map_eq_cons_iff.mp h
  cases c <;> cases hg

/-- **A value is read as the query that is written as it**, but the empty
list is not read as clauses. -/
theorem ofValue?_eq_some_iff {v : Value} {q : Query} :
    ofValue? v = some q ↔ q.toValue = v ∧ q ≠ .clauses [] := by
  constructor
  · intro h
    unfold ofValue? at h
    split at h
    · obtain rfl := Option.some.inj h
      exact ⟨rfl, Query.noConfusion⟩
    · rename_i items
      split at h
      · rename_i gs hgs
        obtain rfl := Option.some.inj h
        obtain rfl := groupsOfValues?_eq_some_iff.mp hgs
        exact ⟨rfl, Query.noConfusion⟩
      · rename_i hnone
        obtain ⟨cs, hcs, rfl⟩ := Option.map_eq_some_iff.mp h
        obtain rfl := Clause.listOfValues?_eq_some_iff.mp hcs
        refine ⟨rfl, fun hnil => ?_⟩
        -- no clauses would have been read as groups
        obtain rfl := Query.clauses.inj hnil
        cases hnone
    · cases h
  · rintro ⟨rfl, hne⟩
    cases q with
    | text s => rfl
    | groups gs =>
      have hgs : groupsOfValues? (gs.map fun g => .list (g.map Clause.toValue)) = some gs :=
        groupsOfValues?_eq_some_iff.mpr rfl
      rw [toValue, ofValue?, hgs]
    | clauses cs =>
      have hcs : cs ≠ [] := fun hnil => hne (hnil ▸ rfl)
      have hnone : groupsOfValues? (cs.map Clause.toValue) = none := by
        rw [Option.eq_none_iff_forall_ne_some]
        intro gs hgs
        exact map_toValue_ne_map_listToValue hcs gs (groupsOfValues?_eq_some_iff.mp hgs)
      have hlist : Clause.listOfValues? (cs.map Clause.toValue) = some cs :=
        Clause.listOfValues?_eq_some_iff.mpr rfl
      rw [toValue, ofValue?, hnone, hlist]
      rfl

/-- **The values that are written as queries are those of the three
shapes.** -/
theorem exists_toValue_iff {v : Value} :
    (∃ q : Query, q.toValue = v) ↔ (∃ s, v = .text s) ∨ v.IsGroups ∨ v.IsClauses := by
  constructor
  · rintro ⟨q, rfl⟩
    cases q with
    | text s => exact .inl ⟨s, rfl⟩
    | groups gs =>
      refine .inr (.inl ⟨_, rfl, fun item hitem => ?_⟩)
      obtain ⟨g, -, rfl⟩ := List.mem_map.mp hitem
      exact Clause.isClauses_iff.mpr ⟨g, rfl⟩
    | clauses cs => exact .inr (.inr (Clause.isClauses_iff.mpr ⟨cs, rfl⟩))
  · rintro (⟨s, rfl⟩ | ⟨items, rfl, hitems⟩ | hclauses)
    · exact ⟨.text s, rfl⟩
    · have hrange : items ∈ Set.range (List.map listToValue) := by
        rw [Set.range_list_map]
        exact fun item hitem => Clause.isClauses_iff.mp (hitems item hitem)
      obtain ⟨gs, rfl⟩ := hrange
      exact ⟨.groups gs, rfl⟩
    · obtain ⟨cs, rfl⟩ := Clause.isClauses_iff.mp hclauses
      exact ⟨.clauses cs, rfl⟩

/-- **What a query is read as once it was written**: the query itself, or
no groups in place of no clauses. -/
theorem ofValue?_toValue (q : Query) :
    ofValue? q.toValue = some q ∨ q = .clauses [] ∧ ofValue? q.toValue = some (.groups []) := by
  by_cases hq : q = .clauses []
  · subst hq
    exact .inr ⟨rfl, rfl⟩
  · exact .inl (ofValue?_eq_some_iff.mpr ⟨rfl, hq⟩)

/-- **Queries survive being written as values.** A value is read as a query
exactly when it is a text, a list of lists of clauses or a list of clauses.
What it is read as is written as the same value again, with the entries of
its documents in their order. A query that is written is read as itself;
only no clauses are read as no groups. Whatever is read has the same
expression, none or the same error. -/
theorem ofValue?_roundTrip :
    (∀ v : Value, (∃ q, ofValue? v = some q)
        ↔ (∃ s, v = .text s) ∨ v.IsGroups ∨ v.IsClauses)
      ∧ (∀ v q, ofValue? v = some q → q.toValue = v)
      ∧ (∀ q : Query, q ≠ .clauses [] → ofValue? q.toValue = some q)
      ∧ ofValue? (Query.clauses []).toValue = some (.groups [])
      ∧ ∀ q : Query, ∃ q', ofValue? q.toValue = some q' ∧ q'.parse = q.parse := by
  refine ⟨fun v => ?_, fun v q h => (ofValue?_eq_some_iff.mp h).1,
    fun q hq => ofValue?_eq_some_iff.mpr ⟨rfl, hq⟩, rfl, fun q => ?_⟩
  · rw [← exists_toValue_iff]
    constructor
    · rintro ⟨q, hq⟩
      exact ⟨q, (ofValue?_eq_some_iff.mp hq).1⟩
    · rintro ⟨q, rfl⟩
      rcases q.ofValue?_toValue with hself | ⟨-, hempty⟩
      · exact ⟨q, hself⟩
      · exact ⟨.groups [], hempty⟩
  · rcases q.ofValue?_toValue with hself | ⟨rfl, hempty⟩
    · exact ⟨q, hself, rfl⟩
    · exact ⟨.groups [], hempty, rfl⟩

/-- A group with a text and a document whose keys are not in order, and a
group of no clauses. One document more, and neither shape is left. -/
theorem ofValue?_roundTrip_nested :
    ofValue?
        (.list [.list [.text "a = 1", .document [("b", .list [.null]), ("a", .int 2)]], .list []])
        = some (.groups [[.text "a = 1", .fragment [("b", .list [.null]), ("a", .int 2)]], []])
      ∧ (Query.groups
          [[.text "a = 1", .fragment [("b", .list [.null]), ("a", .int 2)]], []]).toValue
        = .list [.list [.text "a = 1", .document [("b", .list [.null]), ("a", .int 2)]], .list []]
      ∧ ofValue? (Query.groups
          [[.text "a = 1", .fragment [("b", .list [.null]), ("a", .int 2)]], []]).toValue
        = some (.groups [[.text "a = 1", .fragment [("b", .list [.null]), ("a", .int 2)]], []])
      ∧ ¬ ∃ q, ofValue? (.list [.list [.text "a = 1"], .document []]) = some q := by
  obtain ⟨hshapes, hwrite, hread, -, -⟩ := ofValue?_roundTrip
  have hgroups : ofValue?
      (.list [.list [.text "a = 1", .document [("b", .list [.null]), ("a", .int 2)]], .list []])
      = some (.groups [[.text "a = 1", .fragment [("b", .list [.null]), ("a", .int 2)]], []]) := rfl
  refine ⟨hgroups, hwrite _ _ hgroups, hread _ Query.noConfusion, ?_⟩
  rw [hshapes]
  rintro (⟨s, hs⟩ | ⟨items, hitems, hall⟩ | ⟨items, hitems, hall⟩)
  · cases hs
  · obtain rfl := Value.list.inj hitems
    obtain ⟨inner, hinner, -⟩ := hall (.document []) (by simp)
    cases hinner
  · obtain rfl := Value.list.inj hitems
    obtain ⟨s, hs⟩ | ⟨doc, hdoc⟩ := hall (.list [.text "a = 1"]) (by simp)
    · cases hs
    · cases hdoc

end Query

end DocFilter
