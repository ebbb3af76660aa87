import DocFilter.Proofs.NormalForm
import DocFilter.Query

/-!
# The expressions of lists

A list of clauses has an expression if each clause has one, and a list of
groups if each group has one. What comes out is the `and` of the
expressions of the clauses (`Clause.parseList_eq`), and the `or` of those
of the groups (`Query.parse_groups_eq`). Everything about list-shaped
queries goes through the expressions of their clauses.
-/

namespace DocFilter

/-- Things that each have a counterpart have a list of them. -/
theorem exists_forall₂ {α β : Type} {R : α → β → Prop} {l : List α} (h : ∀ a ∈ l, ∃ b, R a b) :
    ∃ l', List.Forall₂ R l l' := by
  induction l with
  | nil => exact ⟨[], .nil⟩
  | cons a rest ih =>
    rw [List.forall_mem_cons] at h
    obtain ⟨⟨b, hb⟩, hrest⟩ := h
    obtain ⟨l', hl'⟩ := ih hrest
    exact ⟨b :: l', .cons hb hl'⟩

namespace Clause

/-- **The expressions of clauses** are those of each. -/
theorem parseAll_eq_ok_iff {cs : List Clause} {es : List Expr} :
    parseAll cs = .ok es ↔ List.Forall₂ (fun c e => c.parse = .ok e) cs es := by
  induction cs generalizing es with
  | nil =>
    rw [List.forall₂_nil_left_iff]
    exact ⟨fun h => (Except.ok.inj h).symm, fun h => h ▸ rfl⟩
  | cons c rest ih =>
    have hcons : parseAll (c :: rest) = c.parse.bind fun e => (parseAll rest).map (e :: ·) := by
      rw [parseAll]
      cases c.parse with
      | error err => rfl
      | ok e =>
        dsimp only [Except.bind]
        cases parseAll rest with
        | error err => rfl
        | ok es => rfl
    rw [hcons, bind_eq_ok_iff, List.forall₂_cons_left_iff]
    simp only [map_eq_ok_iff, ih]
    refine ⟨?_, ?_⟩
    · rintro ⟨e, he, es, hes, rfl⟩
      exact ⟨e, es, he, hes, rfl⟩
    · rintro ⟨e, es, he, hes, rfl⟩
      exact ⟨e, he, es, hes, rfl⟩

/-- Clauses have their expressions if each has one. -/
theorem exists_parseAll {cs : List Clause} (h : ∀ c ∈ cs, ∃ e, c.parse = .ok e) :
    ∃ es, parseAll cs = .ok es := by
  simp only [parseAll_eq_ok_iff]
  exact exists_forall₂ h

/-- So they do if each of their texts has one: a ready-made document is its
own expression. -/
theorem exists_parseAll_of_texts {cs : List Clause}
    (h : ∀ s, .text s ∈ cs → ∃ e, Expr.parse s = .ok e) : ∃ es, parseAll cs = .ok es := by
  refine exists_parseAll fun c hc => ?_
  cases c with
  | text s => exact h s hc
  | fragment doc => exact ⟨.fragment doc, rfl⟩

/-- Every expression is that of a clause. -/
theorem exists_of_mem_parseAll {cs : List Clause} {es : List Expr} (h : parseAll cs = .ok es)
    {e : Expr} (he : e ∈ es) : ∃ c ∈ cs, c.parse = .ok e := by
  rw [parseAll_eq_ok_iff] at h
  induction h with
  | nil => cases he
  | cons hc _ ih =>
    rcases List.mem_cons.mp he with rfl | he
    · exact ⟨_, List.mem_cons_self, hc⟩
    · obtain ⟨c, hmem, hc⟩ := ih he
      exact ⟨c, List.mem_cons_of_mem _ hmem, hc⟩

/-- An expression has nothing ready-made but what its clause has. -/
theorem fragments_of_parse {c : Clause} {e : Expr} (h : c.parse = .ok e) :
    ∀ doc ∈ e.fragments, c = .fragment doc := by
  cases c with
  | text s =>
    obtain ⟨q, -, -, hw⟩ := Expr.exists_writes_of_parse h
    rw [hw.fragments]
    exact fun doc hdoc => by cases hdoc
  | fragment doc =>
    obtain rfl := Except.ok.inj h
    intro doc' hdoc
    rw [List.mem_singleton.mp hdoc]

/-- **Clauses form the `and` of their expressions.** -/
theorem parseList_eq {cs : List Clause} {es : List Expr} (h : parseAll cs = .ok es)
    (hne : cs ≠ []) : parseList cs = .ok (some (Expr.conj es)) := by
  rw [parseList, h]
  cases es with
  | nil => exact absurd (List.forall₂_nil_right_iff.mp (parseAll_eq_ok_iff.mp h)) hne
  | cons e rest => rfl

/-- Clauses that form an expression have one each. -/
theorem exists_parseAll_of_parseList {cs : List Clause} {r : Option Expr}
    (h : parseList cs = .ok r) : ∃ es, parseAll cs = .ok es := by
  rw [parseList] at h
  cases hes : parseAll cs with
  | error err =>
    rw [hes] at h
    cases h
  | ok es => exact ⟨es, rfl⟩

end Clause

/-- **Groups form the `or` of their expressions.** -/
theorem Query.parse_groups_eq {gs : List (List Clause)} {ess : List (List Expr)}
    (h : List.Forall₂ (fun g es => Clause.parseAll g = .ok es) gs ess) (hne : gs ≠ [])
    (hgs : ∀ g ∈ gs, g ≠ []) :
    (Query.groups gs).parse = .ok (some (Expr.disj (ess.map Expr.conj))) := by
  have hgroups : parseGroups gs = .ok (ess.map Expr.conj) := by
    clear hne
    induction h with
    | nil => rfl
    | cons hg _ ih =>
      rw [List.forall_mem_cons] at hgs
      rw [parseGroups, Clause.parseList_eq hg hgs.1]
      dsimp only
      rw [ih hgs.2]
      rfl
  rw [parse, hgroups]
  cases h with
  | nil => exact absurd rfl hne
  | cons _ _ => rfl

/-- Groups that form an expression have expressions for their clauses. -/
theorem Query.exists_parseAll_of_parse_groups {gs : List (List Clause)} {r : Option Expr}
    (h : (Query.groups gs).parse = .ok r) :
    ∃ ess, List.Forall₂ (fun g es => Clause.parseAll g = .ok es) gs ess := by
  have hgroups : ∀ {gs : List (List Clause)} {es : List Expr}, parseGroups gs = .ok es →
      ∀ g ∈ gs, ∃ es, Clause.parseAll g = .ok es := by
    intro gs
    induction gs with
    | nil => exact fun _ g hg => by cases hg
    | cons g rest ih =>
      intro es h
      rw [parseGroups] at h
      cases hg : Clause.parseList g with
      | error err =>
        rw [hg] at h
        cases h
      | ok e =>
        rw [hg] at h
        cases hrest : parseGroups rest with
        | error err =>
          rw [hrest] at h
          cases h
        | ok es' =>
          exact List.forall_mem_cons.mpr ⟨Clause.exists_parseAll_of_parseList hg, ih hrest⟩
  rw [parse] at h
  cases hes : parseGroups gs with
  | error err =>
    rw [hes] at h
    cases h
  | ok es => exact exists_forall₂ (hgroups hes)

/-- The clauses of a query, wherever they stand. -/
def Query.allClauses : Query → List Clause
  | .text s => [.text s]
  | .groups gs => gs.flatten
  | .clauses cs => cs

section

variable {P : Expr → Prop} (hempty : P (.fragment []))
  (hjoin : ∀ (k : Expr.Connective) (es : List Expr), es ≠ [] → (∀ e ∈ es, P e) → P (k.join es))

include hjoin

/-- What holds of the expressions of clauses holds of that of the list. -/
theorem Clause.of_parseList {cs : List Clause} (hcs : ∀ c ∈ cs, ∀ e, c.parse = .ok e → P e)
    {e : Expr} (h : parseList cs = .ok (some e)) : P e := by
  obtain ⟨es, hes⟩ := exists_parseAll_of_parseList h
  have hne : cs ≠ [] := by
    rintro rfl
    cases h
  rw [parseList_eq hes hne] at h
  obtain rfl := Option.some.inj (Except.ok.inj h)
  refine hjoin .and es (fun hnil => hne ?_) (fun e he => ?_)
  · rw [hnil, parseAll_eq_ok_iff] at hes
    exact List.forall₂_nil_right_iff.mp hes
  · obtain ⟨c, hc, hce⟩ := exists_of_mem_parseAll hes he
    exact hcs c hc e hce

include hempty

/-- What holds of the expressions of clauses, and of the empty document,
holds of those of groups. -/
theorem Query.of_parseGroups {gs : List (List Clause)}
    (hgs : ∀ g ∈ gs, ∀ c ∈ g, ∀ e, c.parse = .ok e → P e) {es : List Expr}
    (h : parseGroups gs = .ok es) : ∀ e ∈ es, P e := by
  induction gs generalizing es with
  | nil =>
    obtain rfl := Except.ok.inj h
    exact fun e he => by cases he
  | cons g rest ih =>
    rw [List.forall_mem_cons] at hgs
    rw [parseGroups] at h
    cases hg : Clause.parseList g with
    | error err =>
      rw [hg] at h
      cases h
    | ok r =>
      rw [hg] at h
      cases hrest : parseGroups rest with
      | error err =>
        rw [hrest] at h
        cases h
      | ok es' =>
        rw [hrest] at h
        obtain rfl := Except.ok.inj h
        refine List.forall_mem_cons.mpr ⟨?_, ih hgs.2 hrest⟩
        cases r with
        | none => exact hempty
        | some e => exact Clause.of_parseList hjoin hgs.1 hg

/-- **What every query keeps.** A property of the expressions of clauses
that the empty document has and that groups keep is one of the expression
of the query. -/
theorem Query.of_parse {q : Query} (hq : ∀ c ∈ q.allClauses, ∀ e, c.parse = .ok e → P e)
    {e : Expr} (h : q.parse = .ok (some e)) : P e := by
  cases q with
  | text s =>
    rw [parse] at h
    split at h
    · cases h
    · obtain ⟨e', he', heq⟩ := map_eq_ok_iff.mp h
      obtain rfl := Option.some.inj heq
      exact hq (.text s) List.mem_cons_self e' he'
  | clauses cs => exact Clause.of_parseList hjoin hq h
  | groups gs =>
    rw [parse] at h
    cases hes : parseGroups gs with
    | error err =>
      rw [hes] at h
      cases h
    | ok es =>
      rw [hes] at h
      have hall := of_parseGroups hempty hjoin
        (fun g hg c hc => hq c (List.mem_flatten.mpr ⟨g, hg, hc⟩)) hes
      cases es with
      | nil => cases h
      | cons e' rest =>
        obtain rfl := Option.some.inj (Except.ok.inj h)
        exact hjoin .or _ (List.cons_ne_nil e' rest) hall

end

end DocFilter
