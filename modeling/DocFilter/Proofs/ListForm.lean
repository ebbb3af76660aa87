import DocFilter.Proofs.Clauses
import DocFilter.Proofs.Lexing

/-!
# Lists and texts say the same

A query can be given as groups of clauses, or as one text in which each
clause stands in parentheses, with `and` between the clauses of a group
and `or` between the groups (`groupText`, `listText`). Both are parsed to
the same expression.

The text is derived from what the clauses are derived from. A clause keeps
its tokens inside parentheses, so the derivations of the clauses can be
put side by side: a conjunct for a group (`Grammar.Conjunct.Reads`) and a
query for the groups (`Grammar.Query.Reads`), one level of nesting deeper.
On the way back to an expression, the derivation is simplified as a whole,
where a list simplifies clause by clause and then joins; the two agree
since both are the same groups of the same operands.
-/

namespace DocFilter

/-- **A group as a text**: its clauses in parentheses, with `and` between
them. -/
def groupText (clauses : List String) : String :=
  " and ".intercalate (clauses.map fun s => "(" ++ s ++ ")")

/-- **Groups as a text**, with `or` between them. -/
def listText (groups : List (List String)) : String :=
  " or ".intercalate (groups.map groupText)

theorem toList_groupText_singleton (s : String) :
    (groupText [s]).toList = '(' :: (s.toList ++ [')']) := by
  unfold groupText
  rw [List.map_singleton, String.intercalate_singleton, String.toList_append, String.toList_append,
    List.append_assoc]
  rfl

theorem toList_groupText_cons (s s' : String) (rest : List String) :
    (groupText (s :: s' :: rest)).toList = '(' :: (s.toList
      ++ ')' :: ' ' :: 'a' :: 'n' :: 'd' :: ' ' :: (groupText (s' :: rest)).toList) := by
  unfold groupText
  rw [List.map_cons, List.map_cons, String.intercalate_cons_cons, String.toList_append,
    String.toList_append, String.toList_append, String.toList_append, List.append_assoc,
    List.append_assoc, List.append_assoc]
  rfl

theorem toList_listText_cons (g g' : List String) (rest : List (List String)) :
    (listText (g :: g' :: rest)).toList = (groupText g).toList
      ++ ' ' :: 'o' :: 'r' :: ' ' :: (listText (g' :: rest)).toList := by
  unfold listText
  rw [List.map_cons, List.map_cons, String.intercalate_cons_cons, String.toList_append,
    String.toList_append, List.append_assoc]
  rfl

namespace Grammar

/-- A query derives a text if it has the text's tokens. -/
theorem derives_iff_lexes {s : String} {q : Query} : Derives s q ↔ Token.Lexes s.toList q.tokens :=
  Token.lexes_iff.symm

/-- **A clause with room for parentheses around it**: it is derived from a
query that makes sense and is nested less deep than it may be. -/
structure Query.ReadsClause (s : String) (e : Expr) (q : Query) : Prop where
  /-- The tokens are those of the text. -/
  lexes : Token.Lexes s.toList q.tokens
  /-- Every comparison makes sense. -/
  tests : ∀ t ∈ q.tests, t.Admissible
  /-- There is room for one more level. -/
  nesting : q.nesting < nestingLimit
  /-- The expression is that of the query. -/
  tree : q.tree.simplify = e

/-- **A conjunct for a group of clauses**, whatever follows the group. -/
structure Conjunct.Reads (g : List String) (es : List Expr) (c : Conjunct) : Prop where
  /-- The tokens are those of the text. -/
  lexes : ∀ {rest : List Char} {us : List Token}, Token.Lexes rest us →
    Token.Lexes ((groupText g).toList ++ rest) (c.tokens ++ us)
  /-- Every comparison makes sense. -/
  tests : ∀ t ∈ c.tests, t.Admissible
  /-- Negations and parentheses are within the limit. -/
  nesting : c.nesting ≤ nestingLimit
  /-- The operands are the expressions of the clauses. -/
  operands : c.operands.map Expr.simplify = es

/-- **A query for a list of groups.** -/
structure Query.Reads (gs : List (List String)) (ess : List (List Expr)) (q : Query) : Prop where
  /-- The tokens are those of the text. -/
  lexes : Token.Lexes (listText gs).toList q.tokens
  /-- Every comparison makes sense. -/
  tests : ∀ t ∈ q.tests, t.Admissible
  /-- Negations and parentheses are within the limit. -/
  nesting : q.nesting ≤ nestingLimit
  /-- The branches are the expressions of the groups. -/
  branches : q.branches.map Expr.simplify = ess.map Expr.conj

/-- A clause in parentheses is a group. -/
theorem Query.ReadsClause.reads {s : String} {e : Expr} {q : Query} (h : q.ReadsClause s e) :
    (Conjunct.last (.primary (.parens q))).Reads [s] [e] where
  lexes := fun {rest us} hrest => by
    have htokens : (Conjunct.last (.primary (.parens q))).tokens ++ us
        = .openParen :: (q.tokens ++ .closeParen :: us) := by
      simp [Conjunct.tokens, Unary.tokens, Primary.tokens]
    rw [toList_groupText_singleton, List.cons_append, List.append_assoc, htokens]
    exact .openParen (h.lexes.append hrest.closeParen)
  tests := h.tests
  nesting := h.nesting
  operands := congrArg (fun e => [e]) h.tree

/-- A clause in parentheses goes in front of a group. -/
theorem Conjunct.Reads.cons {s s' : String} {g : List String} {e : Expr} {es : List Expr}
    {q : Query} {c : Conjunct} (hc : c.Reads (s' :: g) es) (h : q.ReadsClause s e) :
    (Conjunct.and (.primary (.parens q)) c).Reads (s :: s' :: g) (e :: es) where
  lexes := fun {rest us} hrest => by
    have htokens : (Conjunct.and (.primary (.parens q)) c).tokens ++ us
        = .openParen :: (q.tokens ++ .closeParen :: .keyword .and :: (c.tokens ++ us)) := by
      simp [Conjunct.tokens, Unary.tokens, Primary.tokens]
    rw [toList_groupText_cons, List.cons_append, List.append_assoc, htokens]
    exact .openParen (h.lexes.append (hc.lexes hrest).and.closeParen)
  tests := fun t ht => by
    rcases List.mem_append.mp ht with ht | ht
    · exact h.tests t ht
    · exact hc.tests t ht
  nesting := Nat.max_le.mpr ⟨h.nesting, hc.nesting⟩
  operands := congrArg₂ List.cons h.tree hc.operands

/-- **A group of clauses has a conjunct.** -/
theorem exists_conjunct {g : List String} {es : List Expr}
    (h : List.Forall₂ (fun s e => ∃ q : Query, q.ReadsClause s e) g es) (hne : g ≠ []) :
    ∃ c : Conjunct, c.Reads g es := by
  induction h with
  | nil => exact absurd rfl hne
  | cons hclause hrest ih =>
    obtain ⟨q, hq⟩ := hclause
    cases hrest with
    | nil => exact ⟨_, hq.reads⟩
    | cons _ _ =>
      obtain ⟨c, hc⟩ := ih (List.cons_ne_nil _ _)
      exact ⟨_, hc.cons hq⟩

/-- The branch of a conjunct is the expression of its group. -/
theorem Conjunct.Reads.simplify_all {g : List String} {es : List Expr} {c : Conjunct}
    (h : c.Reads g es) : (Expr.all c.operands).simplify = Expr.conj es := by
  rw [Expr.simplify, Expr.simplifyAll_eq_map, h.operands]

/-- A group is a list of groups. -/
theorem Conjunct.Reads.last {g : List String} {es : List Expr} {c : Conjunct} (h : c.Reads g es) :
    (Query.last c).Reads [g] [es] where
  lexes := by
    have hlexes := h.lexes (.gap (List.dropWhile_nil))
    rw [List.append_nil, List.append_nil] at hlexes
    unfold listText
    rwa [List.map_singleton, String.intercalate_singleton]
  tests := h.tests
  nesting := h.nesting
  branches := congrArg (fun e => [e]) h.simplify_all

/-- A group goes in front of a list of groups. -/
theorem Query.Reads.cons {g g' : List String} {gs : List (List String)} {es : List Expr}
    {ess : List (List Expr)} {c : Conjunct} {q : Query} (hq : q.Reads (g' :: gs) ess)
    (h : c.Reads g es) : (Query.or c q).Reads (g :: g' :: gs) (es :: ess) where
  lexes := by
    rw [toList_listText_cons]
    exact h.lexes hq.lexes.or
  tests := fun t ht => by
    rcases List.mem_append.mp ht with ht | ht
    · exact h.tests t ht
    · exact hq.tests t ht
  nesting := Nat.max_le.mpr ⟨h.nesting, hq.nesting⟩
  branches := congrArg₂ List.cons h.simplify_all hq.branches

/-- **Groups have a query.** -/
theorem exists_query {gs : List (List String)} {ess : List (List Expr)}
    (h : List.Forall₂ (fun g es => ∃ c : Conjunct, c.Reads g es) gs ess) (hne : gs ≠ []) :
    ∃ q : Query, q.Reads gs ess := by
  induction h with
  | nil => exact absurd rfl hne
  | cons hgroup hrest ih =>
    obtain ⟨c, hc⟩ := hgroup
    cases hrest with
    | nil => exact ⟨_, hc.last⟩
    | cons _ _ =>
      obtain ⟨q, hq⟩ := ih (List.cons_ne_nil _ _)
      exact ⟨_, hq.cons hc⟩

/-- **The text of groups is parsed to the `or` of their expressions.** -/
theorem Query.Reads.parse {gs : List (List String)} {ess : List (List Expr)} {q : Query}
    (h : q.Reads gs ess) : Expr.parse (listText gs) = .ok (Expr.disj (ess.map Expr.conj)) := by
  refine parse_eq_ok_iff_derives.mpr
    ⟨q, derives_iff_lexes.mpr h.lexes, ⟨h.tests, h.nesting⟩, ?_⟩
  rw [Query.tree, Expr.simplify, Expr.simplifyAll_eq_map, h.branches]

end Grammar

/-- **A clause that is parsed** and is nested at most 127 levels deep. -/
def ParsesNested (s : String) : Prop :=
  (∃ e, Expr.parse s = .ok e) ∧ ∀ q, Grammar.Derives s q → q.nesting ≤ 127

/-- One derivation tells how deep a clause is nested. -/
theorem Grammar.Derives.parsesNested {s : String} {q : Grammar.Query} (h : Derives s q)
    (ht : ∀ t ∈ q.tests, t.Admissible) (hn : q.nesting ≤ 127) : ParsesNested s := by
  refine ⟨⟨_, parse_eq_ok_iff_derives.mpr ⟨q, h, ⟨ht, Nat.le_succ_of_le hn⟩, rfl⟩⟩, fun q' h' => ?_⟩
  obtain ⟨ts, hts, htokens⟩ := h
  obtain ⟨ts', hts', htokens'⟩ := h'
  obtain rfl := Except.ok.inj (hts.symm.trans hts')
  rwa [Query.tokens_injective (List.append_cancel_right (htokens'.trans htokens.symm))]

/-- Such a clause has room for parentheses. -/
theorem ParsesNested.exists_reads {s : String} (h : ParsesNested s) :
    ∃ e, (Clause.text s).parse = .ok e ∧ ∃ q : Grammar.Query, q.ReadsClause s e := by
  obtain ⟨⟨e, he⟩, hn⟩ := h
  obtain ⟨q, hd, ha, rfl⟩ := Grammar.parse_eq_ok_iff_derives.mp he
  exact ⟨_, he, q, Grammar.derives_iff_lexes.mp hd, ha.tests, Nat.lt_succ_of_le (hn q hd), rfl⟩

/-- A group of such clauses has expressions in normal form, and a
conjunct. -/
theorem exists_group {g : List String} (hne : g ≠ []) (h : ∀ s ∈ g, ParsesNested s) :
    ∃ es, Clause.parseAll (g.map Clause.text) = .ok es ∧ (∀ e ∈ es, e.IsNormal)
      ∧ ∃ c : Grammar.Conjunct, c.Reads g es := by
  obtain ⟨es, hes⟩ := exists_forall₂ (fun s hs => (h s hs).exists_reads)
  have hparse : Clause.parseAll (g.map Clause.text) = .ok es := by
    rw [Clause.parseAll_eq_ok_iff, List.forall₂_map_left_iff]
    exact hes.imp (fun _ _ hs => hs.1)
  refine ⟨es, hparse, fun e he => ?_, Grammar.exists_conjunct (hes.imp fun _ _ hs => hs.2) hne⟩
  obtain ⟨c, hc, hce⟩ := Clause.exists_of_mem_parseAll hparse he
  obtain ⟨s, -, rfl⟩ := List.mem_map.mp hc
  exact Expr.isNormal_of_parse hce

/-- **Lists and texts are parsed alike.** Let there be groups of clauses,
at least one of each, and let each clause be a text that is parsed and is
nested at most 127 levels deep. Then the groups and the text that is put
together from them have the same expression. So have a single group as a
list of clauses and as a list of groups. -/
theorem Query.parse_groups_eq_parse_listText {gs : List (List String)} (hne : gs ≠ [])
    (hgs : ∀ g ∈ gs, g ≠ []) (h : ∀ g ∈ gs, ∀ s ∈ g, ParsesNested s) :
    (∃ e, Expr.parse (listText gs) = .ok e
        ∧ (Query.groups (gs.map fun g => g.map Clause.text)).parse = .ok (some e))
      ∧ ∀ g ∈ gs, ∃ e, (Query.clauses (g.map Clause.text)).parse = .ok (some e)
        ∧ (Query.groups [g.map Clause.text]).parse = .ok (some e) := by
  have hgroup := fun g hg => exists_group (hgs g hg) (h g hg)
  have hclauses : ∀ g ∈ gs, g.map Clause.text ≠ [] := fun g hg hnil =>
    hgs g hg (List.map_eq_nil_iff.mp hnil)
  constructor
  · obtain ⟨ess, hess⟩ := exists_forall₂ hgroup
    obtain ⟨q, hq⟩ := Grammar.exists_query (hess.imp fun _ _ hg => hg.2.2) hne
    refine ⟨_, hq.parse, Query.parse_groups_eq ?_ (fun hnil => ?_) (fun g hg => ?_)⟩
    · rw [List.forall₂_map_left_iff]
      exact hess.imp (fun _ _ hg => hg.1)
    · exact hne (List.map_eq_nil_iff.mp hnil)
    · obtain ⟨g, hmem, rfl⟩ := List.mem_map.mp hg
      exact hclauses g hmem
  · intro g hg
    obtain ⟨es, hes, hnormal, -⟩ := hgroup g hg
    refine ⟨Expr.conj es, Clause.parseList_eq hes (hclauses g hg), ?_⟩
    have hparse := Query.parse_groups_eq (.cons hes .nil) (List.cons_ne_nil _ _)
      (List.forall_mem_singleton.mpr (hclauses g hg))
    -- the `or` of one expression in normal form is that expression
    have hone : Expr.disj [Expr.conj es] = Expr.conj es :=
      Expr.Connective.join_singleton (k := .or) (Expr.Connective.isNormal_join (k := .and) hnormal)
    rwa [List.map_singleton, hone] at hparse

/-- Two groups and their text have the same expression. -/
theorem Query.parse_groups_eq_parse_listText_two :
    ∃ e, Expr.parse "(a = true) and (not b = null) or (a = true)" = .ok e
      ∧ (Query.groups [[.text "a = true", .text "not b = null"], [.text "a = true"]]).parse
        = .ok (some e) := by
  have htext : listText [["a = true", "not b = null"], ["a = true"]]
      = "(a = true) and (not b = null) or (a = true)" := by decide +kernel
  have hpath : ∀ field ∈ ["a", "b"], ∀ segment ∈ Text.segments '.' field.toList, segment ≠ [] := by
    decide
  have hfirst : ParsesNested "a = true" := by
    have hd : Grammar.Derives "a = true"
        (.last (.last (.primary (.test ⟨"a", .relation .eq (.bool true)⟩)))) :=
      ⟨[⟨.word "a", 0⟩, ⟨.relation .eq, 2⟩, ⟨.literal (.bool true), 4⟩, ⟨.eof, 8⟩], by cbv, rfl⟩
    refine hd.parsesNested (List.forall_mem_singleton.mpr ⟨?_, .bool true, rfl, .inl rfl⟩)
      (Nat.zero_le 127)
    exact hpath "a" (by decide)
  have hsecond : ParsesNested "not b = null" := by
    have hd : Grammar.Derives "not b = null"
        (.last (.last (.not (.primary (.test ⟨"b", .relation .eq .null⟩))))) :=
      ⟨[⟨.keyword .not, 0⟩, ⟨.word "b", 4⟩, ⟨.relation .eq, 6⟩, ⟨.literal .null, 8⟩, ⟨.eof, 12⟩],
        by cbv, rfl⟩
    refine hd.parsesNested (List.forall_mem_singleton.mpr ⟨?_, .null, rfl, .inl rfl⟩) ?_
    · exact hpath "b" (by decide)
    · show 0 + 1 ≤ 127
      decide
  have hgs : ∀ g ∈ [["a = true", "not b = null"], ["a = true"]], ∀ s ∈ g, ParsesNested s := by
    refine List.forall_mem_cons.mpr ⟨?_, List.forall_mem_singleton.mpr ?_⟩
    · exact List.forall_mem_cons.mpr ⟨hfirst, List.forall_mem_singleton.mpr hsecond⟩
    · exact List.forall_mem_singleton.mpr hfirst
  obtain ⟨⟨e, he, hgroups⟩, -⟩ := parse_groups_eq_parse_listText (List.cons_ne_nil _ _)
    (by decide) hgs
  exact ⟨e, htext ▸ he, hgroups⟩

end DocFilter
