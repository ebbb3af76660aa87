import DocFilter.Proofs.Clauses
import DocFilter.Proofs.DistinctKeys
import DocFilter.Proofs.Parentheses

/-!
# What becomes of code in a list of clauses

The operands of an `and` bring values under `$where`, its **pieces**, and
all of them end up under one key. A single piece stays as it is. Two or
more are joined from left to right, which only expressions can be: a piece
that is not a text, or is the text of a function, has no place beside
`&&` and there is no filter.

`Joined` describes the code that comes out. Every piece is in it once and
in order. A piece that came with a ready-made document stands in
parentheses of its own, and so does one with two bars in it, since both
could bind looser than what is joined to them. A prefix that is joined
already counts as one piece for what follows, which is the only other
place where parentheses come from.

The proof follows the pending code of the merge: after the first piece it
is that piece, after the second it is code that is not raw any more, and
joined code is an expression again (`joinWhere_cases`).
-/

namespace DocFilter

open Document (get? keys under)

/-! ## Functions and bars -/

/-- **A text occurs in another** if it is a block of it. -/
theorem Text.occurs_iff {part cs : List Char} : Text.occurs part cs = true ↔ part <:+: cs := by
  induction cs with
  | nil => rw [Text.occurs, List.isEmpty_iff, List.infix_nil]
  | cons c cs ih =>
    rw [Text.occurs, Bool.or_eq_true, ih, List.isPrefixOf_iff_prefix, List.infix_cons_iff]

/-- **Code that is the text of a function**: the word `function` after
blanks, and not the start of a longer word. -/
def IsFunctionCode (code : String) : Prop :=
  ∃ blanks rest, code.toList = blanks ++ ("function".toList ++ rest)
    ∧ (∀ c ∈ blanks, Text.isBlank c = true)
    ∧ ∀ c, rest.head? = some c → ¬ (Text.isAlphanumeric c = true ∨ c = '_' ∨ c = '$')

theorem isFunctionText_iff {code : String} : isFunctionText code = true ↔ IsFunctionCode code := by
  have hnext : ∀ rest : List Char,
      (!(rest.head?.any fun c => Text.isAlphanumeric c || c == '_' || c == '$')) = true
        ↔ ∀ c, rest.head? = some c → ¬ (Text.isAlphanumeric c = true ∨ c = '_' ∨ c = '$') := by
    intro rest
    cases rest with
    | nil => simp
    | cons c rest => simp [not_or, and_assoc]
  unfold isFunctionText Text.trimStart
  dsimp only
  rw [Bool.and_eq_true, List.isPrefixOf_iff_prefix, hnext]
  constructor
  · rintro ⟨⟨rest, hrest⟩, hword⟩
    rw [← hrest, List.drop_left] at hword
    refine ⟨code.toList.takeWhile Text.isBlank, rest, ?_, fun c hc => ?_, hword⟩
    · rw [hrest, List.takeWhile_append_dropWhile]
    · exact List.all_eq_true.mp List.all_takeWhile c hc
  · rintro ⟨blanks, rest, hcode, hblanks, hword⟩
    have hdrop : code.toList.dropWhile Text.isBlank = "function".toList ++ rest := by
      rw [hcode, List.dropWhile_append_of_pos hblanks]
      exact List.dropWhile_cons_of_neg (by decide)
    rw [hdrop, List.drop_left]
    exact ⟨List.prefix_append _ _, hword⟩

/-! ## Pieces -/

/-- **A value under `$where`**, and whether it came with a ready-made
document. -/
structure Piece where
  /-- The value. -/
  value : Value
  /-- Whether it came with a ready-made document. -/
  ready : Bool

namespace Piece

/-- **A piece that can be joined**: a text that is not a function. -/
def IsExpression (p : Piece) : Prop :=
  ∃ code, p.value = .text code ∧ ¬ IsFunctionCode code

/-- **How a piece stands beside `&&`**: in parentheses, if it came with a
ready-made document or has two bars side by side, and otherwise bare. -/
inductive Stands : Piece → String → Prop where
  /-- It has parentheses of its own. -/
  | parens {code : String} {ready : Bool} (h : ready = true ∨ ['|', '|'] <:+: code.toList) :
    Stands ⟨.text code, ready⟩ ("(" ++ code ++ ")")
  /-- It stands bare. -/
  | bare {code : String} (h : ¬ ['|', '|'] <:+: code.toList) : Stands ⟨.text code, false⟩ code

theorem stands_guarded (code : String) (ready : Bool) :
    Stands ⟨.text code, ready⟩ (guarded code ready) := by
  unfold guarded
  split
  · rename_i h
    rw [Bool.or_eq_true, Text.occurs_iff] at h
    exact .parens h
  · rename_i h
    rw [Bool.or_eq_true, not_or, Text.occurs_iff, Bool.not_eq_true] at h
    rw [h.1]
    exact .bare h.2

end Piece

/-- **Code joined from pieces**, two at least. -/
inductive Joined : List Piece → String → Prop where
  /-- Two pieces, each as it stands. -/
  | pair {p q : Piece} {c d : String} (hp : p.Stands c) (hq : q.Stands d) :
    Joined [p, q] (c ++ " && " ++ d)
  /-- One more piece; what is joined already stands as one that is not
  ready-made. -/
  | more {ps : List Piece} {q : Piece} {l c d : String} (h : Joined ps l)
    (hl : Piece.Stands ⟨.text l, false⟩ c) (hq : q.Stands d) :
    Joined (ps ++ [q]) (c ++ " && " ++ d)

theorem Joined.two_le_length {ps : List Piece} {code : String} (h : Joined ps code) :
    2 ≤ ps.length := by
  induction h with
  | pair _ _ => exact Nat.le_refl 2
  | more _ _ _ ih =>
    rw [List.length_append]
    exact Nat.le_add_right_of_le ih

/-- **What becomes of pieces**: nothing of none, itself of one, joined code
of expressions, and a conflict otherwise. -/
inductive Joining : List Piece → Except FilterError (Option Value) → Prop where
  /-- There is no code. -/
  | none : Joining [] (.ok none)
  /-- A piece by itself stays as it is. -/
  | one (p : Piece) : Joining [p] (.ok (some p.value))
  /-- Expressions are joined. -/
  | joined {ps : List Piece} {code : String} (he : ∀ p ∈ ps, p.IsExpression)
    (h : Joined ps code) : Joining ps (.ok (some (.text code)))
  /-- Anything else cannot be joined. -/
  | conflict {ps : List Piece} (h2 : 2 ≤ ps.length) (h : ∃ p ∈ ps, ¬ p.IsExpression) :
    Joining ps (.error .whereConflict)

namespace Joining

variable {ps : List Piece} {code : Option Value} {err : FilterError}

/-- A piece by itself is what is found. -/
theorem eq_head? (h : Joining ps (.ok code)) (hfew : ps.length ≤ 1) :
    code = ps.head?.map Piece.value := by
  cases h with
  | none => rfl
  | one p => rfl
  | joined _ h => exact absurd (Nat.le_trans h.two_le_length hfew) (by decide)

/-- Two or more pieces are joined. -/
theorem exists_joined (h : Joining ps (.ok code)) (hmany : 2 ≤ ps.length) :
    (∀ p ∈ ps, p.IsExpression) ∧ ∃ text, code = some (.text text) ∧ Joined ps text := by
  cases h with
  | none => exact absurd hmany (by decide)
  | one p => exact absurd hmany (by simp)
  | joined he h => exact ⟨he, _, rfl, h⟩

/-- What fails is a conflict. -/
theorem of_error (h : Joining ps (.error err)) :
    err = .whereConflict ∧ 2 ≤ ps.length ∧ ∃ p ∈ ps, ¬ p.IsExpression := by
  cases h with
  | conflict h2 hbad => exact ⟨rfl, h2, hbad⟩

end Joining

/-! ## Joining piece by piece -/

/-- **Two pieces are joined, or one of them cannot be.** What comes out is
an expression again. -/
theorem joinWhere_cases (p q : Piece) :
    (p.IsExpression ∧ q.IsExpression ∧ ∃ c d, p.Stands c ∧ q.Stands d
        ∧ joinWhere p.value q.value p.ready q.ready = .ok (c ++ " && " ++ d)
        ∧ Piece.IsExpression ⟨.text (c ++ " && " ++ d), false⟩)
      ∨ (¬ (p.IsExpression ∧ q.IsExpression)
        ∧ joinWhere p.value q.value p.ready q.ready = .error .whereConflict) := by
  obtain ⟨v, g⟩ := p
  obtain ⟨w, raw⟩ := q
  have htext : ∀ {v : Value} {ready : Bool}, (∀ code, v ≠ .text code) →
      ¬ Piece.IsExpression ⟨v, ready⟩ := fun hno ⟨code, hcode, _⟩ => hno code hcode
  have hfun : ∀ {code : String} {ready : Bool},
      Piece.IsExpression ⟨.text code, ready⟩ ↔ isFunctionText code = false := by
    intro code ready
    rw [← Bool.not_eq_true, isFunctionText_iff]
    refine ⟨fun ⟨code', hcode, hf⟩ => ?_, fun hf => ⟨code, rfl, hf⟩⟩
    obtain rfl := Value.text.inj hcode
    exact hf
  cases v with
  | text l =>
    cases w with
    | text r =>
      show _ ∨ (_ ∧ (if isFunctionText l || isFunctionText r then _ else
        Except.ok (guarded l g ++ " && " ++ guarded r raw)) = _)
      cases hl : isFunctionText l with
      | true => exact .inr ⟨fun h => absurd (hfun.mp h.1) (by rw [hl]; decide), rfl⟩
      | false =>
        cases hr : isFunctionText r with
        | true => exact .inr ⟨fun h => absurd (hfun.mp h.2) (by rw [hr]; decide), rfl⟩
        | false =>
          refine .inl ⟨hfun.mpr hl, hfun.mpr hr, guarded l g, guarded r raw,
            Piece.stands_guarded l g, Piece.stands_guarded r raw, ?_,
            hfun.mpr (isFunctionText_guarded_join hl g _)⟩
          show (if isFunctionText l || isFunctionText r then _ else _) = _
          rw [hl, hr]
          rfl
    | _ => exact .inr ⟨fun h => htext (fun _ h => by cases h) h.2, rfl⟩
  | _ => exact .inr ⟨fun h => htext (fun _ h => by cases h) h.1, rfl⟩

namespace Conjunction

namespace Pending

/-- The pending code is a piece. -/
def ofPiece (p : Piece) : Pending :=
  ⟨some p.value, p.ready⟩

/-- Pieces one after the other. -/
def addPieces (p : Pending) : List Piece → Except FilterError Pending
  | [] => .ok p
  | piece :: rest => (p.add piece.ready piece.value).bind fun p' => p'.addPieces rest

/-- A piece is joined to the one that is pending. -/
theorem add_ofPiece (p q : Piece) :
    (ofPiece p).add q.ready q.value
      = (joinWhere p.value q.value p.ready q.ready).map fun code => ofPiece ⟨.text code, false⟩ :=
  rfl

/-- A piece that stands for some: it is the only one, or joined from
them. -/
inductive StandsFor : List Piece → Piece → Prop where
  /-- The only piece. -/
  | only (p : Piece) : StandsFor [p] p
  /-- Joined code. -/
  | joined {ps : List Piece} {code : String} (h : Joined ps code) :
    StandsFor ps ⟨.text code, false⟩

/-- One more piece is joined to those that a piece stands for. -/
theorem StandsFor.join {ps : List Piece} {p q : Piece} {c d : String} (h : StandsFor ps p)
    (hp : p.Stands c) (hq : q.Stands d) : Joined (ps ++ [q]) (c ++ " && " ++ d) := by
  cases h with
  | only _ => exact .pair hp hq
  | joined h => exact .more h hp hq

/-- **Expressions are joined to a pending expression.** -/
theorem addPieces_of_isExpression {ps : List Piece} {p : Piece} (h : StandsFor ps p)
    (hp : p.IsExpression) {more : List Piece} (hmore : ∀ q ∈ more, q.IsExpression) :
    ∃ p', (ofPiece p).addPieces more = .ok (ofPiece p') ∧ StandsFor (ps ++ more) p' := by
  induction more generalizing ps p with
  | nil => exact ⟨p, rfl, by rwa [List.append_nil]⟩
  | cons q more ih =>
    rw [List.forall_mem_cons] at hmore
    rcases joinWhere_cases p q with ⟨-, -, c, d, hc, hd, hj, he⟩ | ⟨hnot, -⟩
    · obtain ⟨p', hp', hs⟩ := ih (.joined (h.join hc hd)) he hmore.2
      refine ⟨p', ?_, by rwa [List.append_assoc, List.singleton_append] at hs⟩
      rw [addPieces, add_ofPiece, hj]
      exact hp'
    · exact absurd ⟨hp, hmore.1⟩ hnot

/-- **A piece that is no expression is a conflict**, be it the pending one
or one that comes later. -/
theorem addPieces_eq_error {p : Piece} {more : List Piece}
    (h : ¬ p.IsExpression ∧ more ≠ [] ∨ ∃ q ∈ more, ¬ q.IsExpression) :
    (ofPiece p).addPieces more = .error .whereConflict := by
  induction more generalizing p with
  | nil =>
    rcases h with ⟨-, hne⟩ | ⟨q, hq, -⟩
    · exact absurd rfl hne
    · cases hq
  | cons q more ih =>
    rw [addPieces, add_ofPiece]
    rcases joinWhere_cases p q with ⟨hp, hq, c, d, -, -, hj, he⟩ | ⟨-, hj⟩
    · rw [hj]
      -- both are expressions, so the one that is not comes later
      refine ih (.inr ?_)
      rcases h with ⟨hnot, -⟩ | ⟨r, hr, hnot⟩
      · exact absurd hp hnot
      · rcases List.mem_cons.mp hr with rfl | hr
        · exact absurd hq hnot
        · exact ⟨r, hr, hnot⟩
    · rw [hj]
      rfl

/-- **What becomes of pieces** that are added to nothing. -/
theorem joining_addPieces (ps : List Piece) (raw : Bool) :
    Joining ps ((addPieces ⟨none, raw⟩ ps).map Pending.code) := by
  cases ps with
  | nil => exact .none
  | cons p rest =>
    show Joining (p :: rest) (((ofPiece p).addPieces rest).map Pending.code)
    cases rest with
    | nil => exact .one p
    | cons q rest =>
      by_cases he : ∀ r ∈ p :: q :: rest, r.IsExpression
      · rw [List.forall_mem_cons] at he
        obtain ⟨p', hp', hs⟩ := addPieces_of_isExpression (.only p) he.1 he.2
        rw [hp']
        cases hs with
        | joined h => exact .joined (List.forall_mem_cons.mpr he) h
      · have hbad : ∃ r ∈ p :: q :: rest, ¬ r.IsExpression := by
          simpa only [not_forall, exists_prop] using he
        have herror : (ofPiece p).addPieces (q :: rest) = .error .whereConflict := by
          refine addPieces_eq_error ?_
          obtain ⟨r, hr, hnot⟩ := hbad
          rcases List.mem_cons.mp hr with rfl | hr
          · exact .inl ⟨hnot, List.cons_ne_nil q rest⟩
          · exact .inr ⟨r, hr, hnot⟩
        rw [herror]
        exact .conflict (by simp) hbad

end Pending

end Conjunction

/-! ## The pieces of an `and` -/

/-- Whether an expression is a ready-made document. -/
def Expr.isFragment : Expr → Bool
  | .fragment _ => true
  | _ => false

namespace Filter

open Conjunction (Pending)

variable {o : Options} {operands : List Expr}

/-- **The pieces of operands**, in order: what each of them has under
`$where`. -/
def pieces (o : Options) (operands : List Expr) : List Piece :=
  operands.flatMap fun e =>
    match e.toFilter o with
    | .ok doc => (get? doc whereKey).toList.map fun value => ⟨value, e.isFragment⟩
    | .error _ => []

theorem pieces_cons {e : Expr} {doc : Document} (h : e.toFilter o = .ok doc) (rest : List Expr) :
    pieces o (e :: rest) = (get? doc whereKey).toList.map (fun value => ⟨value, e.isFragment⟩)
      ++ pieces o rest := by
  unfold pieces
  rw [List.flatMap_cons, h]

/-- An operand is raw if it is a ready-made document. -/
theorem isRaw_false (e : Expr) : isRaw false e = e.isFragment := by
  cases e <;> rfl

/-- **An `and` takes its pending code on by its pieces**, unless field
conflicts are rejected. -/
theorem pending_allOf (hp : o.collision ≠ .reject)
    (ht : ∀ e ∈ operands, ∃ d, e.toFilter o = .ok d ∧ (keys d).Nodup) (m : Conjunction) :
    (allOf o false m operands).map Conjunction.pending
      = m.pending.addPieces (pieces o operands) := by
  induction operands generalizing m with
  | nil =>
    rw [allOf]
    rfl
  | cons e rest ih =>
    rw [List.forall_mem_cons] at ht
    obtain ⟨⟨d, hd, hn⟩, hrest⟩ := ht
    have hofExpr : ofExpr o false e = .ok d := hd
    have hcode := Conjunction.pending_addDocument hp m e.isFragment d
    rw [Document.under_eq_toList hn] at hcode
    rw [allOf_cons, hofExpr, isRaw_false, pieces_cons hd]
    show ((m.addDocument o.collision e.isFragment d).bind _).map _ = _
    -- an operand brings one piece or none
    cases hg : get? d whereKey with
    | none =>
      rw [hg] at hcode
      obtain ⟨m₁, hm₁, hpending⟩ := map_eq_ok_iff.mp hcode
      rw [hm₁]
      exact (ih hrest m₁).trans (by rw [hpending]; rfl)
    | some v =>
      rw [hg] at hcode
      show _ = (m.pending.add e.isFragment v).bind _
      rw [← Pending.addAll_singleton, ← show _ = m.pending.addAll e.isFragment [v] from hcode]
      cases m.addDocument o.collision e.isFragment d with
      | error err => rfl
      | ok m₁ => exact ih hrest m₁

/-- **What becomes of the pieces** of expressions that must all hold. -/
theorem joining_conj (hp : o.collision ≠ .reject) {es : List Expr}
    (ht : ∀ e ∈ es.flatMap Expr.conjuncts, ∃ d, e.toFilter o = .ok d ∧ (keys d).Nodup) :
    Joining (pieces o (es.flatMap Expr.conjuncts))
      (((Expr.conj es).toFilter o).map fun d => get? d whereKey) := by
  rcases Expr.conj_cases es with ⟨e, hflat, hconj⟩ | hconj
  · -- one operand is not merged at all
    rw [hflat] at ht ⊢
    obtain ⟨d, hd, -⟩ := ht e List.mem_cons_self
    rw [hconj, hd, pieces_cons hd, show pieces o [] = [] from rfl, List.append_nil]
    show Joining _ (.ok (get? d whereKey))
    cases get? d whereKey with
    | none => exact .none
    | some v => exact .one ⟨v, e.isFragment⟩
  · have hempty : (keys Conjunction.empty.doc).Nodup := List.nodup_nil
    have hpending := pending_allOf hp ht .empty
    have hjoining := Pending.joining_addPieces (pieces o (es.flatMap Expr.conjuncts)) false
    rw [show Pending.mk none false = Conjunction.empty.pending from rfl, ← hpending] at hjoining
    rw [hconj]
    show Joining _ ((ofExpr o false (.all (es.flatMap Expr.conjuncts))).map _)
    rw [ofExpr_all]
    cases hall : allOf o false .empty (es.flatMap Expr.conjuncts) with
    | error err =>
      rw [hall] at hjoining
      exact hjoining
    | ok m =>
      rw [hall] at hjoining
      show Joining _ (.ok (get? m.toDocument whereKey))
      rw [Conjunction.get?_toDocument (allOf_nodup_keys hall hempty)]
      exact hjoining

/-- The operands of an `and` that is translated are translated. -/
theorem exists_ofExpr_of_allOf {negated : Bool} {m m' : Conjunction}
    (h : allOf o negated m operands = .ok m') :
    ∀ e ∈ operands, ∃ d, ofExpr o negated e = .ok d := by
  induction operands generalizing m with
  | nil => exact fun e he => by cases he
  | cons e rest ih =>
    rw [allOf_cons] at h
    obtain ⟨d, hd, h⟩ := bind_eq_ok_iff.mp h
    obtain ⟨m₁, -, hrest⟩ := bind_eq_ok_iff.mp h
    exact List.forall_mem_cons.mpr ⟨⟨d, hd⟩, ih hrest⟩

/-- What an expression contributes to an `and` is translated if the
expression is. -/
theorem exists_toFilter_of_conjuncts {e : Expr} {d : Document} (h : e.toFilter o = .ok d) :
    ∀ c ∈ e.conjuncts, ∃ d, c.toFilter o = .ok d := by
  cases e with
  | all operands =>
    have hall : (allOf o false .empty operands).map Conjunction.toDocument = .ok d :=
      (ofExpr_all operands).symm.trans h
    obtain ⟨m, hm, -⟩ := map_eq_ok_iff.mp hall
    exact exists_ofExpr_of_allOf hm
  | _ => exact List.forall_mem_singleton.mpr ⟨d, h⟩

end Filter

/-! ## Lists of clauses -/

/-- What an expression contributes to an `and` has its leaves. -/
theorem Expr.fragments_of_mem_conjuncts {e c : Expr} (hc : c ∈ e.conjuncts) {doc : Document}
    (h : doc ∈ c.fragments) : doc ∈ e.fragments := by
  cases e with
  | all operands => exact mem_fragmentsOf hc h
  | _ =>
    obtain rfl := List.mem_singleton.mp hc
    exact h

/-- **Clauses are translated as the `and` of their expressions**, also if
there are none. -/
theorem Query.toFilter_clauses {o : Options} {cs : List Clause} {es : List Expr}
    (h : Clause.parseAll cs = .ok es) :
    (Query.clauses cs).toFilter o = ((Expr.conj es).toFilter o).mapError .filter := by
  have hlist : (Query.clauses cs).parse = Clause.parseList cs := rfl
  unfold Query.toFilter
  rw [hlist, Clause.parseList, h]
  cases es with
  | nil => rfl
  | cons e rest =>
    dsimp only
    cases (Expr.conj (e :: rest)).toFilter o with
    | error err => rfl
    | ok d => rfl

/-- **What becomes of the code in a list of clauses.** Let every text in it
be parsed and translated by itself, and let every ready-made document give
its keys once. The operands of the `and` that the clauses form bring their
pieces of code. A single piece is emitted as it is. Two or more are a
conflict exactly if one of them is not a text or is a function; otherwise
the filter has code that is joined from all of them, in order, each in
parentheses of its own where it came with a ready-made document or has two
bars. -/
theorem Query.toFilter_clauses_pieces {o : Options} (hp : o.collision ≠ .reject)
    {cs : List Clause}
    (htext : ∀ s, .text s ∈ cs → ∃ e d, Expr.parse s = .ok e ∧ e.toFilter o = .ok d)
    (hdoc : ∀ doc, .fragment doc ∈ cs → (keys doc).Nodup) :
    ∃ es, Clause.parseAll cs = .ok es
      ∧ (∀ e ∈ es.flatMap Expr.conjuncts, ∃ d, e.toFilter o = .ok d)
      ∧ ((Filter.pieces o (es.flatMap Expr.conjuncts)).length ≤ 1 →
        ∃ d, (Query.clauses cs).toFilter o = .ok d ∧ get? d whereKey
          = (Filter.pieces o (es.flatMap Expr.conjuncts)).head?.map Piece.value)
      ∧ (2 ≤ (Filter.pieces o (es.flatMap Expr.conjuncts)).length →
        ((∃ err, (Query.clauses cs).toFilter o = .error err)
          ↔ ∃ p ∈ Filter.pieces o (es.flatMap Expr.conjuncts), ¬ p.IsExpression)
        ∧ (∀ err, (Query.clauses cs).toFilter o = .error err → err = .filter .whereConflict)
        ∧ ((∀ p ∈ Filter.pieces o (es.flatMap Expr.conjuncts), p.IsExpression) →
          ∃ d code, (Query.clauses cs).toFilter o = .ok d ∧ get? d whereKey = some (.text code)
            ∧ Joined (Filter.pieces o (es.flatMap Expr.conjuncts)) code)) := by
  have hparse : ∀ c ∈ cs, ∃ e, c.parse = .ok e := by
    intro c hc
    cases c with
    | text s =>
      obtain ⟨e, -, he, -⟩ := htext s hc
      exact ⟨e, he⟩
    | fragment doc => exact ⟨.fragment doc, rfl⟩
  obtain ⟨es, hes⟩ := Clause.exists_parseAll hparse
  -- every operand is translated, to a document that gives each key once
  have ht : ∀ e ∈ es.flatMap Expr.conjuncts, ∃ d, e.toFilter o = .ok d ∧ (keys d).Nodup := by
    intro p hmem
    obtain ⟨e, he, hconj⟩ := List.mem_flatMap.mp hmem
    obtain ⟨c, hc, hce⟩ := Clause.exists_of_mem_parseAll hes he
    have hd : ∃ d, e.toFilter o = .ok d := by
      cases c with
      | text s =>
        obtain ⟨e', d, he', hd⟩ := htext s hc
        obtain rfl := Except.ok.inj (he'.symm.trans hce)
        exact ⟨d, hd⟩
      | fragment doc =>
        obtain rfl := Except.ok.inj hce
        exact ⟨doc, rfl⟩
    obtain ⟨d, hd⟩ := hd
    obtain ⟨d', hd'⟩ := Filter.exists_toFilter_of_conjuncts hd p hconj
    refine ⟨d', hd', Filter.nodup_keys_ofExpr hd' (fun doc hmem => ?_)⟩
    obtain rfl := Clause.fragments_of_parse hce doc (Expr.fragments_of_mem_conjuncts hconj hmem)
    exact hdoc doc hc
  have hjoining := Filter.joining_conj hp ht
  refine ⟨es, hes, fun e he => (ht e he).imp (fun _ hd => hd.1), ?_⟩
  rw [toFilter_clauses hes]
  cases hr : (Expr.conj es).toFilter o with
  | error err =>
    rw [hr] at hjoining
    obtain ⟨rfl, hmany, hbad⟩ := hjoining.of_error
    refine ⟨fun hfew => absurd (Nat.le_trans hmany hfew) (by decide), fun _ => ⟨?_, ?_, ?_⟩⟩
    · exact ⟨fun _ => hbad, fun _ => ⟨_, rfl⟩⟩
    · exact fun err herr => (Except.error.inj herr).symm
    · obtain ⟨p, hp, hnot⟩ := hbad
      exact fun he => absurd (he p hp) hnot
  | ok d =>
    rw [hr] at hjoining
    refine ⟨fun hfew => ⟨d, rfl, hjoining.eq_head? hfew⟩, fun hmany => ?_⟩
    obtain ⟨he, code, hcode, hjoined⟩ := hjoining.exists_joined hmany
    refine ⟨⟨fun ⟨err, herr⟩ => ?_, fun ⟨p, hp, hnot⟩ => absurd (he p hp) hnot⟩, ?_, ?_⟩
    · cases herr
    · exact fun err herr => by cases herr
    · exact fun _ => ⟨d, code, rfl, hcode, hjoined⟩

/-- A test between two ready-made documents with code: there are three
pieces, and they are joined. -/
theorem Query.toFilter_clauses_pieces_bars :
    ∃ d code, (Query.clauses [.fragment [("$where", .text "this.x || this.y")],
        .text "a type string", .fragment [("$where", .text "this.z")]]).toFilter
          ⟨.lastWins, []⟩ = .ok d
      ∧ get? d whereKey = some (.text code)
      ∧ Joined [⟨.text "this.x || this.y", true⟩, ⟨.text "typeof this.a == \"string\"", false⟩,
        ⟨.text "this.z", true⟩] code := by
  have hparse : Expr.parse "a type string"
      = .ok (.comparison ⟨"a", .typeOf, .typeName .string⟩) := by
    cbv
  have hfilter : (Expr.comparison ⟨"a", .typeOf, .typeName .string⟩).toFilter ⟨.lastWins, []⟩
      = .ok [("$where", .text "typeof this.a == \"string\"")] := by
    cbv
  have hclauses : Clause.parseAll [.fragment [("$where", .text "this.x || this.y")],
      .text "a type string", .fragment [("$where", .text "this.z")]]
      = .ok [.fragment [("$where", .text "this.x || this.y")],
        .comparison ⟨"a", .typeOf, .typeName .string⟩,
        .fragment [("$where", .text "this.z")]] :=
    Clause.parseAll_eq_ok_iff.mpr (.cons rfl (.cons hparse (.cons rfl .nil)))
  have hexpression : ∀ {code : String} {ready : Bool}, isFunctionText code = false →
      Piece.IsExpression ⟨.text code, ready⟩ := fun hf =>
    ⟨_, rfl, fun h => absurd (isFunctionText_iff.mpr h) (by rw [hf]; decide)⟩
  have htext : ∀ s, .text s ∈ [Clause.fragment [("$where", .text "this.x || this.y")],
      .text "a type string", .fragment [("$where", .text "this.z")]] →
      ∃ e d, Expr.parse s = .ok e ∧ e.toFilter ⟨.lastWins, []⟩ = .ok d := by
    intro s hs
    simp only [List.mem_cons, Clause.text.injEq, reduceCtorEq, List.not_mem_nil, or_false,
      false_or] at hs
    obtain rfl := hs
    exact ⟨_, _, hparse, hfilter⟩
  have hdoc : ∀ doc, .fragment doc ∈ [Clause.fragment [("$where", .text "this.x || this.y")],
      .text "a type string", .fragment [("$where", .text "this.z")]] → (keys doc).Nodup := by
    intro doc hmem
    simp only [List.mem_cons, Clause.fragment.injEq, reduceCtorEq, List.not_mem_nil, or_false,
      false_or] at hmem
    rcases hmem with rfl | rfl <;> exact List.nodup_singleton _
  obtain ⟨es, hes, -, -, hmany⟩ := toFilter_clauses_pieces (by decide) htext hdoc
  obtain rfl := Except.ok.inj (hclauses.symm.trans hes)
  have hpieces : Filter.pieces ⟨.lastWins, []⟩
      [.fragment [("$where", .text "this.x || this.y")],
        .comparison ⟨"a", .typeOf, .typeName .string⟩, .fragment [("$where", .text "this.z")]]
      = [⟨.text "this.x || this.y", true⟩, ⟨.text "typeof this.a == \"string\"", false⟩,
        ⟨.text "this.z", true⟩] := by
    rw [Filter.pieces_cons rfl, Filter.pieces_cons hfilter, Filter.pieces_cons rfl]
    rfl
  refine ((hpieces ▸ hmany) (by decide)).2.2 ?_
  refine List.forall_mem_cons.mpr ⟨hexpression (by decide +kernel), ?_⟩
  refine List.forall_mem_cons.mpr ⟨hexpression (by decide +kernel), ?_⟩
  exact List.forall_mem_singleton.mpr (hexpression (by decide +kernel))

end DocFilter
