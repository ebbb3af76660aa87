import DocFilter.Proofs.Parentheses

/-!
# Two runs of an `and` that disagree about what is raw

An `and` takes the code of an operand for raw if the operand *is* a
ready-made document. With two negations in between it is not one, though
its document is the same. Two runs of an `and`, with the negations and
without, are *twins* (`Twin`): they take the same steps, and differ at
most in a mark until code that was marked differently is joined. From then
on they are apart.

What makes twins part is counted, not observed: plain code in the
document, and a second piece of code anywhere in the `and`
(`allOf_not_not_twin`).
-/

namespace DocFilter

open Document (get? keys under)

/-! ## Plain code -/

/-- Code that is guarded only if it is raw. -/
def Value.isPlainCode : Value → Bool
  | .text t => !hasBars t
  | _ => false

theorem Value.exists_of_isPlainCode {v : Value} (h : v.isPlainCode = true) :
    ∃ code, v = .text code ∧ hasBars code = false := by
  cases v with
  | text code => exact ⟨code, rfl, by simpa [Value.isPlainCode] using h⟩
  | _ => cases h

/-- Other code is guarded alike. -/
theorem guarded_eq {v : Value} {code : String} (h : v.isPlainCode = false) (hv : v = .text code)
    (raw raw' : Bool) : guarded code raw = guarded code raw' := by
  subst hv
  have hbars : hasBars code = true := by simpa [Value.isPlainCode] using h
  show (if raw || hasBars code then _ else _) = if raw' || hasBars code then _ else _
  rw [hbars, Bool.or_true, Bool.or_true]

/-- Code is joined alike if it is guarded alike. -/
theorem joinWhere_congr {l r : Value} {g g' raw raw' : Bool}
    (hl : ∀ code, l = .text code → guarded code g = guarded code g')
    (hr : ∀ code, r = .text code → guarded code raw = guarded code raw') :
    joinWhere l r g raw = joinWhere l r g' raw' := by
  unfold joinWhere
  cases l with
  | text l =>
    cases r with
    | text r =>
      show (if isFunctionText l || isFunctionText r then _ else
        Except.ok (guarded l g ++ " && " ++ guarded r raw)) = _
      rw [hl l rfl, hr r rfl]
    | _ => rfl
  | _ => rfl

/-! ## Twins -/

namespace Conjunction

variable {policy : CollisionPolicy} {raw raw' lost : Bool} {n : Nat} {m m' : Conjunction}
  {key : String} {value : Value}

/-- The conjunction with its code marked. -/
def withRaw (m : Conjunction) (raw : Bool) : Conjunction :=
  { m with rawWhere := raw }

/-- **Two runs of an `and`**, of which the first takes code for raw that
the second does not. After `n` pieces of code, none of them plain code
that the runs take differently unless `lost`, the runs agree, or they
disagree about one piece that waits to be joined, or they are apart. -/
inductive Twin : Nat → Bool → Conjunction → Conjunction → Prop where
  /-- Nothing tells the runs apart. -/
  | same {n : Nat} {m : Conjunction} {r : Bool} (hn : get? m.doc whereKey = none ↔ n = 0)
    (hr : r = m.rawWhere ∨ ∀ v, get? m.doc whereKey = some v → v.isPlainCode = false) :
    Twin n false m (m.withRaw r)
  /-- One piece of plain code waits. -/
  | waiting {m : Conjunction} {code : String} (hg : get? m.doc whereKey = some (.text code))
    (hbars : hasBars code = false) (hr : m.rawWhere = true) :
    Twin 1 true m (m.withRaw false)
  /-- It was joined. -/
  | apart {n : Nat} {m m' : Conjunction} (hn : 2 ≤ n) (h : Apart whereKey m m') :
    Twin n true m m'

/-- An entry that is not code does not ask what is raw. -/
theorem addEntry_withRaw (hk : key ≠ whereKey) (m : Conjunction) (r : Bool) (value : Value) :
    (m.withRaw r).addEntry policy raw key value
      = (m.addEntry policy raw key value).map fun m => m.withRaw r := by
  cases hg : get? m.doc key with
  | none =>
    rw [addEntry_of_none hg, addEntry_of_none (m := m.withRaw r) hg, if_neg hk, if_neg hk]
    rfl
  | some present =>
    by_cases ho : isOperatorKey key = true
    · rw [addEntry_of_operator hg hk ho, addEntry_of_operator (m := m.withRaw r) hg hk ho]
      rfl
    · rw [Bool.not_eq_true] at ho
      rw [addEntry_of_field hg ho, addEntry_of_field (m := m.withRaw r) hg ho]
      unfold constrainAgain
      cases Value.uniteOperators? present value with
      | some both => rfl
      | none => cases policy <;> rfl

namespace Twin

/-- **An entry that is not code keeps twins.** -/
theorem addOther (h : Twin n lost m m') (hk : key ≠ whereKey) (value : Value) :
    Outcomes (Twin n lost) (m.addEntry policy raw key value)
      (m'.addEntry policy raw' key value) := by
  have hpending : ∀ {m m₁ : Conjunction}, m.addEntry policy raw key value = .ok m₁ →
      m₁.pending = m.pending := fun ha => (added_of_addEntry ha).pending_eq hk
  rw [addEntry_raw hk raw' raw]
  cases h with
  | @same _ m r hn hr =>
    rw [addEntry_withRaw hk]
    cases ha : m.addEntry policy raw key value with
    | error e => exact .error e
    | ok m₁ =>
      have hcode : get? m₁.doc whereKey = get? m.doc whereKey := congrArg Pending.code (hpending ha)
      have hrw : m₁.rawWhere = m.rawWhere := congrArg Pending.raw (hpending ha)
      refine .ok (.same ?_ ?_)
      · rwa [hcode]
      · rwa [hcode, hrw]
  | @waiting m code hg hbars hr =>
    rw [addEntry_withRaw hk]
    cases ha : m.addEntry policy raw key value with
    | error e => exact .error e
    | ok m₁ =>
      refine .ok (.waiting ?_ hbars ?_)
      · exact (congrArg Pending.code (hpending ha)).trans hg
      · exact (congrArg Pending.raw (hpending ha)).trans hr
  | apart hn hm =>
    exact (hm.addEntry (.inl rfl) key value).mono (fun _ _ _ _ => .apart hn)

/-- The first piece of code waits, or it is marked alike. -/
theorem addFirst {r : Bool} (hg : get? m.doc whereKey = none)
    (hraw : raw' = raw ∨ raw = true ∧ raw' = false) (value : Value) :
    Outcomes (Twin 1 (raw != raw' && value.isPlainCode)) (m.addEntry policy raw whereKey value)
      ((m.withRaw r).addEntry policy raw' whereKey value) := by
  have hput : get? (Document.insert m.doc whereKey value) whereKey = some value :=
    Document.get?_insert_self _ _ _
  have hsome : get? (Document.insert m.doc whereKey value) whereKey = none ↔ 1 = 0 := by
    rw [hput]
    simp
  rw [addEntry_of_none hg, addEntry_of_none (m := m.withRaw r) hg, if_pos rfl, if_pos rfl]
  rcases hraw with rfl | ⟨rfl, rfl⟩
  · rw [bne_self_eq_false, Bool.false_and]
    exact .ok (.same hsome (.inl rfl))
  · cases hplain : value.isPlainCode with
    | false =>
      refine .ok (.same hsome (.inr (fun v hv => ?_)))
      rw [← Option.some.inj (hput.symm.trans hv)]
      exact hplain
    | true =>
      obtain ⟨code, rfl, hbars⟩ := Value.exists_of_isPlainCode hplain
      exact .ok (.waiting hput hbars rfl)

/-- Code is joined to code that is guarded alike, and makes twins part if
it is plain and marked differently itself. -/
theorem joinCode {r : Bool} {present : Value} (hn : 1 ≤ n)
    (hg : get? m.doc whereKey = some present)
    (hguard : ∀ code, present = .text code → guarded code m.rawWhere = guarded code r)
    (hraw : raw' = raw ∨ raw = true ∧ raw' = false) (value : Value) :
    Outcomes (Twin (n + 1) (raw != raw' && value.isPlainCode))
      (m.addEntry policy raw whereKey value)
      ((m.withRaw r).addEntry policy raw' whereKey value) := by
  rw [addEntry_of_where hg, addEntry_of_where (m := m.withRaw r) hg]
  cases hsee : raw != raw' && value.isPlainCode with
  | false =>
    -- both sides of the `&&` are guarded alike, so the joined code is the same
    have hjoin : joinWhere present value m.rawWhere raw
        = joinWhere present value (m.withRaw r).rawWhere raw' := by
      refine joinWhere_congr hguard (fun code hcode => ?_)
      rcases hraw with rfl | ⟨rfl, rfl⟩
      · rfl
      · exact guarded_eq hsee hcode _ _
    rw [hjoin]
    cases joinWhere present value (m.withRaw r).rawWhere raw' with
    | error e => exact .error e
    | ok code =>
      refine .ok (.same ?_ (.inl rfl))
      show get? (Document.insert m.doc whereKey _) whereKey = none ↔ _
      rw [Document.get?_insert_self]
      simp
  | true =>
    rw [Bool.and_eq_true] at hsee
    obtain ⟨code, rfl, hbars⟩ := Value.exists_of_isPlainCode hsee.2
    obtain ⟨rfl, rfl⟩ := hraw.resolve_left (fun heq => by simp [heq] at hsee)
    -- only the first run puts the code in parentheses
    cases present with
    | text l =>
      refine (joinWhere_apart rfl rfl rfl rfl ?_).map
        (fun c c' hc => .apart (Nat.succ_le_succ hn) (apart_put hg hc))
      show (guarded l r).length + _ < _
      rw [← hguard l rfl, length_guarded code, length_guarded code, hbars]
      simp
    | _ => exact .error _

/-- Code that waits is joined, and twins part. -/
theorem joinWaiting {code : String} (hg : get? m.doc whereKey = some (.text code))
    (hbars : hasBars code = false) (hr : m.rawWhere = true)
    (hraw : raw' = raw ∨ raw = true ∧ raw' = false) (value : Value) :
    Outcomes (Twin 2 true) (m.addEntry policy raw whereKey value)
      ((m.withRaw false).addEntry policy raw' whereKey value) := by
  rw [addEntry_of_where hg, addEntry_of_where (m := m.withRaw false) hg]
  cases value with
  | text t =>
    refine (joinWhere_apart rfl rfl rfl rfl ?_).map
      (fun c c' hc => .apart (Nat.le_refl 2) (apart_put hg hc))
    have hle := length_guarded_le hraw t
    show (guarded code false).length + _ < _
    rw [length_guarded code, length_guarded code, hbars, hr]
    simp only [Bool.or_false, Bool.false_eq_true, if_false, if_true]
    omega
  | _ => exact .error _

/-- **Code makes twins wait or part**, if the runs mark it differently and
it is plain. -/
theorem addCode (h : Twin n lost m m') (hraw : raw' = raw ∨ raw = true ∧ raw' = false)
    (value : Value) :
    Outcomes (Twin (n + 1) (lost || (raw != raw' && value.isPlainCode)))
      (m.addEntry policy raw whereKey value) (m'.addEntry policy raw' whereKey value) := by
  cases h with
  | @same _ m r hn hr =>
    rw [Bool.false_or]
    cases hg : get? m.doc whereKey with
    | none =>
      rw [hn.mp hg]
      exact addFirst hg hraw value
    | some present =>
      have hpos : 1 ≤ n := by
        refine Nat.one_le_iff_ne_zero.mpr (fun h0 => ?_)
        rw [hn.mpr h0] at hg
        cases hg
      refine joinCode hpos hg (fun code hcode => ?_) hraw value
      rcases hr with rfl | hr
      · rfl
      · exact guarded_eq (hr present hg) hcode _ _
  | waiting hg hbars hr =>
    rw [Bool.true_or]
    exact joinWaiting hg hbars hr hraw value
  | apart hn hm =>
    rw [Bool.true_or]
    have hraw' : raw' = raw ∨ whereKey = whereKey ∧ raw = true ∧ raw' = false :=
      hraw.imp id (fun h => ⟨rfl, h⟩)
    exact (hm.addEntry hraw' whereKey value).mono (fun _ _ _ _ => .apart (Nat.le_succ_of_le hn))

/-- **A document makes twins wait or part** by its code. -/
theorem addDocument (h : Twin n lost m m') (hraw : raw' = raw ∨ raw = true ∧ raw' = false)
    (doc : Document) :
    Outcomes (Twin (n + (Filter.codeOf doc).length)
        (lost || (raw != raw' && (Filter.codeOf doc).any Value.isPlainCode)))
      (m.addDocument policy raw doc) (m'.addDocument policy raw' doc) := by
  induction doc generalizing n lost m m' with
  | nil =>
    rw [show Filter.codeOf [] = [] from rfl, List.any_nil, Bool.and_false, Bool.or_false]
    exact .ok h
  | cons e rest ih =>
    obtain ⟨key, value⟩ := e
    rw [addDocument_cons, addDocument_cons]
    by_cases hk : key = whereKey
    · subst hk
      have hcode : Filter.codeOf ((whereKey, value) :: rest) = value :: Filter.codeOf rest :=
        Document.under_cons_self _ _ _
      rw [hcode, List.length_cons, List.any_cons, Bool.and_or_distrib_left, ← Bool.or_assoc,
        Nat.add_comm (Filter.codeOf rest).length 1, ← Nat.add_assoc]
      exact (h.addCode hraw value).bind (fun _ _ h₁ => ih h₁)
    · have hcode : Filter.codeOf ((key, value) :: rest) = Filter.codeOf rest :=
        Document.under_cons_of_ne hk _ _
      rw [hcode]
      exact (h.addOther hk value).bind (fun _ _ h₁ => ih h₁)

/-- **Twins finish apart** if plain code was lost among other code, and
otherwise they finish the same. -/
theorem toDocument (h : Twin n lost m m') :
    (lost = true ∧ 2 ≤ n ∧ ∃ key, Document.Apart key m.toDocument m'.toDocument)
      ∨ ¬ (lost = true ∧ 2 ≤ n) ∧ m.toDocument = m'.toDocument := by
  cases h with
  | same _ _ => exact .inr ⟨by simp, rfl⟩
  | waiting _ _ _ => exact .inr ⟨by simp, rfl⟩
  | apart hn hm => exact .inl ⟨rfl, hn, hm.toDocument⟩

end Twin

end Conjunction

namespace Filter

open Conjunction (Twin)

variable {o : Options} {negated lost : Bool} {n : Nat} {m m' : Conjunction}

/-- The code in the documents of operands. -/
def codesOf (o : Options) (negated : Bool) (operands : List Expr) : List Value :=
  operands.flatMap fun e =>
    match ofExpr o negated e with
    | .ok doc => codeOf doc
    | .error _ => []

theorem codesOf_cons {e : Expr} {doc : Document} (h : ofExpr o negated e = .ok doc)
    (rest : List Expr) : codesOf o negated (e :: rest) = codeOf doc ++ codesOf o negated rest := by
  unfold codesOf
  rw [List.flatMap_cons, h]

theorem codesOf_append (before after : List Expr) :
    codesOf o negated (before ++ after) = codesOf o negated before ++ codesOf o negated after :=
  List.flatMap_append

/-- **Operands that both runs take alike keep twins.** -/
theorem allOf_twin (h : Twin n lost m m') (operands : List Expr) :
    Outcomes (Twin (n + (codesOf o negated operands).length) lost) (allOf o negated m operands)
      (allOf o negated m' operands) := by
  induction operands generalizing n m m' with
  | nil =>
    rw [allOf, allOf]
    exact .ok h
  | cons e rest ih =>
    rw [allOf_cons, allOf_cons]
    refine .bind_same (fun doc hd => ?_)
    have hlost : (lost || ((isRaw negated e != isRaw negated e)
        && (codeOf doc).any Value.isPlainCode)) = lost := by
      rw [bne_self_eq_false, Bool.false_and, Bool.or_false]
    have hdoc : Outcomes (Twin (n + (codeOf doc).length) (lost || ((isRaw negated e
        != isRaw negated e) && (codeOf doc).any Value.isPlainCode)))
        (m.addDocument o.collision (isRaw negated e) doc)
        (m'.addDocument o.collision (isRaw negated e) doc) := h.addDocument (.inl rfl) doc
    rw [hlost] at hdoc
    rw [codesOf_cons hd, List.length_append, ← Nat.add_assoc]
    exact hdoc.bind (fun _ _ h₁ => ih h₁)

/-- **An `and` with a ready-made document, and with two negations on it,
are twins.** They part by the plain code of the document. -/
theorem allOf_not_not_twin (before after : List Expr) (doc : Document) :
    Outcomes (Twin (codesOf o false (before ++ .fragment doc :: after)).length
        ((codeOf doc).any Value.isPlainCode))
      (allOf o false .empty (before ++ .fragment doc :: after))
      (allOf o false .empty (before ++ .not (.not (.fragment doc)) :: after)) := by
  have hempty : Twin 0 false .empty .empty :=
    .same (r := false) ⟨fun _ => rfl, fun _ => rfl⟩ (.inl rfl)
  have hfrag : ofExpr o false (.fragment doc) = .ok doc := rfl
  have hnot : ofExpr o false (.not (.not (.fragment doc))) = .ok doc := rfl
  rw [allOf_append, allOf_append, codesOf_append, codesOf_cons hfrag, List.length_append,
    List.length_append, ← Nat.add_assoc]
  refine .bind_same (fun m hm => ?_)
  -- before the document the two runs are one run, and a run is its own twin
  have hbefore : Outcomes (Twin (0 + (codesOf o false before).length) false)
      (allOf o false .empty before) (allOf o false .empty before) := allOf_twin hempty before
  rw [hm, Nat.zero_add] at hbefore
  cases hbefore with
  | ok htwin =>
    rw [allOf_cons, allOf_cons, hfrag, hnot]
    have hdoc : Outcomes (Twin ((codesOf o false before).length + (codeOf doc).length)
        ((codeOf doc).any Value.isPlainCode))
        (m.addDocument o.collision true doc) (m.addDocument o.collision false doc) :=
      htwin.addDocument (.inr ⟨rfl, rfl⟩) doc
    exact hdoc.bind (fun _ _ h₁ => allOf_twin h₁ after)

end Filter

end DocFilter
