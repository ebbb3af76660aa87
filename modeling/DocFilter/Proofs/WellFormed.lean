import DocFilter.Proofs.Clauses
import DocFilter.Proofs.DistinctKeys
import DocFilter.Proofs.Lexing

/-!
# What filter documents look like

A filter document is a list of entries, and which entries it can have is
said once, by `WellFormed` and `EntryFormed`:

* `$or` has two documents or more, and none of them is only an `$or`;
* `$and` has documents of one key each, and a field is among these keys
  only where constraints on a field are kept side by side;
* `$where` has a text;
* a field has a scalar, or operators with the values that go with them.

There are no other keys, and no document is empty. The translation of an
expression keeps to this as long as every group has two operands or more,
which is what parsing leaves (`Expr.Written`), and as long as no field
looks like an operator. One step of a merge keeps to it
(`Conjunction.Added.formed`), and so does the end of a merge, where `$and`
takes up what was set aside.
-/

namespace DocFilter

open Document (get? keys)

/-! ## Well-formed documents -/

mutual

/-- **A well-formed document**, under a policy. -/
inductive WellFormed (p : CollisionPolicy) : Document → Prop where
  /-- It has entries, with keys that are given once. -/
  | intro {doc : Document} (hne : doc ≠ []) (hn : (keys doc).Nodup)
    (h : ∀ e ∈ doc, EntryFormed p e.1 e.2) : WellFormed p doc

/-- **A well-formed entry**, under a policy. -/
inductive EntryFormed (p : CollisionPolicy) : String → Value → Prop where
  /-- Documents of which one holds. -/
  | or {docs : List Document} (htwo : 2 ≤ docs.length) (h : ∀ d ∈ docs, WellFormed p d)
    (hflat : ∀ d ∈ docs, keys d ≠ [orKey]) : EntryFormed p orKey (.list (docs.map .document))
  /-- Documents that all hold. -/
  | and {docs : List Document} (hne : docs ≠ []) (h : ∀ d ∈ docs, WellFormed p d)
    (hone : ∀ d ∈ docs, (keys d).length = 1)
    (hkeys : p ≠ .andWrap → ∀ d ∈ docs, keys d = [orKey] ∨ keys d = [andKey]) :
    EntryFormed p andKey (.list (docs.map .document))
  /-- Code. -/
  | code (text : String) : EntryFormed p whereKey (.text text)
  /-- A field with a scalar. -/
  | scalar {field : String} {value : Value} (hf : isOperatorKey field = false)
    (hv : value.isScalar = true) : EntryFormed p field value
  /-- A field with operators. -/
  | operators {field : String} {ops : Document} (hf : isOperatorKey field = false)
    (hne : ops ≠ []) (hn : (keys ops).Nodup) (h : ∀ e ∈ ops, OperatorEntry e.1 e.2) :
    EntryFormed p field (.document ops)

end

variable {p : CollisionPolicy}

namespace EntryFormed

variable {key : String} {value : Value}

/-- An entry by itself is a document. -/
theorem single (h : EntryFormed p key value) : WellFormed p (Document.single key value) :=
  .intro (List.cons_ne_nil _ _) (List.nodup_singleton key) (List.forall_mem_singleton.mpr h)

/-- **A logical key is one of three.** -/
theorem key_cases (h : EntryFormed p key value) (hk : isOperatorKey key = true) :
    key = orKey ∨ key = andKey ∨ key = whereKey := by
  cases h with
  | or _ _ _ => exact .inl rfl
  | and _ _ _ _ => exact .inr (.inl rfl)
  | code _ => exact .inr (.inr rfl)
  | scalar hf _ => exact absurd hk (by rw [hf]; decide)
  | operators hf _ _ _ => exact absurd hk (by rw [hf]; decide)

/-- A field with a document has operators. -/
theorem operators_of_document {ops : Document} (h : EntryFormed p key (.document ops))
    (hk : isOperatorKey key = false) :
    ops ≠ [] ∧ (keys ops).Nodup ∧ ∀ e ∈ ops, OperatorEntry e.1 e.2 := by
  cases h with
  | scalar _ hv => cases hv
  | operators _ hne hn h => exact ⟨hne, hn, h⟩

/-- An `$and` has documents of one key. -/
theorem exists_docs_and (h : EntryFormed p andKey value) :
    ∃ docs : List Document, value = .list (docs.map .document) ∧ docs ≠ []
      ∧ ∀ d ∈ docs, WellFormed p d ∧ (keys d).length = 1
        ∧ (p ≠ .andWrap → keys d = [orKey] ∨ keys d = [andKey]) := by
  generalize hkey : andKey = key at h
  cases h with
  | or _ _ _ => exact absurd hkey (by decide)
  | and hne h hone hkeys =>
    exact ⟨_, rfl, hne, fun d hd => ⟨h d hd, hone d hd, fun hp => hkeys hp d hd⟩⟩
  | code _ => exact absurd hkey (by decide)
  | scalar hf _ => exact absurd hf (by rw [← hkey]; decide)
  | operators hf _ _ _ => exact absurd hf (by rw [← hkey]; decide)

/-- An `$or` has documents of which none is only an `$or`. -/
theorem exists_docs_or (h : EntryFormed p orKey value) :
    ∃ docs : List Document, value = .list (docs.map .document) ∧ docs ≠ []
      ∧ ∀ d ∈ docs, WellFormed p d ∧ keys d ≠ [orKey] := by
  generalize hkey : orKey = key at h
  cases h with
  | or htwo h hflat =>
    refine ⟨_, rfl, ?_, fun d hd => ⟨h d hd, hflat d hd⟩⟩
    exact List.ne_nil_of_length_pos (Nat.lt_of_lt_of_le (by decide) htwo)
  | and _ _ _ _ => exact absurd hkey (by decide)
  | code _ => exact absurd hkey (by decide)
  | scalar hf _ => exact absurd hf (by rw [← hkey]; decide)
  | operators hf _ _ _ => exact absurd hf (by rw [← hkey]; decide)

/-- **Operators that share none are united.** -/
theorem united {present both : Value} (hp : EntryFormed p key present)
    (hv : EntryFormed p key value) (hk : isOperatorKey key = false)
    (hu : Value.uniteOperators? present value = some both) : EntryFormed p key both := by
  obtain ⟨l, r, rfl, rfl, -, -, hdisjoint, rfl⟩ := Value.uniteOperators?_eq_some hu
  obtain ⟨hne, hnl, hl⟩ := hp.operators_of_document hk
  obtain ⟨-, hnr, hr⟩ := hv.operators_of_document hk
  rw [Document.append_eq_of_disjoint l hnr hdisjoint]
  refine .operators hk (List.append_ne_nil_of_left_ne_nil hne r) ?_ (fun e he => ?_)
  · rw [Document.keys_append, List.nodup_append]
    exact ⟨hnl, hnr, fun a ha b hb hab => hdisjoint b hb (hab ▸ ha)⟩
  · rcases List.mem_append.mp he with he | he
    · exact hl e he
    · exact hr e he

end EntryFormed

/-! ## Merging -/

namespace Conjunction

variable {raw : Bool} {m m' : Conjunction} {key : String} {value : Value} {doc : Document}

/-- **A conjunction in the making that is well formed**: its entries are,
and what was set aside is what a policy sets aside. -/
structure Formed (p : CollisionPolicy) (m : Conjunction) : Prop where
  /-- Each key is given once. -/
  nodup : (keys m.doc).Nodup
  /-- The entries are well formed. -/
  entries : ∀ e ∈ m.doc, EntryFormed p e.1 e.2
  /-- So is what was set aside. -/
  deferred : ∀ e ∈ m.deferred, EntryFormed p e.1 e.2
  /-- Fields are set aside only to be kept. -/
  logical : p ≠ .andWrap → ∀ e ∈ m.deferred, e.1 = orKey ∨ e.1 = andKey

theorem formed_empty : empty.Formed p :=
  ⟨List.nodup_nil, fun e he => (by cases he), fun e he => (by cases he),
    fun _ e he => (by cases he)⟩

/-- What is found under a key is well formed. -/
theorem Formed.of_get? (hm : m.Formed p) {present : Value} (hg : get? m.doc key = some present) :
    EntryFormed p key present := by
  obtain ⟨before, after, hdoc, -⟩ := Document.exists_split hg
  exact hm.entries (key, present) (hdoc ▸ List.mem_append_right _ List.mem_cons_self)

/-- A key of the document takes a well-formed value. -/
theorem Formed.insert (hm : m.Formed p) (hv : EntryFormed p key value) :
    ∀ e ∈ Document.insert m.doc key value, EntryFormed p e.1 e.2 :=
  Document.forall_mem_insert hm.entries hv

/-- An entry is set aside. -/
theorem Formed.defer (hm : m.Formed p) (hv : EntryFormed p key value)
    (hk : p ≠ .andWrap → key = orKey ∨ key = andKey) : (m.defer key value).Formed p where
  nodup := hm.nodup
  entries := hm.entries
  deferred := List.forall_mem_append.mpr ⟨hm.deferred, List.forall_mem_singleton.mpr hv⟩
  logical := fun hp => List.forall_mem_append.mpr
    ⟨hm.logical hp, List.forall_mem_singleton.mpr (hk hp)⟩

/-- **One step of a merge keeps a conjunction well formed.** -/
theorem Added.formed (h : Added p raw m key value m') (hm : m.Formed p)
    (hv : EntryFormed p key value) : m'.Formed p := by
  have hn := h.nodup_keys hm.nodup
  cases h with
  | fresh _ => exact ⟨hn, hm.insert hv, hm.deferred, hm.logical⟩
  | joined present code hk _ _ =>
    exact ⟨hn, hm.insert (hk ▸ .code code), hm.deferred, hm.logical⟩
  | setAside present _ hw hk =>
    refine hm.defer hv (fun _ => ?_)
    rcases hv.key_cases hk with hor | hand | hwhere
    · exact .inl hor
    · exact .inr hand
    · exact absurd hwhere hw
  | united present both hg hk hu =>
    exact ⟨hn, hm.insert ((hm.of_get? hg).united hv hk hu), hm.deferred, hm.logical⟩
  | replaced present _ _ _ _ => exact ⟨hn, hm.insert hv, hm.deferred, hm.logical⟩
  | wrapped present _ _ _ hp => exact hm.defer hv (fun hne => absurd hp hne)

/-- So does a whole document, and a conjunction that has something keeps
it. -/
theorem addDocument_formed (h : m.addDocument p raw doc = .ok m') (hm : m.Formed p)
    (hdoc : ∀ e ∈ doc, EntryFormed p e.1 e.2) : m'.Formed p := by
  induction doc generalizing m with
  | nil =>
    obtain rfl := Except.ok.inj h
    exact hm
  | cons e rest ih =>
    rw [List.forall_mem_cons] at hdoc
    rw [addDocument_cons] at h
    obtain ⟨m₁, ha, hrest⟩ := bind_eq_ok_iff.mp h
    exact ih hrest ((added_of_addEntry ha).formed hm hdoc.1) hdoc.2

/-- A step leaves something in the document. -/
theorem Added.doc_ne_nil (h : Added p raw m key value m') : m'.doc ≠ [] := by
  have hsome : ∀ {present : Value}, get? m.doc key = some present → m.doc ≠ [] := by
    intro present hg hnil
    rw [hnil] at hg
    cases hg
  cases h with
  | fresh _ => exact Document.insert_ne_nil _ _ _
  | joined _ _ _ _ _ => exact Document.insert_ne_nil _ _ _
  | setAside _ hg _ _ => exact hsome hg
  | united _ _ _ _ _ => exact Document.insert_ne_nil _ _ _
  | replaced _ _ _ _ _ => exact Document.insert_ne_nil _ _ _
  | wrapped _ hg _ _ _ => exact hsome hg

theorem addDocument_ne_nil (h : m.addDocument p raw doc = .ok m') (hne : m.doc ≠ [] ∨ doc ≠ []) :
    m'.doc ≠ [] := by
  induction doc generalizing m with
  | nil =>
    obtain rfl := Except.ok.inj h
    exact hne.resolve_right (fun hnil => hnil rfl)
  | cons e rest ih =>
    rw [addDocument_cons] at h
    obtain ⟨m₁, ha, hrest⟩ := bind_eq_ok_iff.mp h
    exact ih hrest (.inl (added_of_addEntry ha).doc_ne_nil)

/-- The items that stand under `$and` already are documents of one key. -/
theorem Formed.exists_andItems (hm : m.Formed p) :
    ∃ docs : List Document, andItems m.doc = docs.map .document ∧ ∀ d ∈ docs, WellFormed p d
      ∧ (keys d).length = 1 ∧ (p ≠ .andWrap → keys d = [orKey] ∨ keys d = [andKey]) := by
  unfold andItems
  cases hg : get? m.doc andKey with
  | none => exact ⟨[], rfl, fun d hd => by cases hd⟩
  | some value =>
    obtain ⟨docs, rfl, -, h⟩ := (hm.of_get? hg).exists_docs_and
    exact ⟨docs, rfl, h⟩

/-- **The end of a merge is a well-formed document.** -/
theorem Formed.toDocument (hm : m.Formed p) (hne : m.doc ≠ []) : WellFormed p m.toDocument := by
  have hn := nodup_keys_toDocument hm.nodup
  by_cases hd : m.deferred = []
  · rw [toDocument_of_nil hd]
    exact .intro hne hm.nodup hm.entries
  · obtain ⟨docs, hdocs, hitems⟩ := hm.exists_andItems
    rw [toDocument_of_ne_nil hd] at hn ⊢
    refine .intro (List.append_ne_nil_of_right_ne_nil _ (List.cons_ne_nil _ _)) hn ?_
    refine List.forall_mem_append.mpr ⟨fun e he => ?_, List.forall_mem_singleton.mpr ?_⟩
    · exact hm.entries e (List.mem_filter.mp he).1
    · -- what was there before, and one document for each entry that was set aside
      have hmap : andItems m.doc ++ m.deferred.map (fun e => .document (Document.single e.1 e.2))
          = (docs ++ m.deferred.map fun e => Document.single e.1 e.2).map .document := by
        rw [hdocs, List.map_append, List.map_map]
        rfl
      have hall : ∀ d ∈ docs ++ m.deferred.map fun e => Document.single e.1 e.2, WellFormed p d
          ∧ (keys d).length = 1 ∧ (p ≠ .andWrap → keys d = [orKey] ∨ keys d = [andKey]) := by
        refine List.forall_mem_append.mpr ⟨hitems, List.forall_mem_map.mpr fun e he => ?_⟩
        refine ⟨(hm.deferred e he).single, rfl, fun hp => ?_⟩
        rcases hm.logical hp e he with hk | hk
        · exact .inl (congrArg (fun k => [k]) hk)
        · exact .inr (congrArg (fun k => [k]) hk)
      have hsome : docs ++ m.deferred.map (fun e => Document.single e.1 e.2) ≠ [] :=
        List.append_ne_nil_of_right_ne_nil _ (fun hnil => hd (List.map_eq_nil_iff.mp hnil))
      rw [hmap]
      exact .and hsome (fun d hd => (hall d hd).1) (fun d hd => (hall d hd).2.1)
        (fun hp d hd => (hall d hd).2.2 hp)

end Conjunction

/-! ## Expressions that texts write -/

namespace Expr

/-- **An expression as texts write it.** -/
structure Written (e : Expr) : Prop where
  /-- It is in normal form. -/
  normal : e.IsNormal
  /-- Every group has an operand. -/
  operands : e.HasOperands
  /-- No leaf is a ready-made document. -/
  fragments : e.fragments = []
  /-- No field looks like an operator. -/
  fields : ∀ c ∈ e.comparisons, isOperatorKey c.field = false

namespace Written

/-- **A group has two operands or more**, written as the group is. -/
theorem of_group {k : Connective} {operands : List Expr} (h : (k.group operands).Written) :
    2 ≤ operands.length ∧ ∀ e ∈ operands, e.Written := by
  obtain ⟨hn, -, hone⟩ := Connective.isNormal_group_iff.mp h.normal
  obtain ⟨ho, hne⟩ := Connective.hasOperands_group_iff.mp h.operands
  have hf := h.fragments
  have hc := h.fields
  rw [fragments_group, List.flatMap_eq_nil_iff] at hf
  rw [comparisons_group] at hc
  refine ⟨?_, fun e he => ⟨hn e he, ho e he, hf e he, fun c hmem => ?_⟩⟩
  · have hpos := List.length_pos_iff.mpr hne
    omega
  · exact hc c (List.mem_flatMap.mpr ⟨e, he, hmem⟩)

theorem of_merges {negated : Bool} {e : Expr} {operands : List Expr} (he : e.Written)
    (h : Filter.Merges negated e operands) : 2 ≤ operands.length ∧ ∀ b ∈ operands, b.Written := by
  cases h with
  | all => exact of_group (k := .and) he
  | any => exact of_group (k := .or) he

theorem of_lists {negated : Bool} {e : Expr} {operands : List Expr} (he : e.Written)
    (h : Filter.Lists negated e operands) : 2 ≤ operands.length ∧ ∀ b ∈ operands, b.Written := by
  cases h with
  | any => exact of_group (k := .or) he
  | all => exact of_group (k := .and) he

theorem of_not {operand : Expr} (h : (Expr.not operand).Written) : operand.Written := by
  obtain ⟨hn, ho, hf, hc⟩ := h
  cases hn with
  | not hn =>
    cases ho with
    | not ho => exact ⟨hn, ho, hf, hc⟩

/-- **What is joined from such expressions is one.** -/
theorem join (k : Connective) {es : List Expr} (h : ∀ e ∈ es, e.Written) (hne : es ≠ []) :
    (k.join es).Written where
  normal := Connective.isNormal_join fun e he => (h e he).normal
  operands := Connective.hasOperands_join (fun e he => (h e he).operands) hne
  fragments := by
    rw [k.collect_join (fragments_group k), List.flatMap_eq_nil_iff]
    exact fun e he => (h e he).fragments
  fields := by
    rw [k.collect_join (comparisons_group k)]
    intro c hc
    obtain ⟨e, he, hc⟩ := List.mem_flatMap.mp hc
    exact (h e he).fields c hc

end Written

end Expr

namespace Grammar

mutual

/-- The field of a comparison is a word of the query. -/
theorem Query.word_mem_tokens (q : Query) {t : Test} (h : t ∈ q.tests) :
    .word t.field ∈ q.tokens := by
  cases q with
  | last c => exact c.word_mem_tokens h
  | or c rest =>
    rw [Query.tokens, List.mem_append, List.mem_cons]
    rcases List.mem_append.mp h with h | h
    · exact .inl (c.word_mem_tokens h)
    · exact .inr (.inr (rest.word_mem_tokens h))

theorem Conjunct.word_mem_tokens (c : Conjunct) {t : Test} (h : t ∈ c.tests) :
    .word t.field ∈ c.tokens := by
  cases c with
  | last u => exact u.word_mem_tokens h
  | and u rest =>
    rw [Conjunct.tokens, List.mem_append, List.mem_cons]
    rcases List.mem_append.mp h with h | h
    · exact .inl (u.word_mem_tokens h)
    · exact .inr (.inr (rest.word_mem_tokens h))

theorem Unary.word_mem_tokens (u : Unary) {t : Test} (h : t ∈ u.tests) :
    .word t.field ∈ u.tokens := by
  cases u with
  | not u => exact List.mem_cons_of_mem _ (u.word_mem_tokens h)
  | primary p => exact p.word_mem_tokens h

theorem Primary.word_mem_tokens (p : Primary) {t : Test} (h : t ∈ p.tests) :
    .word t.field ∈ p.tokens := by
  cases p with
  | parens q =>
    exact List.mem_cons_of_mem _ (List.mem_append_left _ (q.word_mem_tokens h))
  | test t' =>
    obtain rfl := List.mem_singleton.mp h
    exact List.mem_cons_self

end

end Grammar

/-- A word does not look like an operator. -/
theorem isOperatorKey_eq_false {name : String}
    (h : ∀ c ∈ name.toList, Token.isWordChar c = true) : isOperatorKey name = false := by
  unfold isOperatorKey
  cases hname : name.toList with
  | nil => rfl
  | cons c cs =>
    have hc : Token.isWordChar c = true := h c (by rw [hname]; exact List.mem_cons_self)
    refine beq_eq_false_iff_ne.mpr (fun hdollar => ?_)
    rw [Option.some.inj hdollar] at hc
    exact absurd hc (by decide)

/-- **What is parsed is as texts write it.** -/
theorem Expr.written_of_parse {s : String} {e : Expr} (h : Expr.parse s = .ok e) : e.Written := by
  have hn := isNormal_of_parse h
  obtain ⟨q, hd, -, hw⟩ := exists_writes_of_parse h
  refine ⟨hn, hw.operands, hw.fragments, fun c hc => ?_⟩
  rw [hw.comparisons] at hc
  obtain ⟨t, ht, rfl⟩ := List.mem_map.mp hc
  have hlexes : Token.Lexes s.toList q.tokens := Token.lexes_iff.mpr hd
  exact isOperatorKey_eq_false (hlexes.word_chars (q.word_mem_tokens ht))

/-- **What holds of a field and of all aliases holds of the path** that
stands for the field. -/
theorem Options.resolve_of_forall {P : String → Prop} {o : Options} (ho : ∀ a ∈ o.aliases, P a.2)
    {field : String} (hf : P field) : P (o.resolve field) := by
  unfold Options.resolve
  cases hlookup : o.aliases.lookup field with
  | none => exact hf
  | some target =>
    obtain ⟨before, after, haliases, -⟩ := List.lookup_eq_some_iff.mp hlookup
    exact ho (field, target) (haliases ▸ List.mem_append_right _ List.mem_cons_self)

/-- A field that does not look like an operator does not stand for one. -/
theorem isOperatorKey_resolve {o : Options} (ho : ∀ a ∈ o.aliases, isOperatorKey a.2 = false)
    {field : String} (hf : isOperatorKey field = false) :
    isOperatorKey (o.resolve field) = false :=
  Options.resolve_of_forall (P := fun path => isOperatorKey path = false) ho hf

/-! ## Translating -/

namespace Filter

variable {o : Options} {negated : Bool} {operands : List Expr}

/-- **The document of a comparison is well formed**, if its field is not an
operator. -/
theorem wellFormed_comparison {c : Comparison} {d : Document}
    (hf : isOperatorKey (o.resolve c.field) = false) (h : ofComparison o negated c = .ok d) :
    WellFormed p d := by
  cases compared_of_ofComparison h with
  | code _ _ => exact (EntryFormed.code _).single
  | operator _ ho =>
    refine EntryFormed.single (.operators hf ?_ ?_ ?_)
    · exact List.cons_ne_nil _ _
    · exact List.nodup_singleton _
    · exact List.forall_mem_singleton.mpr ho
  | literal _ => exact (EntryFormed.scalar hf c.value.isScalar_toValue).single

/-- **An `and` of something merges to a well-formed document.** -/
theorem formed_allOf
    (ih : ∀ e ∈ operands, ∀ d, ofExpr o negated e = .ok d → WellFormed o.collision d)
    {m m' : Conjunction} (hm : m.Formed o.collision) (hne : m.doc ≠ [] ∨ operands ≠ [])
    (h : allOf o negated m operands = .ok m') : m'.Formed o.collision ∧ m'.doc ≠ [] := by
  induction operands generalizing m with
  | nil =>
    rw [allOf] at h
    obtain rfl := Except.ok.inj h
    exact ⟨hm, hne.resolve_right (fun hnil => hnil rfl)⟩
  | cons e rest ihr =>
    rw [List.forall_mem_cons] at ih
    rw [allOf_cons] at h
    obtain ⟨d, hd, h⟩ := bind_eq_ok_iff.mp h
    obtain ⟨m₁, hm₁, hrest⟩ := bind_eq_ok_iff.mp h
    cases ih.1 d hd with
    | intro hdne _ hentries =>
      exact ihr ih.2 (Conjunction.addDocument_formed hm₁ hm hentries)
        (.inl (Conjunction.addDocument_ne_nil hm₁ (.inr hdne))) hrest

/-- **What a document contributes to an `or`** is documents that are not
only an `$or`, one at least. -/
theorem exists_docs_of_alternatives {d : Document} (h : WellFormed p d) :
    ∃ docs : List Document, alternatives d = docs.map .document ∧ docs ≠ []
      ∧ ∀ d' ∈ docs, WellFormed p d' ∧ keys d' ≠ [orKey] := by
  by_cases hkeys : keys d = [orKey]
  · -- an `$or` by itself has a list, and the list is spliced
    obtain ⟨e, rfl, hk⟩ := List.map_eq_singleton_iff.mp hkeys
    obtain ⟨key, value⟩ := e
    have hk : key = orKey := hk
    subst hk
    cases h with
    | intro _ _ hentries =>
      obtain ⟨docs, hvalue, hne, hdocs⟩ :=
        (hentries _ List.mem_cons_self).exists_docs_or
      have hvalue : value = .list (docs.map .document) := hvalue
      subst hvalue
      exact ⟨docs, rfl, hne, hdocs⟩
  · rcases alternatives_cases d with ⟨items, rfl, -⟩ | halt
    · exact absurd rfl hkeys
    · exact ⟨[d], halt, List.cons_ne_nil _ _, List.forall_mem_singleton.mpr ⟨h, hkeys⟩⟩

/-- **An `or` lists well-formed documents**, at least one for each
operand. -/
theorem exists_docs_of_anyOf_formed
    (ih : ∀ e ∈ operands, ∀ d, ofExpr o negated e = .ok d → WellFormed p d)
    {items : List Value} (h : anyOf o negated operands = .ok items) :
    ∃ docs : List Document, items = docs.map .document ∧ operands.length ≤ docs.length
      ∧ ∀ d ∈ docs, WellFormed p d ∧ keys d ≠ [orKey] := by
  induction operands generalizing items with
  | nil =>
    rw [anyOf] at h
    obtain rfl := Except.ok.inj h
    exact ⟨[], rfl, Nat.le_refl 0, fun d hd => by cases hd⟩
  | cons e rest ihr =>
    rw [List.forall_mem_cons] at ih
    rw [anyOf_cons] at h
    obtain ⟨d, hd, h⟩ := bind_eq_ok_iff.mp h
    obtain ⟨more, hmore, rfl⟩ := map_eq_ok_iff.mp h
    obtain ⟨first, hfirst, hne, hdocs⟩ := exists_docs_of_alternatives (ih.1 d hd)
    obtain ⟨docs, rfl, hlength, hrest⟩ := ihr ih.2 hmore
    refine ⟨first ++ docs, by rw [hfirst, List.map_append], ?_,
      List.forall_mem_append.mpr ⟨hdocs, hrest⟩⟩
    have hpos := List.length_pos_iff.mpr hne
    rw [List.length_append, List.length_cons]
    omega

/-- **The document of a query's expression is well formed**, if no field
stands for an operator. -/
theorem wellFormed_ofExpr (ho : ∀ a ∈ o.aliases, isOperatorKey a.2 = false) {e : Expr}
    (he : e.Written) {d : Document} (h : ofExpr o negated e = .ok d) :
    WellFormed o.collision d := by
  refine ofExpr_induction (P := fun _ e d => e.Written → WellFormed o.collision d)
    ?_ ?_ ?_ ?_ ?_ h he
  · intro negated c d h he
    exact wellFormed_comparison (isOperatorKey_resolve ho (he.fields c List.mem_cons_self)) h
  · intro negated e operands m hmerges ih hm he
    obtain ⟨htwo, hall⟩ := he.of_merges hmerges
    obtain ⟨hformed, hdoc⟩ := formed_allOf (fun b hb d hd => ih b hb d hd (hall b hb))
      Conjunction.formed_empty (.inr (List.ne_nil_of_length_pos (Nat.lt_of_succ_lt htwo))) hm
    exact hformed.toDocument hdoc
  · intro negated e operands items hlists ih hitems he
    obtain ⟨htwo, hall⟩ := he.of_lists hlists
    obtain ⟨docs, rfl, hlength, hdocs⟩ :=
      exists_docs_of_anyOf_formed (fun b hb d hd => ih b hb d hd (hall b hb)) hitems
    exact (EntryFormed.or (Nat.le_trans htwo hlength) (fun d hd => (hdocs d hd).1)
      (fun d hd => (hdocs d hd).2)).single
  · exact fun ih he => ih he.of_not
  · exact fun {negated doc d} _ he => absurd he.fragments (List.cons_ne_nil doc [])

end Filter

/-! ## Queries -/

/-- **A query of texts that asks for something**: a text that is not blank,
clauses of which there is one, or groups of which there is one and none is
empty. -/
def Query.Asks : Query → Prop
  | .text s => Text.isAllBlank s = false
  | .clauses cs => cs ≠ [] ∧ ∀ c ∈ cs, ∃ s, c = .text s
  | .groups gs => gs ≠ [] ∧ ∀ g ∈ gs, g ≠ [] ∧ ∀ c ∈ g, ∃ s, c = .text s

namespace Query

/-- Clauses that are texts form an expression as texts write it. -/
theorem written_of_parseAll {cs : List Clause} {es : List Expr} (hne : cs ≠ [])
    (htext : ∀ c ∈ cs, ∃ s, c = .text s) (h : Clause.parseAll cs = .ok es) :
    (Expr.conj es).Written := by
  refine Expr.Written.join .and (fun e he => ?_) (fun hnil => hne ?_)
  · obtain ⟨c, hc, hce⟩ := Clause.exists_of_mem_parseAll h he
    obtain ⟨s, rfl⟩ := htext c hc
    exact Expr.written_of_parse hce
  · rw [hnil, Clause.parseAll_eq_ok_iff] at h
    exact List.forall₂_nil_right_iff.mp h

/-- **A query that asks for something has an expression**, if it is parsed
at all. -/
theorem Asks.exists_written {q : Query} (hq : q.Asks) {r : Option Expr} (h : q.parse = .ok r) :
    ∃ e, r = some e ∧ e.Written := by
  cases q with
  | text s =>
    have hparse : (Expr.parse s).map some = .ok r := by
      rw [← h, parse, if_neg (by rw [hq]; decide)]
    obtain ⟨e, he, rfl⟩ := map_eq_ok_iff.mp hparse
    exact ⟨e, rfl, Expr.written_of_parse he⟩
  | clauses cs =>
    obtain ⟨hne, htext⟩ := hq
    obtain ⟨es, hes⟩ := Clause.exists_parseAll_of_parseList h
    have hparse : (Query.clauses cs).parse = .ok (some (Expr.conj es)) :=
      Clause.parseList_eq hes hne
    exact ⟨_, Except.ok.inj (h.symm.trans hparse), written_of_parseAll hne htext hes⟩
  | groups gs =>
    obtain ⟨hne, hgs⟩ := hq
    obtain ⟨ess, hess⟩ := exists_parseAll_of_parse_groups h
    have hparse := parse_groups_eq hess hne (fun g hg => (hgs g hg).1)
    refine ⟨_, Except.ok.inj (h.symm.trans hparse), Expr.Written.join .or ?_ (fun hnil => ?_)⟩
    · clear h hparse hne
      induction hess with
      | nil => exact fun e he => by cases he
      | cons hg _ ih =>
        rw [List.forall_mem_cons] at hgs
        exact List.forall_mem_cons.mpr ⟨written_of_parseAll hgs.1.1 hgs.1.2 hg, ih hgs.2⟩
    · rw [List.map_eq_nil_iff.mp hnil] at hess
      exact hne (List.forall₂_nil_right_iff.mp hess)

/-- **Filters are well formed.** Let a query ask for something in texts,
and let no field stand for an operator by its alias. If it has a filter,
the filter is well formed under the policy at hand. -/
theorem wellFormed_toFilter {o : Options} (ho : ∀ a ∈ o.aliases, isOperatorKey a.2 = false)
    {q : Query} (hq : q.Asks) {d : Document} (h : q.toFilter o = .ok d) :
    WellFormed o.collision d := by
  unfold toFilter at h
  cases hparse : q.parse with
  | error err =>
    rw [hparse] at h
    cases h
  | ok r =>
    obtain ⟨e, rfl, he⟩ := hq.exists_written hparse
    rw [hparse] at h
    cases hd : e.toFilter o with
    | error err =>
      dsimp only at h
      rw [hd] at h
      cases h
    | ok d' =>
      dsimp only at h
      rw [hd] at h
      obtain rfl := Except.ok.inj h
      exact Filter.wellFormed_ofExpr ho he hd

/-- Two constraints on a field that are kept side by side. -/
theorem wellFormed_toFilter_wrapped :
    (Query.text "a = true and a = null").toFilter ⟨.andWrap, [("a", "x")]⟩
        = .ok [("x", .bool true), ("$and", .list [.document [("x", .null)]])]
      ∧ WellFormed .andWrap [("x", .bool true), ("$and", .list [.document [("x", .null)]])] := by
  have hparse : Expr.parse "a = true and a = null" = .ok (.all
      [.comparison ⟨"a", .relation .eq, .bool true⟩, .comparison ⟨"a", .relation .eq, .null⟩]) := by
    cbv
  have hblank : Text.isAllBlank "a = true and a = null" = false := by decide +kernel
  have hfilter : (Query.text "a = true and a = null").toFilter ⟨.andWrap, [("a", "x")]⟩
      = .ok [("x", .bool true), ("$and", .list [.document [("x", .null)]])] := by
    rw [toFilter, parse, if_neg (by rw [hblank]; decide), hparse]
    rfl
  have hasks : (Query.text "a = true and a = null").Asks := hblank
  exact ⟨hfilter, wellFormed_toFilter (by decide) hasks hfilter⟩

end Query

end DocFilter
