import DocFilter.Proofs.Leaves
import DocFilter.Proofs.Meaning

/-!
# A filter says what its expression says

Under the policy that keeps every constraint, the document of an
expression holds of a record exactly when the expression does, whatever
the atoms mean (`toFilter_faithful`). The induction is over the
expression and over both signs at once: a negation is never written down
but carried to the leaves, so the document of an expression *under a
negation* has to say the contrary.

Between the leaves lies merging, and merging keeps meaning only on entries
that `EntryFit` describes: code under `$where` is a chain of atoms, so
that it can be joined as it stands, and a map gives each of its keys once,
so that uniting two maps loses no operator. The entries of translated
documents are of this kind and merging keeps them so
(`Conjunction.Fit`).
-/

namespace DocFilter

open Document (get? keys)

/-! ## Signs -/

/-- What is said of a proposition under a sign: itself, or its negation. -/
def Signed (negated : Bool) (p : Prop) : Prop :=
  if negated = true then ¬ p else p

@[simp] theorem signed_false (p : Prop) : Signed false p ↔ p := Iff.rfl

@[simp] theorem signed_true (p : Prop) : Signed true p ↔ ¬ p := Iff.rfl

/-- A negation changes the sign. -/
theorem signed_not (negated : Bool) (p : Prop) : Signed negated (¬ p) ↔ Signed (!negated) p := by
  cases negated with
  | false => exact Iff.rfl
  | true => exact not_not

/-- A relation under a sign holds exactly when it does, so signed. -/
theorem Reading.compares_underNegation (I : Reading) (negated : Bool) (field : String)
    (r : Relation) (value : Value) :
    I.compares field (r.underNegation negated) value
      ↔ Signed negated (I.compares field r value) := by
  cases negated with
  | false => exact Iff.rfl
  | true => exact I.compares_complement field r value

theorem Reading.hasSize_underNegation (I : Reading) (negated : Bool) (field : String)
    (r : Relation) (n : Int) :
    I.hasSize field (r.underNegation negated) n ↔ Signed negated (I.hasSize field r n) := by
  cases negated with
  | false => exact Iff.rfl
  | true => exact I.hasSize_complement field r n

/-! ## Entries that merging understands -/

/-- **An entry whose meaning merging keeps.** -/
structure EntryFit (key : String) (value : Value) : Prop where
  /-- Code is a chain of atoms. -/
  code : key = whereKey → ∃ text ps, value = .text text ∧ Predicate.Chain text.toList ps
  /-- A map gives each key once. -/
  map : ∀ doc, value = .document doc → (keys doc).Nodup

/-- A document whose entries merging understands. -/
def DocumentFit (doc : Document) : Prop :=
  ∀ e ∈ doc, EntryFit e.1 e.2

theorem documentFit_single {key : String} {value : Value} (h : EntryFit key value) :
    DocumentFit (Document.single key value) := by
  intro e he
  obtain rfl := List.mem_singleton.mp he
  exact h

/-- A list is fit under every key but that of code. -/
theorem entryFit_list {key : String} (hk : key ≠ whereKey) (items : List Value) :
    EntryFit key (.list items) :=
  ⟨fun h => absurd h hk, fun _ h => by cases h⟩

namespace Conjunction

variable {I : Reading} {raw : Bool} {m m' : Conjunction} {key : String} {value : Value}

/-- **A conjunction that merging understands.** -/
structure Fit (m : Conjunction) : Prop where
  /-- No key is given twice. -/
  nodup : (keys m.doc).Nodup
  /-- There is no raw code. -/
  raw : m.rawWhere = false
  /-- The entries are fit. -/
  entries : DocumentFit m.doc

theorem fit_empty : empty.Fit :=
  ⟨List.nodup_nil, rfl, fun _ he => by cases he⟩

/-- **What a conjunction in the making says**: what is in the document and
what was set aside. -/
def Holds (I : Reading) (m : Conjunction) : Prop :=
  I.documentHolds m.doc ∧ ∀ e ∈ m.deferred, I.entryHolds e.1 e.2

theorem holds_empty : empty.Holds I :=
  ⟨trivial, fun _ he => by cases he⟩

/-- What is set aside counts. -/
theorem holds_defer (m : Conjunction) (key : String) (value : Value) :
    (m.defer key value).Holds I ↔ m.Holds I ∧ I.entryHolds key value := by
  unfold Holds defer
  simp only [List.forall_mem_append, List.forall_mem_singleton, and_assoc]

/-- The entry under a key that is there, apart from the others. -/
theorem holds_split {before after : Document} (hdoc : m.doc = before ++ (key, value) :: after) :
    m.Holds I ↔ I.entryHolds key value
      ∧ (I.documentHolds (before ++ after) ∧ ∀ e ∈ m.deferred, I.entryHolds e.1 e.2) := by
  unfold Holds
  rw [hdoc, Reading.documentHolds_append, Reading.documentHolds_append, Reading.documentHolds]
  tauto

/-- A value that says more than the one it takes the place of. -/
theorem holds_put {present both : Value} (hg : get? m.doc key = some present)
    (h : I.entryHolds key both ↔ I.entryHolds key present ∧ I.entryHolds key value) :
    (m.put key both).Holds I ↔ m.Holds I ∧ I.entryHolds key value := by
  obtain ⟨before, after, hdoc, hb⟩ := Document.exists_split hg
  have hput : (m.put key both).doc = before ++ (key, both) :: after := by
    unfold put
    rw [hdoc, Document.insert_split hb]
  have hdeferred : (m.put key both).deferred = m.deferred := rfl
  rw [holds_split hput, holds_split hdoc, hdeferred, h]
  tauto

/-- Fitness of a value that takes a place. -/
theorem fit_put (hm : m.Fit) (hv : EntryFit key value) :
    DocumentFit (m.put key value).doc := by
  unfold put
  cases hg : get? m.doc key with
  | none =>
    rw [Document.insert_of_not_mem (Document.get?_eq_none_iff.mp hg)]
    intro e he
    rcases List.mem_append.mp he with he | he
    · exact hm.entries e he
    · obtain rfl := List.mem_singleton.mp he
      exact hv
  | some present =>
    obtain ⟨before, after, hdoc, hb⟩ := Document.exists_split hg
    rw [hdoc, Document.insert_split hb]
    intro e he
    rw [List.mem_append, List.mem_cons] at he
    have hold : ∀ e, e ∈ before ∨ e ∈ after → EntryFit e.1 e.2 := by
      intro e he
      refine hm.entries e ?_
      rw [hdoc, List.mem_append, List.mem_cons]
      tauto
    rcases he with he | rfl | he
    · exact hold e (.inl he)
    · exact hv
    · exact hold e (.inr he)

/-- The value that is found under a key is fit. -/
theorem Fit.of_get? (hm : m.Fit) {present : Value} (hg : get? m.doc key = some present) :
    EntryFit key present := by
  obtain ⟨before, after, hdoc, -⟩ := Document.exists_split hg
  refine hm.entries (key, present) ?_
  rw [hdoc]
  exact List.mem_append_right _ List.mem_cons_self

/-- **One entry keeps a conjunction fit.** -/
theorem Added.fit (h : Added .andWrap raw m key value m') (hm : m.Fit) (hv : EntryFit key value)
    (hraw : key = whereKey → raw = false) : m'.Fit := by
  have hn := h.nodup_keys hm.nodup
  cases h with
  | fresh hg =>
    refine ⟨hn, ?_, fit_put hm hv⟩
    show (if key = whereKey then raw else m.rawWhere) = false
    split
    · rename_i hk
      exact hraw hk
    · exact hm.raw
  | joined present code hk hg hj =>
    refine ⟨hn, rfl, fit_put hm ⟨fun _ => ?_, fun _ h => by cases h⟩⟩
    obtain ⟨l, ps, rfl, hl⟩ := (hm.of_get? hg).code hk
    obtain ⟨r, qs, rfl, hr⟩ := hv.code hk
    rw [hm.raw, hraw hk] at hj
    exact ⟨code, ps ++ qs, rfl, hl.joinWhere hr hj⟩
  | setAside _ _ _ _ => exact ⟨hn, hm.raw, hm.entries⟩
  | united present both hg hk hu =>
    refine ⟨hn, hm.raw, fit_put hm ⟨fun h => ?_, fun doc hdoc => ?_⟩⟩
    · exact absurd h (ne_of_isOperatorKey hk isOperatorKey_whereKey)
    · obtain ⟨l, r, rfl, rfl, -, -, hd, rfl⟩ := Value.uniteOperators?_eq_some hu
      have hl := (hm.of_get? hg).map l rfl
      have hr := hv.map r rfl
      rw [← Value.document.inj hdoc, Document.append_eq_of_disjoint l hr hd, Document.keys_append,
        List.nodup_append]
      exact ⟨hl, hr, fun a ha b hb hab => hd b hb (hab ▸ ha)⟩
  | replaced _ _ _ _ hp => cases hp
  | wrapped _ _ _ _ _ => exact ⟨hn, hm.raw, hm.entries⟩

/-- **One entry adds what it says.** -/
theorem Added.holds_iff (h : Added .andWrap raw m key value m') (hm : m.Fit)
    (hv : EntryFit key value) (hraw : key = whereKey → raw = false) :
    m'.Holds I ↔ m.Holds I ∧ I.entryHolds key value := by
  cases h with
  | fresh hg =>
    show I.documentHolds (Document.insert m.doc key value) ∧ _ ↔ _
    rw [Document.insert_of_not_mem (Document.get?_eq_none_iff.mp hg),
      Reading.documentHolds_append]
    show (_ ∧ I.documentHolds (Document.single key value)) ∧ _ ↔ _
    rw [Reading.documentHolds_single]
    unfold Holds
    tauto
  | joined present code hk hg hj =>
    refine holds_put (m := m) hg ?_
    obtain ⟨l, ps, rfl, hl⟩ := (hm.of_get? hg).code hk
    obtain ⟨r, qs, rfl, hr⟩ := hv.code hk
    rw [hm.raw, hraw hk] at hj
    rw [hk, Reading.entryHolds_where, Reading.entryHolds_where, Reading.entryHolds_where,
      Reading.codeHolds_chain (hl.joinWhere hr hj), Reading.codeHolds_chain hl,
      Reading.codeHolds_chain hr, List.forall_mem_append]
  | setAside _ _ _ _ => exact holds_defer m key value
  | united present both hg hk hu =>
    refine holds_put (m := m) hg ?_
    obtain ⟨l, r, rfl, rfl, hol, hor, hd, rfl⟩ := Value.uniteOperators?_eq_some hu
    rw [Document.append_eq_of_disjoint l (hv.map r rfl) hd,
      Reading.entryHolds_operators (Document.isOperatorMap_append hol hor),
      Reading.entryHolds_operators hol, Reading.entryHolds_operators hor, List.forall_mem_append]
  | replaced _ _ _ _ hp => cases hp
  | wrapped _ _ _ _ _ => exact holds_defer m key value

/-- **A document adds what it says.** -/
theorem addDocument_holds_iff {doc : Document} (hm : m.Fit) (hdoc : DocumentFit doc)
    (hraw : raw = true → whereKey ∉ keys doc) (h : m.addDocument .andWrap raw doc = .ok m') :
    m'.Fit ∧ (m'.Holds I ↔ m.Holds I ∧ I.documentHolds doc) := by
  induction doc generalizing m with
  | nil =>
    obtain rfl := Except.ok.inj h
    exact ⟨hm, (and_iff_left trivial).symm⟩
  | cons e rest ih =>
    obtain ⟨k, v⟩ := e
    have hv : EntryFit k v := hdoc (k, v) List.mem_cons_self
    have hk : k = whereKey → raw = false := by
      rintro rfl
      by_contra hr
      exact hraw (by simpa using hr) List.mem_cons_self
    rw [addDocument_cons] at h
    obtain ⟨m₁, ha, hrest⟩ := bind_eq_ok_iff.mp h
    have hadded := added_of_addEntry ha
    obtain ⟨hfit, hholds⟩ := ih (hadded.fit hm hv hk)
      (fun e he => hdoc e (List.mem_cons_of_mem _ he))
      (fun hr hmem => hraw hr (List.mem_cons_of_mem _ hmem)) hrest
    refine ⟨hfit, ?_⟩
    rw [hholds, hadded.holds_iff hm hv hk, Reading.documentHolds, and_assoc]

/-- Items that hold one entry each say what the entries say. -/
theorem allHold_single (entries : List (String × Value)) :
    I.allHold (entries.map fun e => .document (Document.single e.1 e.2))
      ↔ ∀ e ∈ entries, I.entryHolds e.1 e.2 := by
  induction entries with
  | nil => simp [Reading.allHold]
  | cons e rest ih =>
    rw [List.map_cons, Reading.allHold, ih, List.forall_mem_cons]
    exact and_congr_left' (Reading.documentHolds_single e.1 e.2)

/-- The items that are under `$and` say what its entry says. -/
theorem allHold_andItems {doc : Document} {present : Value} (hg : get? doc andKey = some present) :
    I.allHold (andItems doc) ↔ I.entryHolds andKey present := by
  unfold andItems
  rw [hg]
  cases present with
  | list items => exact (Reading.entryHolds_and items).symm
  | null => exact (and_iff_left trivial).trans (Reading.documentHolds_single andKey _)
  | bool b => exact (and_iff_left trivial).trans (Reading.documentHolds_single andKey _)
  | int n => exact (and_iff_left trivial).trans (Reading.documentHolds_single andKey _)
  | float d => exact (and_iff_left trivial).trans (Reading.documentHolds_single andKey _)
  | text t => exact (and_iff_left trivial).trans (Reading.documentHolds_single andKey _)
  | document d => exact (and_iff_left trivial).trans (Reading.documentHolds_single andKey _)

/-- These items and the rest of the document say what the document says. -/
theorem holds_erase_andItems {doc : Document} (hn : (keys doc).Nodup) :
    I.documentHolds (Document.erase doc andKey) ∧ I.allHold (andItems doc)
      ↔ I.documentHolds doc := by
  cases hg : get? doc andKey with
  | none =>
    rw [Document.erase_of_not_mem (Document.get?_eq_none_iff.mp hg)]
    unfold andItems
    rw [hg]
    exact and_iff_left trivial
  | some present =>
    rw [allHold_andItems hg]
    obtain ⟨before, after, rfl, -⟩ := Document.exists_split hg
    rw [Document.erase_split hn, Reading.documentHolds_append, Reading.documentHolds_append,
      Reading.documentHolds]
    tauto

/-- **The finished document says what the conjunction says.** -/
theorem documentHolds_toDocument (hn : (keys m.doc).Nodup) :
    I.documentHolds m.toDocument ↔ m.Holds I := by
  unfold Holds
  by_cases hd : m.deferred = []
  · rw [toDocument_of_nil hd, hd]
    exact (and_iff_left (fun _ he => by cases he)).symm
  · rw [toDocument_of_ne_nil hd, Reading.documentHolds_append, Reading.documentHolds_single,
      Reading.entryHolds_and, Reading.allHold_append, allHold_single, ← holds_erase_andItems hn,
      and_assoc]

/-- The finished document is fit. -/
theorem Fit.toDocument (hm : m.Fit) : DocumentFit m.toDocument := by
  by_cases hd : m.deferred = []
  · rw [toDocument_of_nil hd]
    exact hm.entries
  · rw [toDocument_of_ne_nil hd]
    intro e he
    rcases List.mem_append.mp he with he | he
    · exact hm.entries e (List.mem_filter.mp he).1
    · exact documentFit_single (entryFit_list (by decide) _) e he

end Conjunction

/-! ## Leaves -/

namespace Filter

variable {I : Reading} {o : Options} {negated : Bool}

/-- A field under one operator wants that operator. -/
theorem holds_underOperator {field op : String} (ho : isOperatorKey op = true) (value : Value) :
    I.documentHolds (underOperator field op value) ↔ I.operatorHolds field op value := by
  have hmap : Document.isOperatorMap (Document.single op value) = true := by
    show (!false && (isOperatorKey op && true)) = true
    rw [ho]
    rfl
  unfold underOperator
  rw [Reading.documentHolds_single, Reading.entryHolds_operators hmap]
  exact List.forall_mem_singleton

/-- A field under one operator is fit. -/
theorem fit_underOperator {field : String} (hk : isOperatorKey field = false) (op : String)
    (value : Value) : DocumentFit (underOperator field op value) := by
  refine documentFit_single ⟨fun h => ?_, fun doc h => ?_⟩
  · exact absurd h (ne_of_isOperatorKey hk isOperatorKey_whereKey)
  · rw [← Value.document.inj h]
    exact List.nodup_singleton op

/-- A field held against a literal wants equality. -/
theorem holds_literal {field : String} (hk : isOperatorKey field = false) (value : Literal) :
    I.documentHolds (Document.single field value.toValue)
      ↔ I.compares field .eq value.toValue := by
  have hw : field ≠ whereKey := ne_of_isOperatorKey hk isOperatorKey_whereKey
  have hscalar := value.isScalar_toValue
  rw [Reading.documentHolds_single]
  cases hv : value.toValue with
  | text s => rw [Reading.entryHolds, if_neg hw]
  | list items => rw [hv] at hscalar; cases hscalar
  | document entries => rw [hv] at hscalar; cases hscalar
  | null | bool _ | int _ | float _ => exact Iff.rfl

theorem fit_literal {field : String} (hk : isOperatorKey field = false) (value : Literal) :
    DocumentFit (Document.single field value.toValue) := by
  refine documentFit_single ⟨fun h => ?_, fun doc h => ?_⟩
  · exact absurd h (ne_of_isOperatorKey hk isOperatorKey_whereKey)
  · have hscalar := value.isScalar_toValue
    rw [h] at hscalar
    cases hscalar

/-- Code of a test says what it tests and is fit. -/
theorem holds_underWhere {code : String} (h : Predicate.IsAtom code.toList) :
    DocumentFit (underWhere code) ∧ (I.documentHolds (underWhere code) ↔ I.code code) := by
  unfold underWhere
  refine ⟨documentFit_single ⟨fun _ => ⟨code, _, rfl, .atom h⟩, fun _ h => by cases h⟩, ?_⟩
  rw [Reading.documentHolds_single, Reading.entryHolds_where, Reading.codeHolds_atom h]

/-- The operator of a relation stands for it. -/
theorem operatorHolds_relation {r : Relation} {key : String} (h : r.operatorKey? = some key)
    (field : String) (value : Value) :
    isOperatorKey key = true ∧ (I.operatorHolds field key value ↔ I.compares field r value) := by
  cases r <;> first | (obtain rfl := Option.some.inj h; exact ⟨by decide, Iff.rfl⟩) | cases h

/-- Only equality needs no operator. -/
theorem eq_of_operatorKey?_eq_none {r : Relation} (h : r.operatorKey? = none) : r = .eq := by
  cases r <;> first | rfl | cases h

/-- **The document of a comparison says what it says**, under either
sign. -/
theorem ofComparison_faithful {c : Comparison} {d : Document}
    (hk : isOperatorKey (o.resolve c.field) = false) (h : ofComparison o negated c = .ok d) :
    DocumentFit d
      ∧ (I.documentHolds d
        ↔ Signed negated (I.comparisonHolds (o.resolve c.field) c.op c.value)) := by
  obtain ⟨field, op, value⟩ := c
  unfold ofComparison at h
  dsimp only at h hk ⊢
  generalize o.resolve field = path at h hk ⊢
  cases op with
  | relation r =>
    show _ ∧ (_ ↔ Signed negated (I.compares path r value.toValue))
    rw [← I.compares_underNegation]
    dsimp only [Operator.relation?] at h
    cases hkey : (r.underNegation negated).operatorKey? with
    | some key =>
      rw [hkey] at h
      obtain rfl := Except.ok.inj h
      obtain ⟨ho, hholds⟩ := operatorHolds_relation (I := I) hkey path value.toValue
      exact ⟨fit_underOperator hk _ _, (holds_underOperator ho _).trans hholds⟩
    | none =>
      rw [hkey] at h
      obtain rfl := Except.ok.inj h
      rw [eq_of_operatorKey?_eq_none hkey]
      exact ⟨fit_literal hk value, holds_literal hk value⟩
  | typeOf =>
    cases value with
    | typeName type =>
      dsimp only at h
      cases ht : Predicate.ofType path type with
      | error e => rw [ht] at h; cases h
      | ok code =>
        rw [ht] at h
        obtain rfl := Except.ok.inj h
        have hatom := Predicate.isAtom_ofType ht
        cases negated with
        | false =>
          obtain ⟨hfit, hholds⟩ := holds_underWhere (I := I) hatom
          exact ⟨hfit, hholds.trans (I.code_ofType ht)⟩
        | true =>
          obtain ⟨hfit, hholds⟩ := holds_underWhere (I := I) (Predicate.isAtom_negated hatom)
          exact ⟨hfit, hholds.trans (I.code_negated ht)⟩
    | _ => cases h
  | presence =>
    cases value with
    | bool present =>
      obtain rfl := Except.ok.inj h
      refine ⟨fit_underOperator hk _ _, (holds_underOperator (by decide) _).trans ?_⟩
      show (I.present path ↔ (present != negated) = true)
        ↔ Signed negated (I.present path ↔ present = true)
      cases negated <;> cases present <;> simp
    | _ => cases h
  | pattern =>
    cases value with
    | text p =>
      cases negated with
      | false =>
        obtain rfl := Except.ok.inj h
        exact ⟨fit_underOperator hk _ _, holds_underOperator (by decide) _⟩
      | true =>
        obtain rfl := Except.ok.inj h
        exact ⟨fit_underOperator hk _ _, holds_underOperator (by decide) _⟩
    | _ => cases h
  | size r =>
    cases value with
    | int n =>
      show _ ∧ (_ ↔ Signed negated (I.hasSize path r n))
      rw [← I.hasSize_underNegation]
      dsimp only at h
      split at h
      · rename_i heq
        obtain rfl := Except.ok.inj h
        rw [heq]
        exact ⟨fit_underOperator hk _ _, holds_underOperator (by decide) _⟩
      · obtain ⟨code, hs, rfl⟩ := map_eq_ok_iff.mp h
        obtain ⟨hfit, hholds⟩ := holds_underWhere (I := I) (Predicate.isAtom_ofSize hs)
        exact ⟨hfit, hholds.trans (I.code_ofSize hs)⟩
    | _ => cases h

/-! ## Groups -/

/-- **The document of an expression says what the expression says**, under
either sign, in a form that merging understands. A ready-made document
that is merged as it is brings no code. -/
def Faithful (I : Reading) (o : Options) (e : Expr) : Prop :=
  ∀ negated d, ofExpr o negated e = .ok d →
    DocumentFit d ∧ (isRaw negated e = true → whereKey ∉ keys d)
      ∧ (I.documentHolds d ↔ Signed negated (I.exprHolds o.resolve e))

variable {operands : List Expr}

/-- **Operands that all hold are merged** into a conjunction that says so. -/
theorem allOf_faithful (hp : o.collision = .andWrap) (ih : ∀ e ∈ operands, Faithful I o e)
    {m m' : Conjunction} (hm : m.Fit) (h : allOf o negated m operands = .ok m') :
    m'.Fit ∧ (m'.Holds I
      ↔ m.Holds I ∧ ∀ e ∈ operands, Signed negated (I.exprHolds o.resolve e)) := by
  induction operands generalizing m with
  | nil =>
    rw [allOf] at h
    obtain rfl := Except.ok.inj h
    exact ⟨hm, (and_iff_left (fun _ he => by cases he)).symm⟩
  | cons e rest ihr =>
    rw [allOf_cons] at h
    obtain ⟨doc, hdoc, h⟩ := bind_eq_ok_iff.mp h
    obtain ⟨m₁, hadd, hrest⟩ := bind_eq_ok_iff.mp h
    obtain ⟨hfit, hraw, hholds⟩ := ih e List.mem_cons_self negated doc hdoc
    rw [hp] at hadd
    obtain ⟨hm₁, hadd⟩ := Conjunction.addDocument_holds_iff (I := I) hm hfit hraw hadd
    obtain ⟨hm', hall⟩ := ihr (fun e he => ih e (List.mem_cons_of_mem _ he)) hm₁ hrest
    refine ⟨hm', ?_⟩
    rw [hall, hadd, hholds, List.forall_mem_cons, and_assoc]

/-- What a document contributes to an `or` says what the document says. -/
theorem someHolds_alternatives (doc : Document) :
    I.someHolds (alternatives doc) ↔ I.documentHolds doc := by
  rcases alternatives_cases doc with ⟨items, rfl, halt⟩ | halt
  · rw [halt, ← Reading.entryHolds_or, ← Reading.documentHolds_single]
    exact Iff.rfl
  · rw [halt]
    exact or_iff_left not_false

/-- **Operands of which one holds are listed** in alternatives that say
so. -/
theorem anyOf_faithful (ih : ∀ e ∈ operands, Faithful I o e) {items : List Value}
    (h : anyOf o negated operands = .ok items) :
    I.someHolds items ↔ ∃ e ∈ operands, Signed negated (I.exprHolds o.resolve e) := by
  induction operands generalizing items with
  | nil =>
    rw [anyOf] at h
    obtain rfl := Except.ok.inj h
    simp [Reading.someHolds]
  | cons e rest ihr =>
    rw [anyOf_cons] at h
    obtain ⟨doc, hdoc, h⟩ := bind_eq_ok_iff.mp h
    obtain ⟨more, hrest, rfl⟩ := map_eq_ok_iff.mp h
    have hholds := (ih e List.mem_cons_self negated doc hdoc).2.2
    have hmore := ihr (fun e he => ih e (List.mem_cons_of_mem _ he)) hrest
    rw [Reading.someHolds_append, someHolds_alternatives, hholds, hmore]
    simp only [List.mem_cons, exists_eq_or_imp]

/-- The document of an `and` of what its operands say. -/
theorem all_document_faithful (hp : o.collision = .andWrap)
    (ih : ∀ e ∈ operands, Faithful I o e) {d : Document}
    (h : (allOf o negated Conjunction.empty operands).map Conjunction.toDocument = .ok d) :
    DocumentFit d
      ∧ (I.documentHolds d ↔ ∀ e ∈ operands, Signed negated (I.exprHolds o.resolve e)) := by
  obtain ⟨m, hm, rfl⟩ := map_eq_ok_iff.mp h
  obtain ⟨hfit, hholds⟩ := allOf_faithful hp ih Conjunction.fit_empty hm
  refine ⟨hfit.toDocument, ?_⟩
  rw [Conjunction.documentHolds_toDocument hfit.nodup, hholds]
  exact and_iff_right Conjunction.holds_empty

/-- The document of an `or` of what its operands say. -/
theorem any_document_faithful (ih : ∀ e ∈ operands, Faithful I o e) {d : Document}
    (h : ((anyOf o negated operands).map fun items => Document.single orKey (.list items))
      = .ok d) :
    DocumentFit d
      ∧ (I.documentHolds d ↔ ∃ e ∈ operands, Signed negated (I.exprHolds o.resolve e)) := by
  obtain ⟨items, hitems, rfl⟩ := map_eq_ok_iff.mp h
  refine ⟨documentFit_single (entryFit_list (by decide) items), ?_⟩
  rw [Reading.documentHolds_single, Reading.entryHolds_or, anyOf_faithful ih hitems]

end Filter

/-- A document in which no map gives a key twice. -/
def Document.DistinctMaps (doc : Document) : Prop :=
  ∀ key map, (key, Value.document map) ∈ doc → (keys map).Nodup

/-- **Translation is faithful** on expressions whose fields are no
operators and whose ready-made documents bring no code. -/
theorem Filter.faithful {I : Reading} {o : Options} (hp : o.collision = .andWrap) (e : Expr)
    (hc : ∀ c ∈ e.comparisons, isOperatorKey (o.resolve c.field) = false)
    (hf : ∀ doc ∈ e.fragments, whereKey ∉ keys doc ∧ doc.DistinctMaps) : Filter.Faithful I o e := by
  induction e using Expr.induction with
  | comparison c =>
    intro negated d h
    rw [Filter.ofExpr] at h
    obtain ⟨hfit, hholds⟩ := Filter.ofComparison_faithful (I := I) (hc c List.mem_cons_self) h
    exact ⟨hfit, fun hr => absurd hr Bool.false_ne_true, hholds⟩
  | all operands ih =>
    have ih' : ∀ e ∈ operands, Filter.Faithful I o e := by
      intro e he
      exact ih e he (fun c h => hc c (Expr.mem_comparisonsOf he h))
        (fun doc h => hf doc (Expr.mem_fragmentsOf he h))
    intro negated d h
    cases negated with
    | false =>
      rw [Filter.ofExpr_all] at h
      obtain ⟨hfit, hholds⟩ := Filter.all_document_faithful hp ih' h
      refine ⟨hfit, fun hr => absurd hr Bool.false_ne_true, ?_⟩
      rw [hholds, Reading.exprHolds, Reading.everyOperandHolds_iff]
      exact Iff.rfl
    | true =>
      -- not all hold: some does not, and the alternatives say which
      rw [Filter.ofExpr_not_all] at h
      obtain ⟨hfit, hholds⟩ := Filter.any_document_faithful ih' h
      refine ⟨hfit, fun hr => absurd hr Bool.false_ne_true, ?_⟩
      rw [hholds, Reading.exprHolds, Reading.everyOperandHolds_iff]
      simp
  | any operands ih =>
    have ih' : ∀ e ∈ operands, Filter.Faithful I o e := by
      intro e he
      exact ih e he (fun c h => hc c (Expr.mem_comparisonsOf he h))
        (fun doc h => hf doc (Expr.mem_fragmentsOf he h))
    intro negated d h
    cases negated with
    | false =>
      rw [Filter.ofExpr_any] at h
      obtain ⟨hfit, hholds⟩ := Filter.any_document_faithful ih' h
      refine ⟨hfit, fun hr => absurd hr Bool.false_ne_true, ?_⟩
      rw [hholds, Reading.exprHolds, Reading.someOperandHolds_iff]
      exact Iff.rfl
    | true =>
      rw [Filter.ofExpr_not_any] at h
      obtain ⟨hfit, hholds⟩ := Filter.all_document_faithful hp ih' h
      refine ⟨hfit, fun hr => absurd hr Bool.false_ne_true, ?_⟩
      rw [hholds, Reading.exprHolds, Reading.someOperandHolds_iff]
      simp
  | not operand ih =>
    intro negated d h
    rw [Filter.ofExpr] at h
    obtain ⟨hfit, -, hholds⟩ := ih hc hf (!negated) d h
    refine ⟨hfit, fun hr => absurd hr Bool.false_ne_true, ?_⟩
    rw [hholds, Reading.exprHolds, signed_not]
  | fragment doc =>
    obtain ⟨hw, hmaps⟩ := hf doc List.mem_cons_self
    intro negated d h
    rw [Filter.ofExpr] at h
    cases negated with
    | false =>
      obtain rfl := Except.ok.inj h
      refine ⟨fun e he => ⟨fun hk => ?_, fun map hmap => ?_⟩, fun _ => hw, Iff.rfl⟩
      · exact absurd (hk ▸ List.mem_map_of_mem he) hw
      · exact hmaps e.1 map (by rw [← hmap]; exact he)
    | true =>
      obtain rfl := Except.ok.inj h
      refine ⟨documentFit_single (entryFit_list (by decide) _),
        fun hr => absurd hr Bool.false_ne_true, ?_⟩
      rw [Reading.documentHolds_single, Reading.entryHolds_nor]
      exact not_congr (or_iff_left not_false)

/-- **The filter of an expression holds exactly when the expression
does**, under every reading of the atoms, when constraints that collide
are kept side by side. -/
theorem Expr.toFilter_faithful (I : Reading) {o : Options} {e : Expr} {d : Document}
    (hp : o.collision = .andWrap)
    (hc : ∀ c ∈ e.comparisons, isOperatorKey (o.resolve c.field) = false)
    (hf : ∀ doc ∈ e.fragments, whereKey ∉ keys doc ∧ doc.DistinctMaps)
    (h : e.toFilter o = .ok d) : I.documentHolds d ↔ I.exprHolds o.resolve e :=
  (Filter.faithful hp e hc hf false d h).2.2

/-- The reading of a record without fields, which is below everything. -/
def Reading.bare : Reading :=
  .ofAtoms (fun _ r _ => r = .ne ∨ r = .lt ∨ r = .le) (fun _ => False) (fun _ _ => False)
    (fun _ _ => False) (fun _ r _ => r = .ne ∨ r = .lt ∨ r = .le) (fun _ _ _ => False)
    (fun _ => False) (fun _ => False)
    (by intro _ r _; cases r <;> simp [Relation.complement])
    (by intro _ r _; cases r <;> simp [Relation.complement])

/-- Operators united, a group under a negation, a constraint set aside and
a ready-made document in one filter. -/
theorem Expr.toFilter_faithful_bare :
    (Expr.all [.comparison ⟨"a", .relation .gt, .int 1⟩, .comparison ⟨"a", .relation .le, .int 5⟩,
        .not (.all [.comparison ⟨"b", .relation .eq, .int 3⟩,
          .comparison ⟨"b", .typeOf, .typeName .string⟩]),
        .comparison ⟨"a", .relation .eq, .int 2⟩,
        .fragment [("c", .document [("$in", .list [.int 7])])]]).toFilter ⟨.andWrap, []⟩
      = .ok [("a", .document [("$gt", .int 1), ("$lte", .int 5)]),
        ("$or", .list [.document [("b", .document [("$ne", .int 3)])],
          .document [("$where", .text "!(typeof this.b == \"string\")")]]),
        ("c", .document [("$in", .list [.int 7])]),
        ("$and", .list [.document [("a", .int 2)]])]
    ∧ (Reading.bare.documentHolds
        [("a", .document [("$gt", .int 1), ("$lte", .int 5)]),
          ("$or", .list [.document [("b", .document [("$ne", .int 3)])],
            .document [("$where", .text "!(typeof this.b == \"string\")")]]),
          ("c", .document [("$in", .list [.int 7])]),
          ("$and", .list [.document [("a", .int 2)]])]
      ↔ Reading.bare.exprHolds (Options.resolve ⟨.andWrap, []⟩)
        (.all [.comparison ⟨"a", .relation .gt, .int 1⟩,
          .comparison ⟨"a", .relation .le, .int 5⟩,
          .not (.all [.comparison ⟨"b", .relation .eq, .int 3⟩,
            .comparison ⟨"b", .typeOf, .typeName .string⟩]),
          .comparison ⟨"a", .relation .eq, .int 2⟩,
          .fragment [("c", .document [("$in", .list [.int 7])])]])) := by
  refine ⟨rfl, Expr.toFilter_faithful (o := ⟨.andWrap, []⟩) Reading.bare rfl ?_ ?_ rfl⟩
  · intro c hc
    simp only [Expr.comparisons, Expr.comparisonsOf, List.append_nil, List.cons_append,
      List.nil_append, List.mem_cons, List.not_mem_nil, or_false] at hc
    rcases hc with rfl | rfl | rfl | rfl | rfl <;> decide
  · intro doc hdoc
    simp only [Expr.fragments, Expr.fragmentsOf, List.append_nil, List.nil_append,
      List.mem_singleton] at hdoc
    subst hdoc
    refine ⟨by decide, fun key map hmap => ?_⟩
    simp only [List.mem_singleton, Prod.mk.injEq, Value.document.injEq] at hmap
    rw [hmap.2]
    decide

end DocFilter
