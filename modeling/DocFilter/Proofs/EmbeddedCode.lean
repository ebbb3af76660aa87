import DocFilter.Proofs.DistinctKeys
import Mathlib.Data.Multiset.OrderedMonoid

/-!
# Where code stands in a document

Code stands under `$where`, in a document or in one further down. The
order in which a merge leaves its entries depends on their keys, so the
code of a document is collected as a multiset (`Document.codes`): what it
has under `$where` itself, and its **inner code**, what is further down.

A merge moves inner code around and loses none of it. An entry that is
added brings the code of its value, whether it finds a place of its own or
is set aside, and what replaces a constraint on a field or is united with
one has no code to lose (`Conjunction.Added.innerCodes_eq`). The finished
document has the code of the conjunction
(`Conjunction.innerCodes_toDocument`).
-/

namespace DocFilter

open Document (get? keys under)

/-! ## The code in a document -/

mutual

/-- **The code in a value**: what stands under `$where`, at any depth. -/
def Value.codes : Value → Multiset Value
  | .list items => Value.itemCodes items
  | .document entries => Document.codes entries
  | _ => 0

/-- The code in the items of a list. -/
def Value.itemCodes : List Value → Multiset Value
  | [] => 0
  | item :: rest => Value.codes item + Value.itemCodes rest

/-- **The code in a document**, at any depth. -/
def Document.codes : Document → Multiset Value
  | [] => 0
  | (key, value) :: rest =>
    (if key = whereKey then {value} else Value.codes value) + Document.codes rest

end

@[simp] theorem Value.itemCodes_append (items more : List Value) :
    itemCodes (items ++ more) = itemCodes items + itemCodes more := by
  induction items with
  | nil => rw [List.nil_append, itemCodes, zero_add]
  | cons item rest ih => rw [List.cons_append, itemCodes, itemCodes, ih, add_assoc]

/-- A scalar has no code. -/
theorem Value.codes_of_isScalar {v : Value} (h : v.isScalar = true) : v.codes = 0 := by
  cases v with
  | list _ => cases h
  | document _ => cases h
  | _ => rfl

namespace Document

@[simp] theorem codes_append (doc more : Document) :
    codes (doc ++ more) = codes doc + codes more := by
  induction doc with
  | nil => rw [List.nil_append, codes, zero_add]
  | cons e rest ih =>
    obtain ⟨k, v⟩ := e
    rw [List.cons_append, codes, codes, ih, add_assoc]

theorem codes_single {key : String} (hk : key ≠ whereKey) (value : Value) :
    codes (single key value) = value.codes := by
  unfold single
  rw [codes, codes, if_neg hk, add_zero]

/-- **The code further down** in a document. -/
def innerCodes (doc : Document) : Multiset Value :=
  codes (erase doc whereKey)

@[simp] theorem innerCodes_append (doc more : Document) :
    innerCodes (doc ++ more) = innerCodes doc + innerCodes more := by
  unfold innerCodes erase
  rw [List.filter_append, codes_append]

theorem innerCodes_cons_where (value : Value) (rest : Document) :
    innerCodes ((whereKey, value) :: rest) = innerCodes rest :=
  congrArg codes (erase_split_self [] rest whereKey value)

theorem innerCodes_cons {key : String} (hk : key ≠ whereKey) (value : Value) (rest : Document) :
    innerCodes ((key, value) :: rest) = value.codes + innerCodes rest := by
  have herase : erase ([] ++ (key, value) :: rest) whereKey = (key, value) :: erase rest whereKey :=
    erase_split_of_ne hk
  rw [List.nil_append] at herase
  unfold innerCodes
  rw [herase, codes, if_neg hk]

/-- **The code of a document** is what it has under `$where` and what is
further down. -/
theorem codes_eq (doc : Document) : codes doc = ↑(under doc whereKey) + innerCodes doc := by
  induction doc with
  | nil => rfl
  | cons e rest ih =>
    obtain ⟨k, v⟩ := e
    rw [codes, ih]
    by_cases hk : k = whereKey
    · rw [if_pos hk, hk, under_cons_self, innerCodes_cons_where, ← Multiset.cons_coe,
        ← Multiset.singleton_add, add_assoc]
    · rw [if_neg hk, under_cons_of_ne hk, innerCodes_cons hk, add_left_comm]

/-- A new value under `$where` leaves the code further down. -/
theorem innerCodes_insert_where (doc : Document) (value : Value) :
    innerCodes (insert doc whereKey value) = innerCodes doc := by
  cases hg : get? doc whereKey with
  | none =>
    rw [insert_of_not_mem (get?_eq_none_iff.mp hg), innerCodes_append, innerCodes_cons_where]
    exact add_zero _
  | some present =>
    obtain ⟨before, after, rfl, hb⟩ := exists_split hg
    rw [insert_split hb, innerCodes_append, innerCodes_append, innerCodes_cons_where,
      innerCodes_cons_where]

/-- A new key brings its code. -/
theorem innerCodes_insert_new {doc : Document} {key : String} (hk : key ≠ whereKey)
    (hg : get? doc key = none) (value : Value) :
    innerCodes (insert doc key value) = innerCodes doc + value.codes := by
  rw [insert_of_not_mem (get?_eq_none_iff.mp hg), innerCodes_append, innerCodes_cons hk]
  exact congrArg _ (add_zero _)

/-- A value without code takes the place of another. -/
theorem innerCodes_insert_plain {doc : Document} {key : String} {present value : Value}
    (hk : key ≠ whereKey) (hg : get? doc key = some present) (hp : present.codes = 0)
    (hv : value.codes = 0) : innerCodes (insert doc key value) = innerCodes doc := by
  obtain ⟨before, after, rfl, hb⟩ := exists_split hg
  rw [insert_split hb, innerCodes_append, innerCodes_append, innerCodes_cons hk,
    innerCodes_cons hk, hp, hv]

/-- **A document whose fields have no code**: only its logical keys do. -/
def FieldsPlain (doc : Document) : Prop :=
  ∀ e ∈ doc, isOperatorKey e.1 = false → e.2.codes = 0

/-- A logical key by itself is no field. -/
theorem fieldsPlain_single {key : String} (hk : isOperatorKey key = true) (value : Value) :
    FieldsPlain (single key value) := by
  refine List.forall_mem_singleton.mpr (fun ho => ?_)
  exact absurd (hk.symm.trans ho) Bool.noConfusion

theorem FieldsPlain.of_get? {doc : Document} (h : doc.FieldsPlain) {key : String}
    (hk : isOperatorKey key = false) {value : Value} (hg : get? doc key = some value) :
    value.codes = 0 := by
  obtain ⟨before, after, rfl, -⟩ := exists_split hg
  exact h (key, value) (List.mem_append_right _ List.mem_cons_self) hk

theorem FieldsPlain.insert {doc : Document} (h : doc.FieldsPlain) {key : String} {value : Value}
    (hv : isOperatorKey key = false → value.codes = 0) :
    FieldsPlain (Document.insert doc key value) :=
  forall_mem_insert h hv

/-- Documents without code are joined to one without code. -/
theorem codes_append_eq_zero {doc more : Document} (hd : codes doc = 0) (hm : codes more = 0) :
    codes (append doc more) = 0 := by
  have hinsert : ∀ {d : Document} {key : String} {value : Value},
      codes d = 0 → codes [(key, value)] = 0 → codes (Document.insert d key value) = 0 := by
    intro d key value hd hv
    cases hg : get? d key with
    | none => rw [insert_of_not_mem (get?_eq_none_iff.mp hg), codes_append, hd, hv, add_zero]
    | some present =>
      obtain ⟨before, after, rfl, hb⟩ := exists_split hg
      rw [← List.singleton_append, codes_append, codes_append] at hd
      rw [insert_split hb, ← List.singleton_append, codes_append, codes_append, hv]
      rw [AddLeftCancelMonoid.add_eq_zero, AddLeftCancelMonoid.add_eq_zero] at hd
      rw [hd.1, hd.2.2, zero_add, zero_add]
  unfold append
  induction more generalizing doc with
  | nil => exact hd
  | cons e rest ih =>
    obtain ⟨k, v⟩ := e
    rw [← List.singleton_append, codes_append, AddLeftCancelMonoid.add_eq_zero] at hm
    rw [List.foldl_cons]
    exact ih (hinsert hd hm.1) hm.2

end Document

/-- An operator and its value have no code. -/
theorem OperatorEntry.codes_eq_zero {op : String} {value : Value} (h : OperatorEntry op value) :
    Document.codes (Document.single op value) = 0 := by
  cases h with
  | relation hk hv =>
    have hop : op ≠ whereKey := by
      rintro rfl
      exact absurd hk (by decide)
    rw [Document.codes_single hop, Value.codes_of_isScalar hv]
  | presence b => exact Document.codes_single (by decide) _
  | pattern p => exact Document.codes_single (by decide) _
  | notPattern p =>
    rw [Document.codes_single (by decide)]
    exact Document.codes_single (by decide) _
  | size n => exact Document.codes_single (by decide) _

/-! ## The code of a conjunction -/

namespace Conjunction

variable {policy : CollisionPolicy} {raw : Bool} {m m' : Conjunction} {key : String}
  {value : Value} {doc : Document}

/-- **The code further down** in a conjunction, also in what was set
aside. -/
def innerCodes (m : Conjunction) : Multiset Value :=
  Document.innerCodes m.doc + Document.codes m.deferred

theorem innerCodes_defer (hk : key ≠ whereKey) (m : Conjunction) (value : Value) :
    (m.defer key value).innerCodes = m.innerCodes + value.codes := by
  show Document.innerCodes m.doc + Document.codes (m.deferred ++ Document.single key value) = _
  rw [Document.codes_append, Document.codes_single hk, ← add_assoc]
  rfl

/-- **An entry brings its code**, whatever becomes of it. -/
theorem Added.innerCodes_eq (h : Added policy raw m key value m') (hk : key ≠ whereKey)
    (hm : m.doc.FieldsPlain) (hv : isOperatorKey key = false → value.codes = 0) :
    m'.innerCodes = m.innerCodes + value.codes := by
  -- constraints on a field have no code, so one of them may stand for both
  have hput : ∀ {present both : Value}, get? m.doc key = some present →
      isOperatorKey key = false → both.codes = 0 →
      (m.put key both).innerCodes = m.innerCodes + value.codes := by
    intro present both hg ho hb
    rw [hv ho, add_zero]
    exact congrArg (· + Document.codes m.deferred)
      (Document.innerCodes_insert_plain hk hg (hm.of_get? ho hg) hb)
  cases h with
  | fresh hg =>
    show Document.innerCodes (Document.insert m.doc key value) + _ = _
    rw [Document.innerCodes_insert_new hk hg, add_right_comm]
    rfl
  | joined _ _ hw _ _ => exact absurd hw hk
  | setAside _ _ _ _ => exact innerCodes_defer hk m value
  | united present both hg ho hu =>
    refine hput hg ho ?_
    obtain ⟨l, r, rfl, rfl, -, -, -, rfl⟩ := Value.uniteOperators?_eq_some hu
    exact Document.codes_append_eq_zero (hm.of_get? ho hg) (hv ho)
  | replaced _ hg ho _ _ => exact hput hg ho (hv ho)
  | wrapped _ _ _ _ _ => exact innerCodes_defer hk m value

/-- Code under `$where` leaves the code further down. -/
theorem Added.innerCodes_where (h : Added policy raw m whereKey value m') :
    m'.innerCodes = m.innerCodes := by
  have hput : ∀ v, Document.innerCodes (Document.insert m.doc whereKey v)
      + Document.codes m.deferred = m.innerCodes := fun v =>
    congrArg (· + Document.codes m.deferred) (Document.innerCodes_insert_where m.doc v)
  cases h with
  | fresh _ => exact hput value
  | joined _ code _ _ _ => exact hput (.text code)
  | setAside _ _ hw _ => exact absurd rfl hw
  | united _ _ _ ho _ => exact absurd ho (by decide)
  | replaced _ _ ho _ _ => exact absurd ho (by decide)
  | wrapped _ _ ho _ _ => exact absurd ho (by decide)

/-- Fields stay without code. -/
theorem Added.fieldsPlain (h : Added policy raw m key value m') (hm : m.doc.FieldsPlain)
    (hv : isOperatorKey key = false → value.codes = 0) : m'.doc.FieldsPlain := by
  cases h with
  | fresh _ => exact hm.insert hv
  | joined _ _ hk _ _ =>
    refine hm.insert (fun ho => ?_)
    rw [hk] at ho
    exact absurd ho (by decide)
  | setAside _ _ _ _ => exact hm
  | united present both hg ho hu =>
    refine hm.insert (fun _ => ?_)
    obtain ⟨l, r, rfl, rfl, -, -, -, rfl⟩ := Value.uniteOperators?_eq_some hu
    exact Document.codes_append_eq_zero (hm.of_get? ho hg) (hv ho)
  | replaced _ _ _ _ _ => exact hm.insert hv
  | wrapped _ _ _ _ _ => exact hm

/-- **A document brings its code further down.** -/
theorem addDocument_innerCodes (h : m.addDocument policy raw doc = .ok m')
    (hm : m.doc.FieldsPlain) (hd : doc.FieldsPlain) :
    m'.doc.FieldsPlain ∧ m'.innerCodes = m.innerCodes + doc.innerCodes := by
  induction doc generalizing m with
  | nil =>
    obtain rfl := Except.ok.inj h
    exact ⟨hm, (add_zero _).symm⟩
  | cons e rest ih =>
    obtain ⟨k, v⟩ := e
    rw [addDocument_cons] at h
    obtain ⟨m₁, ha, hrest⟩ := bind_eq_ok_iff.mp h
    have hadded := added_of_addEntry ha
    have hv : isOperatorKey k = false → v.codes = 0 := hd (k, v) List.mem_cons_self
    obtain ⟨hplain, hcodes⟩ := ih hrest (hadded.fieldsPlain hm hv)
      (fun e he => hd e (List.mem_cons_of_mem _ he))
    refine ⟨hplain, ?_⟩
    rw [hcodes]
    by_cases hk : k = whereKey
    · subst hk
      rw [hadded.innerCodes_where, Document.innerCodes_cons_where]
    · rw [hadded.innerCodes_eq hk hm hv, Document.innerCodes_cons hk, add_assoc]

/-- **A document takes the pending code on by its code alone**, under every
policy, if there is a result. -/
theorem pending_of_addDocument (h : m.addDocument policy raw doc = .ok m') :
    m.pending.addAll raw (under doc whereKey) = .ok m'.pending := by
  induction doc generalizing m with
  | nil =>
    obtain rfl := Except.ok.inj h
    rfl
  | cons e rest ih =>
    obtain ⟨k, v⟩ := e
    rw [addDocument_cons] at h
    obtain ⟨m₁, ha, hrest⟩ := bind_eq_ok_iff.mp h
    by_cases hk : k = whereKey
    · subst hk
      have hadd := pending_addEntry_where m policy raw v
      rw [ha] at hadd
      rw [Document.under_cons_self, Pending.addAll, ← hadd]
      exact ih hrest
    · rw [Document.under_cons_of_ne hk, ← (added_of_addEntry ha).pending_eq hk]
      exact ih hrest

/-- What was set aside keeps its code. -/
theorem itemCodes_single (entries : List (String × Value)) :
    Value.itemCodes (entries.map fun e => .document (Document.single e.1 e.2))
      = Document.codes entries := by
  induction entries with
  | nil => rfl
  | cons e rest ih =>
    obtain ⟨k, v⟩ := e
    rw [List.map_cons, Value.itemCodes, ih, ← List.singleton_append, Document.codes_append]
    rfl

/-- The items under `$and` have the code that stands there. -/
theorem itemCodes_andItems {present : Value} (hg : get? doc andKey = some present) :
    Value.itemCodes (andItems doc) = present.codes := by
  have hother : ∀ v : Value, Value.itemCodes [.document (Document.single andKey v)] = v.codes := by
    intro v
    show Document.codes (Document.single andKey v) + 0 = _
    rw [add_zero, Document.codes_single (by decide)]
  unfold andItems
  rw [hg]
  cases present with
  | list items => rfl
  | _ => exact hother _

/-- These items and the rest of the document have its code. -/
theorem innerCodes_erase_andItems (hn : (keys doc).Nodup) :
    Document.innerCodes (Document.erase doc andKey) + Value.itemCodes (andItems doc)
      = Document.innerCodes doc := by
  cases hg : get? doc andKey with
  | none =>
    rw [Document.erase_of_not_mem (Document.get?_eq_none_iff.mp hg)]
    unfold andItems
    rw [hg]
    exact add_zero _
  | some present =>
    rw [itemCodes_andItems hg]
    obtain ⟨before, after, rfl, -⟩ := Document.exists_split hg
    rw [Document.erase_split hn, Document.innerCodes_append, Document.innerCodes_append,
      Document.innerCodes_cons (by decide), add_assoc, add_comm present.codes]

/-- **The finished document has the code of the conjunction.** -/
theorem innerCodes_toDocument (hn : (keys m.doc).Nodup) :
    Document.innerCodes m.toDocument = m.innerCodes := by
  by_cases hd : m.deferred = []
  · rw [toDocument_of_nil hd]
    unfold innerCodes
    rw [hd]
    exact (add_zero _).symm
  · rw [toDocument_of_ne_nil hd, Document.innerCodes_append]
    show _ + Document.innerCodes ((andKey, _) :: []) = _
    rw [Document.innerCodes_cons (by decide)]
    show _ + (Value.itemCodes (_ ++ _) + 0) = _
    rw [add_zero, Value.itemCodes_append, itemCodes_single, ← add_assoc,
      innerCodes_erase_andItems hn]
    rfl

theorem fieldsPlain_toDocument (hm : m.doc.FieldsPlain) : m.toDocument.FieldsPlain := by
  by_cases hd : m.deferred = []
  · rwa [toDocument_of_nil hd]
  · rw [toDocument_of_ne_nil hd]
    exact List.forall_mem_append.mpr ⟨fun e he => hm e (List.mem_filter.mp he).1,
      Document.fieldsPlain_single (by decide) _⟩

end Conjunction

end DocFilter
