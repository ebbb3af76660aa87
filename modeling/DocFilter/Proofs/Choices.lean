import DocFilter.Proofs.ByKey
import DocFilter.Proofs.DistinctKeys
import Mathlib.Data.Multiset.OrderedMonoid

/-!
# Where choices stand in a document

A choice among documents is a list under `$or`. A document can ask for
several choices at once, but has only one place for a list under `$or`,
and so a merge leaves there the choice that comes first and sets the
others aside, each in a document of its own under `$and`. The **choices**
of a document are those that stand in either place
(`Document.choices`), also if the documents under `$and` have an `$and`
again.

A merge moves choices from one place to the other, which is why they are
collected as a multiset. It loses none of them, and makes none up:
the first value of a logical key is kept under the key, and the others are
set aside (`Conjunction.valuesAt_eq`). Hence a merged document has the
choices of the documents it was merged from
(`Filter.Merges.choices_eq`), whatever becomes of its fields.
-/

namespace DocFilter

open Document (get? keys under)

/-! ## The choices of a document -/

mutual

/-- **The choices under a key**: a list under `$or` is one, and under
`$and` there are those of the items. -/
def Value.choicesUnder (key : String) : Value → Multiset (List Value)
  | .list items =>
    if key = orKey then {items} else if key = andKey then Value.itemChoices items else 0
  | _ => 0

/-- The choices of items that all hold. -/
def Value.itemChoices : List Value → Multiset (List Value)
  | [] => 0
  | item :: rest => Value.choices item + Value.itemChoices rest

/-- The choices of an item: those of a document. -/
def Value.choices : Value → Multiset (List Value)
  | .document entries => Document.choices entries
  | _ => 0

/-- **The choices of a document**: the lists of alternatives that it asks
for beside each other. -/
def Document.choices : Document → Multiset (List Value)
  | [] => 0
  | (key, value) :: rest => Value.choicesUnder key value + Document.choices rest

end

namespace Value

theorem choicesUnder_of_ne {key : String} (ho : key ≠ orKey) (ha : key ≠ andKey) (v : Value) :
    v.choicesUnder key = 0 := by
  cases v with
  | list items => rw [choicesUnder, if_neg ho, if_neg ha]
  | _ => rfl

theorem choicesUnder_of_isScalar {v : Value} (h : v.isScalar = true) (key : String) :
    v.choicesUnder key = 0 := by
  cases v with
  | list items => cases h
  | _ => rfl

theorem itemChoices_append (items more : List Value) :
    itemChoices (items ++ more) = itemChoices items + itemChoices more := by
  induction items with
  | nil => rw [List.nil_append, itemChoices, zero_add]
  | cons item rest ih => rw [List.cons_append, itemChoices, itemChoices, ih, add_assoc]

/-- The choices of values that are given for a key. -/
def choicesAt (key : String) (vs : List Value) : Multiset (List Value) :=
  (vs.map (choicesUnder key)).sum

theorem choicesAt_append (key : String) (vs ws : List Value) :
    choicesAt key (vs ++ ws) = choicesAt key vs + choicesAt key ws := by
  unfold choicesAt
  rw [List.map_append, List.sum_append]

theorem choicesAt_cons (key : String) (v : Value) (vs : List Value) :
    choicesAt key (v :: vs) = v.choicesUnder key + choicesAt key vs := by
  unfold choicesAt
  rw [List.map_cons, List.sum_cons]

theorem choicesAt_singleton (key : String) (v : Value) : choicesAt key [v] = v.choicesUnder key :=
  List.sum_singleton

theorem choicesUnder_or (items : List Value) : choicesUnder orKey (.list items) = {items} := by
  rw [choicesUnder, if_pos rfl]

theorem choicesUnder_and (items : List Value) :
    choicesUnder andKey (.list items) = itemChoices items := by
  rw [choicesUnder, if_neg (by decide), if_pos rfl]

end Value

open Value (choicesAt choicesAt_append choicesAt_cons choicesAt_singleton)

theorem Document.choices_append (doc more : Document) :
    choices (doc ++ more) = choices doc + choices more := by
  induction doc with
  | nil => rw [List.nil_append, choices, zero_add]
  | cons e rest ih =>
    obtain ⟨key, value⟩ := e
    rw [List.cons_append, choices, choices, ih, add_assoc]

/-- **The choices of a document stand under two of its keys.** -/
theorem Document.choices_eq (doc : Document) :
    doc.choices = choicesAt orKey (under doc orKey) + choicesAt andKey (under doc andKey) := by
  induction doc with
  | nil => rfl
  | cons e rest ih =>
    obtain ⟨key, value⟩ := e
    rw [choices, ih]
    by_cases ho : key = orKey
    · subst ho
      rw [under_cons_self, under_cons_of_ne (by decide), choicesAt_cons, add_assoc]
    · rw [under_cons_of_ne ho]
      by_cases ha : key = andKey
      · subst ha
        rw [under_cons_self, choicesAt_cons, add_left_comm]
      · rw [under_cons_of_ne ha, Value.choicesUnder_of_ne ho ha, zero_add]

theorem Document.choices_single (key : String) (v : Value) :
    (Document.single key v).choices = v.choicesUnder key :=
  add_zero _

/-- Entries that stand in documents of their own have the choices of the
entries. -/
theorem Value.itemChoices_single (entries : List (String × Value)) :
    itemChoices (entries.map fun e => .document [(e.1, e.2)]) = Document.choices entries := by
  induction entries with
  | nil => rfl
  | cons e rest ih =>
    obtain ⟨key, value⟩ := e
    rw [List.map_cons, itemChoices, ih, Document.choices]
    exact congrArg (· + Document.choices rest) (Document.choices_single key value)

/-! ## Merging -/

namespace Conjunction

variable {policy : CollisionPolicy} {m : Conjunction} {as : List Arrival}

/-- What was under `$and` first has the same choices among the items
there. -/
theorem itemChoices_itemsOf (v : Option Value) :
    Value.itemChoices (itemsOf v) = choicesAt andKey v.toList := by
  cases v with
  | none => rfl
  | some v =>
    rw [Option.toList_some, choicesAt_singleton]
    cases v with
    | list items => exact (Value.choicesUnder_and items).symm
    | _ => rfl

/-- Of the choices that arrive under a key, those that came first stay and
those that came later are set aside. -/
theorem choicesAt_valuesAt (policy : CollisionPolicy) (as : List Arrival) (key : String)
    (hk : isOperatorKey key = true) (hw : key ≠ whereKey) :
    choicesAt key (valuesAt as key) = choicesAt key (valuesAt as key).head?.toList
      + choicesAt key (valuesAt (setAside policy as) key) := by
  rw [← choicesAt_append, ← valuesAt_eq policy hk hw]

/-- Entries that arrive have the choices of their values. -/
theorem choices_map_arrival (as : List Arrival) :
    Document.choices (as.map fun a => (a.key, a.value))
      = choicesAt orKey (valuesAt as orKey) + choicesAt andKey (valuesAt as andKey) := by
  have hunder : ∀ key, under (as.map fun a => (a.key, a.value)) key = valuesAt as key := by
    intro key
    unfold under valuesAt
    rw [List.filter_map, List.map_map]
    rfl
  rw [Document.choices_eq, hunder, hunder]

/-- **Under `$and` there are the choices that came first there**, and those
that were set aside. -/
theorem Merged.choicesAt_andKey (h : Merged policy as m) (hn : (keys m.doc).Nodup) :
    choicesAt andKey (under m.toDocument andKey)
      = choicesAt andKey (valuesAt as andKey).head?.toList
        + Document.choices ((setAside policy as).map fun a => (a.key, a.value)) := by
  by_cases hs : setAside policy as = []
  · rw [h.toDocument_of_nil hs, hs, Document.under_eq_toList hn,
      h.first andKey (by decide) fun hw => absurd hw (by decide)]
    exact (add_zero _).symm
  · rw [Document.under_eq_toList (nodup_keys_toDocument hn), h.get?_andKey hs, Option.toList_some,
      choicesAt_singleton, Value.choicesUnder_and, Value.itemChoices_append, itemChoices_itemsOf,
      ← Value.itemChoices_single, List.map_map]
    rfl

/-- **A finished document has the choices that have arrived.** -/
theorem Merged.choices_toDocument (h : Merged policy as m) (hn : (keys m.doc).Nodup) :
    m.toDocument.choices = Document.choices (as.map fun a => (a.key, a.value)) := by
  have hor : under m.toDocument orKey = (valuesAt as orKey).head?.toList := by
    rw [Document.under_eq_toList (nodup_keys_toDocument hn), get?_toDocument_of_ne m (by decide),
      h.first orKey (by decide) fun hw => absurd hw (by decide)]
  rw [Document.choices_eq, hor, h.choicesAt_andKey hn, choices_map_arrival, choices_map_arrival,
    choicesAt_valuesAt policy as orKey (by decide) (by decide),
    choicesAt_valuesAt policy as andKey (by decide) (by decide), ← add_assoc, add_add_add_comm]

/-- The keys stay distinct as entries arrive. -/
theorem receive_nodup_keys {m' : Conjunction} (h : m.receive policy as = .ok m')
    (hn : (keys m.doc).Nodup) : (keys m'.doc).Nodup := by
  induction as generalizing m with
  | nil =>
    obtain rfl := Except.ok.inj h
    exact hn
  | cons a rest ih =>
    rw [receive] at h
    obtain ⟨m₁, ha, hrest⟩ := bind_eq_ok_iff.mp h
    exact ih hrest ((added_of_addEntry ha).nodup_keys hn)

/-- The entries that arrive have the choices of their documents. -/
theorem choices_arrivals (operands : List (Document × Bool)) :
    Document.choices ((arrivals operands).map fun a => (a.key, a.value))
      = (operands.map fun operand => operand.1.choices).sum := by
  induction operands with
  | nil => rfl
  | cons operand rest ih =>
    obtain ⟨doc, raw⟩ := operand
    have hdoc : (doc.map fun e => (⟨e.1, e.2, raw⟩ : Arrival)).map (fun a => (a.key, a.value))
        = doc := by
      rw [List.map_map]
      exact List.map_id doc
    rw [arrivals_cons, List.map_append, hdoc, Document.choices_append, ih, List.map_cons,
      List.sum_cons]

/-- **A merge has the choices of the documents that are merged.** -/
theorem choices_merge {operands : List (Document × Bool)} {d : Document}
    (h : merge policy operands = .ok d) :
    d.choices = (operands.map fun operand => operand.1.choices).sum := by
  obtain ⟨m, hr, rfl⟩ := merge_eq_ok_iff.mp h
  have hm : Merged policy (arrivals operands) m := Merged.nothing.receive hr
  rw [hm.choices_toDocument (receive_nodup_keys hr List.nodup_nil), choices_arrivals]

end Conjunction

/-! ## Translations -/

namespace Filter

variable {o : Options} {negated : Bool}

/-- A comparison is not a choice, whatever its field is called: under the
field there is no list. -/
theorem choices_of_ofComparison {c : Comparison} {d : Document}
    (h : ofComparison o negated c = .ok d) : d.choices = 0 := by
  cases compared_of_ofComparison h with
  | code _ _ => rfl
  | operator _ _ => rfl
  | literal _ =>
    rw [Document.choices_single, Value.choicesUnder_of_isScalar c.value.isScalar_toValue]

/-- **A group has the choices of its operands**, under every policy. -/
theorem Merges.choices_eq {e : Expr} {operands : List Expr} {docs : List Document} {d : Document}
    (hm : Merges negated e operands)
    (hdocs : List.Forall₂ (fun e d => ofExpr o negated e = .ok d) operands docs)
    (h : ofExpr o negated e = .ok d) : d.choices = (docs.map Document.choices).sum := by
  have hfst : (docs.zip (operands.map (isRaw negated))).map Prod.fst = docs :=
    List.map_fst_zip (by rw [List.length_map, hdocs.length_eq])
  rw [hm.ofExpr_eq_merge hdocs] at h
  rw [Conjunction.choices_merge h, ← congrArg (List.map Document.choices) hfst, List.map_map]
  rfl

end Filter

end DocFilter
