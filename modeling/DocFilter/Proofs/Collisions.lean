import DocFilter.Proofs.ByKey
import DocFilter.Proofs.Faithful

/-!
# Which constraints a merge keeps

A merge compares a new constraint with the union that its field holds by
then, and never with the documents that the union came from. Said of the
documents themselves, the policies that do not wrap come to this.

**Rejecting** is exact: a merge fails exactly when two of the documents
give a field constraints that cannot be combined, and it names the field
of the first entry that conflicts with an earlier document. Asking the
union is as good as asking its parts here, since as long as nothing was
refused all of them were combined (`Peaceful.kept_eq`).

**Replacing** is coarser than its name. A constraint that cannot be
combined with *one* of those that the field holds replaces *all* of them,
also those it could be combined with (`mem_kept_or_displaced`).

Documents give each key once here, at the top and in each map of
operators.
-/

namespace DocFilter

open Document (get? keys under)

/-! ## Documents that give each key once -/

namespace Document

variable {doc : Document} {key : String} {value : Value}

/-- **A document that gives each key once**, as do the maps in it. -/
structure Distinct (doc : Document) : Prop where
  /-- No key is given twice. -/
  nodup : (keys doc).Nodup
  /-- Nor is one in a map. -/
  maps : doc.DistinctMaps

theorem mem_of_get? (h : get? doc key = some value) : (key, value) ∈ doc := by
  obtain ⟨before, after, rfl, -⟩ := exists_split h
  exact List.mem_append_right before List.mem_cons_self

theorem get?_of_mem (hn : (keys doc).Nodup) (h : (key, value) ∈ doc) :
    get? doc key = some value := by
  have hunder : value ∈ under doc key :=
    List.mem_map.mpr ⟨(key, value), List.mem_filter.mpr ⟨h, beq_self_eq_true key⟩, rfl⟩
  rwa [under_eq_toList hn, Option.mem_toList] at hunder

theorem Distinct.operators_nodup (h : doc.Distinct) (hg : get? doc key = some value) :
    value.operators.Nodup := by
  cases value with
  | document map => exact h.maps key map (mem_of_get? hg)
  | _ => exact List.nodup_nil

end Document

/-- **The values that documents give a key**, in order. -/
def supplied (key : String) (operands : List (Document × Bool)) : List Value :=
  operands.filterMap fun operand => get? operand.1 key

section Arrivals

variable {operands : List (Document × Bool)} {key : String}

theorem supplied_append (key : String) (before after : List (Document × Bool)) :
    supplied key (before ++ after) = supplied key before ++ supplied key after :=
  List.filterMap_append

theorem supplied_cons {doc : Document} {value : Value} (h : get? doc key = some value) (raw : Bool)
    (rest : List (Document × Bool)) :
    supplied key ((doc, raw) :: rest) = value :: supplied key rest :=
  List.filterMap_cons_some h

/-- **A value that is supplied comes from a document**, in front of which
stand those that supply the values in front of it. -/
theorem exists_supplier {front back : List Value} {value : Value}
    (h : supplied key operands = front ++ value :: back) :
    ∃ before doc raw after, operands = before ++ (doc, raw) :: after
      ∧ supplied key before = front ∧ get? doc key = some value := by
  obtain ⟨first, rest, rfl, hfirst, hrest⟩ := List.filterMap_eq_append_iff.mp h
  obtain ⟨skipped, ⟨doc, raw⟩, after, rfl, hskipped, hg, -⟩ := List.filterMap_eq_cons_iff.mp hrest
  refine ⟨first ++ skipped, doc, raw, after, (List.append_assoc _ _ _).symm, ?_, hg⟩
  rw [supplied, List.filterMap_append, hfirst, List.filterMap_eq_nil_iff.mpr hskipped,
    List.append_nil]

/-- The values that arrive under a key are those that the documents give
it. -/
theorem valuesAt_arrivals (hn : ∀ operand ∈ operands, (keys operand.1).Nodup) (key : String) :
    valuesAt (arrivals operands) key = supplied key operands := by
  induction operands with
  | nil => rfl
  | cons operand rest ih =>
    obtain ⟨doc, raw⟩ := operand
    rw [List.forall_mem_cons] at hn
    rw [arrivals_cons, valuesAt_append, valuesAt_document, Document.under_eq_toList hn.1,
      ih hn.2, supplied, supplied, List.filterMap_eq_flatMap_toList,
      List.filterMap_eq_flatMap_toList, List.flatMap_cons]

theorem operators_nodup_of_valuesAt (hd : ∀ operand ∈ operands, operand.1.Distinct)
    (key : String) : ∀ v ∈ valuesAt (arrivals operands) key, v.operators.Nodup := by
  intro v hv
  rw [valuesAt_arrivals fun operand hmem => (hd operand hmem).nodup] at hv
  obtain ⟨operand, hmem, hg⟩ := List.mem_filterMap.mp hv
  exact (hd operand hmem).operators_nodup hg

end Arrivals

namespace Conjunction

variable {policy : CollisionPolicy} {m : Conjunction} {as : List Arrival}
  {operands : List (Document × Bool)} {d : Document}

/-- **The demands on a field** are those of the constraints that it keeps,
if these give each key once. -/
theorem Merged.imposes_iff (h : Merged policy as m) {field : String}
    (hf : isOperatorKey field = false) (hn : ∀ v ∈ valuesAt as field, v.operators.Nodup)
    (c : Requirement) :
    m.toDocument.Imposes field c ↔ ∃ v ∈ kept policy (valuesAt as field), v.Requires c := by
  have hholds := h.field field hf
  have hkept : ∀ v ∈ kept policy (valuesAt as field), v.operators.Nodup := fun v hv =>
    hn v (mem_of_mem_kept hv)
  unfold Document.Imposes
  rw [get?_toDocument_of_ne m (ne_of_isOperatorKey hf (by decide))]
  generalize kept policy (valuesAt as field) = run at hholds hkept ⊢
  generalize get? m.doc field = present at hholds ⊢
  cases hholds with
  | nothing => simp
  | united hunion => simp [hunion.requires_iff hkept c]

/-! ## Replacing -/

/-- The last constraint is always kept. -/
theorem mem_kept_concat (vs : List Value) (v : Value) : v ∈ kept .lastWins (vs ++ [v]) := by
  rw [kept_concat, keep]
  split
  · exact List.mem_append_right _ (List.mem_singleton_self v)
  · exact List.mem_singleton_self v

/-- **A constraint stays until one comes that cannot be combined with all
that are kept beside it.** -/
theorem mem_kept_or_displaced {vs : List Value} {v : Value} (hv : v ∈ kept .lastWins vs)
    (ws : List Value) :
    v ∈ kept .lastWins (vs ++ ws) ∨ ∃ mid w later, ws = mid ++ w :: later
      ∧ v ∈ kept .lastWins (vs ++ mid)
      ∧ ∃ u ∈ kept .lastWins (vs ++ mid), u.combines w = false := by
  induction ws generalizing vs with
  | nil => exact .inl (by rwa [List.append_nil])
  | cons w rest ih =>
    by_cases hall : ∀ u ∈ kept .lastWins vs, u.combines w = true
    · -- the constraint joins the others, and the rest is added behind it
      have hv' : v ∈ kept .lastWins (vs ++ [w]) := by
        rw [kept_concat, keep_of_forall hall]
        exact List.mem_append_left [w] hv
      rcases ih hv' with hkept | ⟨mid, w', later, rfl, hmid, hcollides⟩
      · exact .inl (by rwa [List.append_assoc, List.singleton_append] at hkept)
      · rw [List.append_assoc, List.singleton_append] at hmid hcollides
        exact .inr ⟨w :: mid, w', later, rfl, hmid, hcollides⟩
    · refine .inr ⟨[], w, rest, rfl, by rwa [List.append_nil], ?_⟩
      rw [List.append_nil]
      simpa using hall

/-- **What replacing keeps.** A field demands what the constraints demand
that it keeps. A demand of one document is missing only if a later one
gives the field a constraint that cannot be combined with one of those
that were kept by then, among them that of the document. -/
theorem merge_lastWins (hd : ∀ operand ∈ operands, operand.1.Distinct)
    (h : merge .lastWins operands = .ok d) {field : String} (hf : isOperatorKey field = false) :
    (∀ c, d.Imposes field c ↔ ∃ v ∈ kept .lastWins (supplied field operands), v.Requires c)
    ∧ ∀ before doc raw after v c, operands = before ++ (doc, raw) :: after →
      get? doc field = some v → v.Requires c → ¬ d.Imposes field c →
      ∃ mid doc' raw' later w, after = mid ++ (doc', raw') :: later ∧ get? doc' field = some w
        ∧ v ∈ kept .lastWins (supplied field (before ++ (doc, raw) :: mid))
        ∧ ∃ u ∈ kept .lastWins (supplied field (before ++ (doc, raw) :: mid)),
          u.combines w = false := by
  obtain ⟨m, hr, rfl⟩ := merge_eq_ok_iff.mp h
  have hm : Merged .lastWins (arrivals operands) m := Merged.nothing.receive hr
  have hvalues := valuesAt_arrivals (fun operand hmem => (hd operand hmem).nodup) field
  have himposes : ∀ c, m.toDocument.Imposes field c
      ↔ ∃ v ∈ kept .lastWins (supplied field operands), v.Requires c := by
    intro c
    rw [← hvalues]
    exact hm.imposes_iff hf (operators_nodup_of_valuesAt hd field) c
  refine ⟨himposes, fun before doc raw after v c hsplit hg hc hnot => ?_⟩
  have happend : ∀ mid, supplied field (before ++ (doc, raw) :: mid)
      = supplied field before ++ [v] ++ supplied field mid := fun mid => by
    rw [supplied_append, supplied_cons hg, List.append_assoc, List.singleton_append]
  rcases mem_kept_or_displaced (mem_kept_concat (supplied field before) v)
    (supplied field after) with hkept | ⟨mid, w, later, hafter, hmid, hcollides⟩
  · rw [← happend, ← hsplit] at hkept
    exact absurd ((himposes c).mpr ⟨v, hkept, hc⟩) hnot
  · obtain ⟨front, doc', raw', rest, rfl, rfl, hw⟩ := exists_supplier hafter
    rw [← happend] at hmid hcollides
    exact ⟨front, doc', raw', rest, w, rfl, hw, hmid, hcollides⟩

/-- Documents of one operator each give each key once. -/
theorem distinct_underOperator (field op : String) (value : Value) :
    (Filter.underOperator field op value).Distinct := by
  refine ⟨List.nodup_singleton field, fun key map hmem => ?_⟩
  obtain rfl := Value.document.inj (Prod.mk.inj (List.mem_singleton.mp hmem)).2
  exact List.nodup_singleton op

/-- A document of one operator demands no other. -/
theorem not_imposes_underOperator {op other : String} (h : op ≠ other) (field : String)
    (value operand : Value) :
    ¬ (Filter.underOperator field other value).Imposes field (.operator op operand) := by
  rintro ⟨v, hv, -, hmem⟩
  rw [Filter.underOperator, Document.single, Document.get?_cons, if_pos rfl] at hv
  obtain rfl := Option.some.inj hv
  exact h (congrArg Prod.fst (List.mem_singleton.mp hmem))

/-- The last of three bounds displaces the first, since it collides with
the second. -/
theorem merge_lastWins_displaced :
    merge .lastWins [(Filter.underOperator "a" "$gt" (.int 1), false),
        (Filter.underOperator "a" "$lt" (.int 5), false),
        (Filter.underOperator "a" "$lt" (.int 3), false)]
      = .ok (Filter.underOperator "a" "$lt" (.int 3))
    ∧ ∃ mid doc' raw' later w,
      [(Filter.underOperator "a" "$lt" (.int 5), false),
          (Filter.underOperator "a" "$lt" (.int 3), false)] = mid ++ (doc', raw') :: later
      ∧ get? doc' "a" = some w
      ∧ .document [("$gt", .int 1)] ∈ kept .lastWins (supplied "a"
          ((Filter.underOperator "a" "$gt" (.int 1), false) :: mid))
      ∧ ∃ u ∈ kept .lastWins (supplied "a"
          ((Filter.underOperator "a" "$gt" (.int 1), false) :: mid)), u.combines w = false := by
  refine ⟨?merged, (merge_lastWins ?distinct ?merged (by decide)).2 [] _ _ _ _
    (.operator "$gt" (.int 1)) rfl rfl ⟨by decide, List.mem_singleton_self _⟩
    (not_imposes_underOperator (by decide) "a" _ _)⟩
  · rfl
  · simp [distinct_underOperator]

/-- **A bound is lost that collides with nothing.** The first of three
bounds can be combined with both that follow, and is gone when the third
replaces the second. -/
theorem merge_lastWins_drops :
    merge .lastWins [(Filter.underOperator "a" "$gt" (.int 1), false),
        (Filter.underOperator "a" "$lt" (.int 5), false),
        (Filter.underOperator "a" "$lt" (.int 3), false)]
      = .ok (Filter.underOperator "a" "$lt" (.int 3))
    ∧ (∀ w ∈ supplied "a" [(Filter.underOperator "a" "$lt" (.int 5), false),
          (Filter.underOperator "a" "$lt" (.int 3), false)],
        (Value.document [("$gt", .int 1)]).combines w = true)
    ∧ (Value.document [("$gt", .int 1)]).Requires (.operator "$gt" (.int 1))
    ∧ ¬ Document.Imposes (Filter.underOperator "a" "$lt" (.int 3)) "a"
        (.operator "$gt" (.int 1)) :=
  ⟨rfl, by decide, ⟨by decide, List.mem_singleton_self _⟩,
    not_imposes_underOperator (by decide) "a" _ _⟩

end Conjunction

/-! ## Conflicts among entries -/

/-- **An entry that conflicts with one before it**: one under the same
field, with a constraint that cannot be combined with its own. -/
def Arrival.Conflicts (before : List Arrival) (a : Arrival) : Prop :=
  isOperatorKey a.key = false ∧ ∃ u ∈ valuesAt before a.key, u.combines a.value = false

theorem Arrival.combines_of_not_conflicts {before : List Arrival} {a : Arrival}
    (h : ¬ a.Conflicts before) (hk : isOperatorKey a.key = false) :
    ∀ u ∈ valuesAt before a.key, u.combines a.value = true := by
  intro u hu
  by_contra hc
  exact h ⟨hk, u, hu, eq_false_of_ne_true hc⟩

/-- Entries of which none conflicts with one before it. -/
def Peaceful (as : List Arrival) : Prop :=
  ∀ front a back, as = front ++ a :: back → ¬ a.Conflicts front

namespace Peaceful

variable {as : List Arrival} {a : Arrival}

theorem nil : Peaceful [] := by
  intro front a back h
  exact absurd h.symm (List.append_ne_nil_of_right_ne_nil front (List.cons_ne_nil a back))

theorem concat_iff : Peaceful (as ++ [a]) ↔ Peaceful as ∧ ¬ a.Conflicts as := by
  constructor
  · intro h
    refine ⟨fun front b back hsplit => ?_, h as a [] rfl⟩
    exact h front b (back ++ [a]) (by rw [hsplit, List.append_assoc, List.cons_append])
  · rintro ⟨h, ha⟩ front b back hsplit
    rcases List.eq_nil_or_concat back with rfl | ⟨back, last, rfl⟩
    · obtain ⟨rfl, rfl⟩ := List.append_singleton_inj.mp hsplit
      exact ha
    · rw [List.concat_eq_append, ← List.cons_append, ← List.append_assoc] at hsplit
      exact h front b back (List.append_singleton_inj.mp hsplit).1

/-- **There is a first entry that conflicts**, if there is any. -/
theorem or_exists_first (as : List Arrival) :
    Peaceful as ∨ ∃ front a back, as = front ++ a :: back ∧ Peaceful front ∧ a.Conflicts front := by
  induction as using List.reverseRecOn with
  | nil => exact .inl nil
  | append_singleton as a ih =>
    rcases ih with h | ⟨front, b, back, rfl, hfront, hb⟩
    · by_cases ha : a.Conflicts as
      · exact .inr ⟨as, a, [], rfl, h, ha⟩
      · exact .inl (concat_iff.mpr ⟨h, ha⟩)
    · exact .inr ⟨front, b, back ++ [a], by rw [List.append_assoc, List.cons_append], hfront, hb⟩

/-- **Where nothing conflicts, all constraints are kept.** -/
theorem kept_eq (h : Peaceful as) (policy : CollisionPolicy) {field : String}
    (hf : isOperatorKey field = false) :
    kept policy (valuesAt as field) = valuesAt as field := by
  induction as using List.reverseRecOn with
  | nil => rfl
  | append_singleton as a ih =>
    obtain ⟨has, ha⟩ := concat_iff.mp h
    by_cases hkey : a.key = field
    · subst hkey
      rw [valuesAt_concat_self, kept_concat, ih has]
      exact keep_of_forall (Arrival.combines_of_not_conflicts ha hf) policy
    · rw [valuesAt_concat_of_ne as hkey]
      exact ih has

end Peaceful

namespace Conjunction

variable {policy : CollisionPolicy} {m : Conjunction} {as : List Arrival} {a : Arrival}

/-- **An entry that does not conflict is taken**, unless it is more code. -/
theorem Merged.exists_addEntry (h : Merged policy as m) (has : Peaceful as)
    (ha : ¬ a.Conflicts as) (hw : a.key = whereKey → valuesAt as whereKey = []) :
    ∃ m', m.addEntry policy a.raw a.key a.value = .ok m' := by
  cases hg : get? m.doc a.key with
  | none => exact ⟨_, addEntry_of_none hg⟩
  | some present =>
    by_cases hkey : a.key = whereKey
    · -- the only code is new, so that nothing is found under its key
      have hnone : whereKey ∉ keys m.doc := by
        rw [h.mem_keys]
        exact valuesAt_eq_nil_iff.mp (hw hkey)
      exact absurd (hkey ▸ Document.mem_keys_of_get? hg) hnone
    · by_cases hk : isOperatorKey a.key = true
      · exact ⟨_, addEntry_of_operator hg hkey hk⟩
      · rw [Bool.not_eq_true] at hk
        have hholds := h.field a.key hk
        rw [hg, has.kept_eq policy hk] at hholds
        have hc : present.combines a.value = true :=
          (hholds.combines_iff a.value).mpr (Arrival.combines_of_not_conflicts ha hk)
        rw [addEntry_of_field hg hk]
        unfold constrainAgain
        rw [Value.uniteOperators?_eq_some_iff.mpr ⟨hc, rfl⟩]
        exact ⟨_, rfl⟩

/-- **An entry that conflicts is refused.** -/
theorem Merged.addEntry_eq_error (h : Merged .reject as m) (has : Peaceful as)
    (ha : a.Conflicts as) :
    m.addEntry .reject a.raw a.key a.value = .error (.fieldConflict a.key) := by
  obtain ⟨hk, u, hu, hc⟩ := ha
  have hholds := h.field a.key hk
  rw [has.kept_eq .reject hk] at hholds
  cases hg : get? m.doc a.key with
  | none =>
    rw [hg] at hholds
    generalize valuesAt as a.key = run at hu hholds
    cases hholds
    cases hu
  | some present =>
    rw [hg] at hholds
    have hnone : present.combines a.value = false := by
      refine eq_false_of_ne_true fun hall => ?_
      rw [(hholds.combines_iff a.value).mp hall u hu] at hc
      cases hc
    rw [addEntry_of_field hg hk, constrainAgain, Value.uniteOperators?_eq_none_iff.mpr hnone]

/-- **Entries that do not conflict are all taken**, if at most one of them
is code. -/
theorem exists_receive (has : Peaceful as) (hw : (valuesAt as whereKey).length ≤ 1)
    (policy : CollisionPolicy) : ∃ m, empty.receive policy as = .ok m := by
  induction as using List.reverseRecOn with
  | nil => exact ⟨empty, rfl⟩
  | append_singleton as a ih =>
    obtain ⟨has, ha⟩ := Peaceful.concat_iff.mp has
    rw [valuesAt_append, List.length_append] at hw
    obtain ⟨m, hm⟩ := ih has (by omega)
    have hnew : a.key = whereKey → valuesAt as whereKey = [] := by
      intro hkey
      have hone : valuesAt [a] whereKey = [a.value] := by simp [valuesAt, hkey]
      rw [hone, List.length_singleton] at hw
      exact List.length_eq_zero_iff.mp (by omega)
    have hmerged : Merged policy as m := Merged.nothing.receive hm
    obtain ⟨m', hm'⟩ := hmerged.exists_addEntry has ha hnew
    refine ⟨m', ?_⟩
    rw [receive_append, hm]
    show (m.addEntry policy a.raw a.key a.value).bind _ = _
    rw [hm']
    rfl

/-- **The first entry that conflicts is refused.** -/
theorem receive_eq_error {front back : List Arrival} (hfront : Peaceful front)
    (ha : a.Conflicts front) (hw : (valuesAt front whereKey).length ≤ 1) :
    empty.receive .reject (front ++ a :: back) = .error (.fieldConflict a.key) := by
  obtain ⟨m, hm⟩ := exists_receive hfront hw .reject
  have hmerged : Merged .reject front m := Merged.nothing.receive hm
  rw [receive_append, hm]
  show (m.addEntry .reject a.raw a.key a.value).bind _ = _
  rw [hmerged.addEntry_eq_error hfront ha]
  rfl

end Conjunction

/-! ## Conflicts among documents -/

/-- **An entry that conflicts with documents**: one of them gives its field
a constraint that cannot be combined with its own. -/
def ConflictsWith (earlier : List (Document × Bool)) (key : String) (value : Value) : Prop :=
  isOperatorKey key = false ∧ ∃ v ∈ supplied key earlier, v.combines value = false

/-- **Documents without conflicts**: no entry of one conflicts with those
before it. -/
def ConflictFree (operands : List (Document × Bool)) : Prop :=
  ∀ earlier operand later, operands = earlier ++ operand :: later →
    ∀ e ∈ operand.1, ¬ ConflictsWith earlier e.1 e.2

/-- **The field of the first conflict**: there is an entry under it that
conflicts with the documents before its own, and what stands before the
entry, in its document and in those before, is without conflicts. -/
def FirstConflict (operands : List (Document × Bool)) (field : String) : Prop :=
  ∃ earlier start raw value rest later,
    operands = earlier ++ (start ++ (field, value) :: rest, raw) :: later
    ∧ ConflictsWith earlier field value ∧ ConflictFree (earlier ++ [(start, raw)])

section Conflicts

variable {operands earlier : List (Document × Bool)} {key : String} {value : Value}

/-- The entries of documents, split at an entry of one of them. -/
theorem arrivals_split (earlier later : List (Document × Bool)) (start rest : Document)
    (key : String) (value : Value) (raw : Bool) :
    arrivals (earlier ++ (start ++ (key, value) :: rest, raw) :: later)
      = arrivals (earlier ++ [(start, raw)])
        ++ ⟨key, value, raw⟩ :: arrivals ((rest, raw) :: later) := by
  simp [arrivals]

/-- **An entry that arrives stands in a document.** -/
theorem exists_of_arrivals_eq {front back : List Arrival} {a : Arrival}
    (h : arrivals operands = front ++ a :: back) :
    ∃ earlier start rest later,
      operands = earlier ++ (start ++ (a.key, a.value) :: rest, a.raw) :: later
      ∧ front = arrivals (earlier ++ [(start, a.raw)]) := by
  induction operands generalizing front with
  | nil => exact absurd h.symm (List.append_ne_nil_of_right_ne_nil front (List.cons_ne_nil a back))
  | cons operand others ih =>
    obtain ⟨doc, raw⟩ := operand
    rw [arrivals_cons] at h
    -- the entry is one of the first document, or of those behind it
    rcases List.append_eq_append_iff.mp h with ⟨more, rfl, hothers⟩ | ⟨tail, hdoc, htail⟩
    · obtain ⟨earlier, start, rest, later, rfl, rfl⟩ := ih hothers
      refine ⟨(doc, raw) :: earlier, start, rest, later, rfl, ?_⟩
      rw [List.cons_append, arrivals_cons]
    · cases tail with
      | nil =>
        obtain ⟨earlier, start, rest, later, rfl, hfront⟩ := @ih [] htail.symm
        refine ⟨(doc, raw) :: earlier, start, rest, later, rfl, ?_⟩
        rw [List.cons_append, arrivals_cons, ← hfront, hdoc, List.append_nil, List.append_nil]
      | cons b tail =>
        obtain ⟨rfl, -⟩ := List.cons.inj htail
        obtain ⟨start, back, rfl, rfl, hback⟩ := List.map_eq_append_iff.mp hdoc
        obtain ⟨e, rest, rfl, rfl, -⟩ := List.map_eq_cons_iff.mp hback
        refine ⟨[], start, rest, others, rfl, ?_⟩
        rw [List.nil_append, arrivals_cons]
        exact (List.append_nil _).symm

/-- An entry conflicts with those that arrived before it exactly when it
conflicts with the documents before its own. -/
theorem conflicts_iff (hn : ∀ operand ∈ operands, (keys operand.1).Nodup)
    {start rest : Document} {raw : Bool} {later : List (Document × Bool)}
    (h : operands = earlier ++ (start ++ (key, value) :: rest, raw) :: later) :
    Arrival.Conflicts (arrivals (earlier ++ [(start, raw)])) ⟨key, value, raw⟩
      ↔ ConflictsWith earlier key value := by
  rw [h, List.forall_mem_append, List.forall_mem_cons] at hn
  obtain ⟨hearlier, hdoc, -⟩ := hn
  rw [Document.keys_append, Document.keys_cons, List.nodup_middle, List.nodup_cons,
    List.mem_append, not_or] at hdoc
  have hvalues : valuesAt (arrivals (earlier ++ [(start, raw)])) key = supplied key earlier := by
    rw [arrivals_append, valuesAt_append, valuesAt_arrivals hearlier, arrivals_cons,
      valuesAt_append, valuesAt_document, Document.under_of_not_mem hdoc.1.1]
    exact List.append_nil _
  unfold Arrival.Conflicts ConflictsWith
  rw [hvalues]

theorem peaceful_arrivals_iff (hn : ∀ operand ∈ operands, (keys operand.1).Nodup) :
    Peaceful (arrivals operands) ↔ ConflictFree operands := by
  constructor
  · rintro h earlier ⟨doc, raw⟩ later hsplit ⟨key, value⟩ hmem
    obtain ⟨start, rest, rfl⟩ := List.append_of_mem hmem
    rw [← conflicts_iff hn hsplit]
    exact h _ _ _ (hsplit ▸ arrivals_split earlier later start rest key value raw)
  · intro h front a back hsplit
    obtain ⟨earlier, start, rest, later, hoperands, rfl⟩ := exists_of_arrivals_eq hsplit
    rw [conflicts_iff hn hoperands]
    exact h earlier _ later hoperands (a.key, a.value)
      (List.mem_append_right start List.mem_cons_self)

/-- The first entry to conflict when it arrives has the field of the first
conflict among the documents. -/
theorem firstConflict_of_arrivals (hn : ∀ operand ∈ operands, (keys operand.1).Nodup)
    {front back : List Arrival} {a : Arrival} (h : arrivals operands = front ++ a :: back)
    (hfront : Peaceful front) (ha : a.Conflicts front) : FirstConflict operands a.key := by
  obtain ⟨earlier, start, rest, later, hoperands, rfl⟩ := exists_of_arrivals_eq h
  refine ⟨earlier, start, a.raw, a.value, rest, later, hoperands,
    (conflicts_iff hn hoperands).mp ha, (peaceful_arrivals_iff ?_).mp hfront⟩
  rw [hoperands, List.forall_mem_append, List.forall_mem_cons, Document.keys_append] at hn
  rw [List.forall_mem_append, List.forall_mem_singleton]
  exact ⟨hn.1, (List.nodup_append.mp hn.2.1).1⟩

/-- **Documents are without conflicts exactly when no two of them collide.** -/
theorem not_conflictFree_iff (hn : ∀ operand ∈ operands, (keys operand.1).Nodup) :
    ¬ ConflictFree operands ↔ ∃ (i j : Nat) (first second : Document × Bool) (field : String)
      (v w : Value), i < j ∧ operands[i]? = some first ∧ operands[j]? = some second
      ∧ isOperatorKey field = false ∧ get? first.1 field = some v ∧ get? second.1 field = some w
      ∧ v.combines w = false := by
  constructor
  · intro h
    simp only [ConflictFree, not_forall, not_not] at h
    obtain ⟨earlier, second, later, rfl, ⟨field, w⟩, hmem, hf, v, hv, hc⟩ := h
    obtain ⟨first, hfirst, hg⟩ := List.mem_filterMap.mp hv
    obtain ⟨i, hi⟩ := List.mem_iff_getElem?.mp hfirst
    have hlt : i < earlier.length := (List.getElem?_eq_some_iff.mp hi).1
    refine ⟨i, earlier.length, first, second, field, v, w, hlt, ?_, ?_, hf, hg, ?_, hc⟩
    · rw [List.getElem?_append_left hlt, hi]
    · simp
    · exact Document.get?_of_mem (hn second (by simp)) hmem
  · rintro ⟨i, j, first, second, field, v, w, hij, hi, hj, hf, hv, hw, hc⟩ h
    obtain ⟨hlt, hsecond⟩ := List.getElem?_eq_some_iff.mp hj
    have hsplit : operands = operands.take j ++ second :: operands.drop (j + 1) := by
      rw [← hsecond, List.getElem_cons_drop, List.take_append_drop]
    refine h _ _ _ hsplit (field, w) (Document.mem_of_get? hw) ⟨hf, v, ?_, hc⟩
    refine List.mem_filterMap.mpr ⟨first, List.mem_iff_getElem?.mpr ⟨i, ?_⟩, hv⟩
    rw [List.getElem?_take_of_lt hij, hi]

end Conflicts

/-! ## Rejecting -/

/-- **An entry that a document keeps.** -/
inductive Document.Keeps (d : Document) (key : String) (value : Value) : Prop where
  /-- A field makes every demand of its constraint. -/
  | field (hk : isOperatorKey key = false) (h : ∀ c, value.Requires c → d.Imposes key c)
  /-- A logical key has its value. -/
  | entry (hk : isOperatorKey key = true) (h : get? d key = some value)
  /-- The entry is an item of `$and`. -/
  | item (items : List Value) (hk : isOperatorKey key = true)
    (ha : get? d andKey = some (.list items)) (h : .document [(key, value)] ∈ items)
  /-- A list under `$and` is part of the list there. -/
  | items (mine items : List Value) (hk : key = andKey) (hv : value = .list mine)
    (ha : get? d andKey = some (.list items)) (h : mine ⊆ items)

namespace Conjunction

variable {policy : CollisionPolicy} {m : Conjunction} {as : List Arrival} {key : String}
  {value : Value} {operands : List (Document × Bool)}

/-- **Every entry of a logical key is kept**, whatever the policy. -/
theorem Merged.keeps_logical (h : Merged policy as m) (hk : isOperatorKey key = true)
    (hw : key ≠ whereKey) (hv : value ∈ valuesAt as key) : m.toDocument.Keeps key value := by
  rw [valuesAt_eq policy hk hw, List.mem_append, Option.mem_toList] at hv
  rcases hv with hfirst | haside
  · -- the first value stays under the key, but what is under `$and` may have joined others
    by_cases hand : key = andKey
    · subst hand
      by_cases hs : setAside policy as = []
      · refine .entry hk ?_
        rw [h.toDocument_of_nil hs, h.first andKey hk fun hkey => absurd hkey hw, hfirst]
      · have hget := h.get?_andKey hs
        rw [hfirst] at hget
        cases value with
        | list mine => exact .items mine _ rfl rfl hget (List.subset_append_left _ _)
        | _ => exact .item _ hk hget (List.mem_append_left _ (List.mem_singleton_self _))
    · refine .entry hk ?_
      rw [get?_toDocument_of_ne m hand, h.first key hk fun hkey => absurd hkey hw, hfirst]
  · obtain ⟨a, ha, rfl⟩ := List.mem_map.mp haside
    obtain ⟨hmem, hkey⟩ := List.mem_filter.mp ha
    obtain rfl := eq_of_beq hkey
    exact .item _ hk (h.get?_andKey (List.ne_nil_of_mem hmem))
      (List.mem_append_right _ (List.mem_map.mpr ⟨a, hmem, rfl⟩))

/-- **Where nothing conflicts, every entry is kept**, if at most one of
them is code and the maps give each key once. -/
theorem Merged.keeps (h : Merged policy as m) (has : Peaceful as)
    (hw : (valuesAt as whereKey).length ≤ 1)
    (hn : ∀ v ∈ valuesAt as key, v.operators.Nodup) (hv : value ∈ valuesAt as key) :
    m.toDocument.Keeps key value := by
  by_cases hk : isOperatorKey key = true
  · by_cases hkey : key = whereKey
    · subst hkey
      refine .entry hk ?_
      rw [get?_toDocument_of_ne m (by decide), h.first whereKey hk fun _ => hw]
      obtain ⟨v, hone⟩ := List.length_eq_one_iff.mp
        (Nat.le_antisymm hw (List.length_pos_of_mem hv))
      rw [hone, List.mem_singleton] at hv
      rw [hone, hv, List.head?_cons]
    · exact h.keeps_logical hk hkey hv
  · rw [Bool.not_eq_true] at hk
    refine .field hk fun c hc => (h.imposes_iff hk hn c).mpr ⟨value, ?_, hc⟩
    rwa [has.kept_eq policy hk]

/-- **Rejecting is exact.** Of documents of which at most one has code, a
merge fails exactly when two give a field constraints that cannot be
combined. It names the field of the first entry that conflicts with an
earlier document; and if there is none, every entry is kept. -/
theorem merge_reject (hd : ∀ operand ∈ operands, operand.1.Distinct)
    (hw : (supplied whereKey operands).length ≤ 1) :
    ((∃ e, merge .reject operands = .error e)
      ↔ ∃ (i j : Nat) (first second : Document × Bool) (field : String) (v w : Value),
        i < j ∧ operands[i]? = some first ∧ operands[j]? = some second
        ∧ isOperatorKey field = false ∧ get? first.1 field = some v
        ∧ get? second.1 field = some w ∧ v.combines w = false)
    ∧ (∀ e, merge .reject operands = .error e →
      ∃ field, e = .fieldConflict field ∧ FirstConflict operands field)
    ∧ ∀ d, merge .reject operands = .ok d →
      ∀ operand ∈ operands, ∀ e ∈ operand.1, d.Keeps e.1 e.2 := by
  have hn := fun operand hmem => (hd operand hmem).nodup
  rw [← not_conflictFree_iff hn, ← peaceful_arrivals_iff hn]
  rw [← valuesAt_arrivals hn] at hw
  rcases Peaceful.or_exists_first (arrivals operands) with
    has | ⟨front, a, back, hsplit, hfront, ha⟩
  · obtain ⟨m, hm⟩ := exists_receive has hw .reject
    have hmerged : Merged .reject (arrivals operands) m := Merged.nothing.receive hm
    rw [merge_eq_ok_iff.mpr ⟨m, hm, rfl⟩]
    refine ⟨⟨fun ⟨e, he⟩ => ?_, fun hnot => absurd has hnot⟩, fun e he => ?_, ?_⟩
    · cases he
    · cases he
    · rintro d hok operand hmem ⟨key, value⟩ he
      obtain rfl := Except.ok.inj hok
      refine hmerged.keeps has hw (operators_nodup_of_valuesAt hd key) ?_
      rw [valuesAt_arrivals hn]
      exact List.mem_filterMap.mpr ⟨operand, hmem, Document.get?_of_mem (hn operand hmem) he⟩
  · have herror : merge .reject operands = .error (.fieldConflict a.key) := by
      rw [hsplit, valuesAt_append, List.length_append] at hw
      rw [merge, addAll_eq_receive, hsplit, receive_eq_error hfront ha (by omega)]
      rfl
    rw [herror]
    refine ⟨⟨fun _ hpeace => hpeace front a back hsplit ha, fun _ => ⟨_, rfl⟩⟩, fun e he => ?_, ?_⟩
    · obtain rfl := Except.error.inj he
      exact ⟨a.key, rfl, firstConflict_of_arrivals hn hsplit hfront ha⟩
    · intro d hok
      cases hok

/-- Three bounds on a field, of which the last collides with the second. -/
theorem merge_reject_bounds :
    merge .reject [(Filter.underOperator "a" "$gt" (.int 1), false),
        (Filter.underOperator "a" "$lt" (.int 5), false),
        (Filter.underOperator "a" "$lt" (.int 3), false)] = .error (.fieldConflict "a")
    ∧ ∃ field, FilterError.fieldConflict "a" = .fieldConflict field
      ∧ FirstConflict [(Filter.underOperator "a" "$gt" (.int 1), false),
        (Filter.underOperator "a" "$lt" (.int 5), false),
        (Filter.underOperator "a" "$lt" (.int 3), false)] field := by
  refine ⟨?refused, (merge_reject ?distinct (by decide)).2.1 _ ?refused⟩
  · rfl
  · simp [distinct_underOperator]

end Conjunction

end DocFilter
