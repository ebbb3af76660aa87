import DocFilter.Filter.Conjunction
import DocFilter.Proofs.Documents
import DocFilter.Proofs.Outcomes

/-!
# What merging can do to a conjunction

An entry meets a conjunction in one of six ways, and `Added` names them:
its key is *fresh*; its code is *joined* to the code that is there; it is
*set aside*, since logical keys never overwrite each other; it is *united*
with the operators that are there; or, when nothing else is left, it
*replaces* what is there or is *wrapped*, as the policy says. Everything
about a merge is derived from these six cases, one entry at a time, and
the function itself is not opened again.

The code of a conjunction has a life of its own: which code is there, and
whether it is raw, changes only when an entry under `$where` arrives.
`Pending` is that part of the state and `Pending.add` its one step; a
merge that does not reject field conflicts fails exactly when the pending
code does (`pending_addDocument`).
-/

namespace DocFilter

open Document (get? keys under)

/-! ## Keys -/

/-- The key of code is an operator key. -/
theorem isOperatorKey_whereKey : isOperatorKey whereKey = true := by decide

/-- A field is none of the keys that mean something of their own. -/
theorem ne_of_isOperatorKey {key other : String} (hk : isOperatorKey key = false)
    (ho : isOperatorKey other = true) : key ≠ other := by
  rintro rfl
  rw [hk] at ho
  exact Bool.false_ne_true ho

/-! ## Uniting operators -/

/-- **Maps of operators that share none are united**, and nothing else is. -/
theorem Value.uniteOperators?_eq_some {left right both : Value}
    (h : Value.uniteOperators? left right = some both) :
    ∃ l r : Document, left = .document l ∧ right = .document r
      ∧ Document.isOperatorMap l = true ∧ Document.isOperatorMap r = true
      ∧ (∀ k ∈ keys r, k ∉ keys l) ∧ both = .document (Document.append l r) := by
  unfold Value.uniteOperators? at h
  split at h
  · rename_i l r
    split at h
    · rename_i hmaps
      simp only [Bool.and_eq_true, Bool.not_eq_true', List.any_eq_false] at hmaps
      refine ⟨l, r, rfl, rfl, hmaps.1.1, hmaps.1.2, ?_, (Option.some.inj h).symm⟩
      intro k hk hmem
      exact hmaps.2 k hk (Document.has_eq_true_iff.mpr hmem)
    · cases h
  · cases h

/-- A map of operators stays one when another is put behind it. -/
theorem Document.isOperatorMap_append {l r : Document} (hl : isOperatorMap l = true)
    (hr : isOperatorMap r = true) : isOperatorMap (l ++ r) = true := by
  unfold isOperatorMap at hl hr ⊢
  rw [Bool.and_eq_true, Bool.not_eq_true', List.isEmpty_eq_false_iff] at hl hr ⊢
  rw [Document.keys_append, List.all_append, hl.2, hr.2]
  exact ⟨List.append_ne_nil_of_left_ne_nil hl.1 r, rfl⟩

namespace Conjunction

variable {policy : CollisionPolicy} {raw : Bool} {m m' : Conjunction} {key : String}
  {value : Value} {doc : Document}

/-! ## One entry -/

section Equations

variable {present : Value}

theorem addEntry_of_none (hg : get? m.doc key = none) :
    m.addEntry policy raw key value = .ok
      { m.put key value with rawWhere := if key = whereKey then raw else m.rawWhere } := by
  unfold addEntry
  rw [hg]

theorem addEntry_of_where (hg : get? m.doc whereKey = some present) :
    m.addEntry policy raw whereKey value = (joinWhere present value m.rawWhere raw).map
      fun code => { m.put whereKey (.text code) with rawWhere := false } := by
  unfold addEntry
  rw [hg]
  show (if whereKey = whereKey then _ else _) = _
  rw [if_pos rfl]
  cases joinWhere present value m.rawWhere raw with
  | error e => rfl
  | ok code => rfl

theorem addEntry_of_operator (hg : get? m.doc key = some present) (hw : key ≠ whereKey)
    (hk : isOperatorKey key = true) :
    m.addEntry policy raw key value = .ok (m.defer key value) := by
  unfold addEntry
  rw [hg]
  dsimp only
  rw [if_neg hw, if_pos hk]

theorem addEntry_of_field (hg : get? m.doc key = some present) (hk : isOperatorKey key = false) :
    m.addEntry policy raw key value = constrainAgain policy m key present value := by
  unfold addEntry
  rw [hg]
  dsimp only
  rw [if_neg (ne_of_isOperatorKey hk isOperatorKey_whereKey), if_neg (by rw [hk]; decide)]

end Equations

/-- **What adding an entry can do.** -/
inductive Added (policy : CollisionPolicy) (raw : Bool) (m : Conjunction) (key : String)
    (value : Value) : Conjunction → Prop where
  /-- The key is new. -/
  | fresh (hg : get? m.doc key = none) :
    Added policy raw m key value
      { m.put key value with rawWhere := if key = whereKey then raw else m.rawWhere }
  /-- Code joins the code that is there. -/
  | joined (present : Value) (code : String) (hk : key = whereKey)
    (hg : get? m.doc key = some present)
    (hj : joinWhere present value m.rawWhere raw = .ok code) :
    Added policy raw m key value { m.put key (.text code) with rawWhere := false }
  /-- A logical key that is there already is set aside. -/
  | setAside (present : Value) (hg : get? m.doc key = some present) (hw : key ≠ whereKey)
    (hk : isOperatorKey key = true) : Added policy raw m key value (m.defer key value)
  /-- Two maps of operators without a common one become one map. -/
  | united (present both : Value) (hg : get? m.doc key = some present)
    (hk : isOperatorKey key = false) (hu : Value.uniteOperators? present value = some both) :
    Added policy raw m key value (m.put key both)
  /-- The later constraint replaces the earlier one. -/
  | replaced (present : Value) (hg : get? m.doc key = some present)
    (hk : isOperatorKey key = false) (hu : Value.uniteOperators? present value = none)
    (hp : policy = .lastWins) : Added policy raw m key value (m.put key value)
  /-- The later constraint is kept beside the earlier one. -/
  | wrapped (present : Value) (hg : get? m.doc key = some present)
    (hk : isOperatorKey key = false) (hu : Value.uniteOperators? present value = none)
    (hp : policy = .andWrap) : Added policy raw m key value (m.defer key value)

/-- **An entry that is added was added in one of the six ways.** -/
theorem added_of_addEntry (h : m.addEntry policy raw key value = .ok m') :
    Added policy raw m key value m' := by
  cases hg : get? m.doc key with
  | none =>
    rw [addEntry_of_none hg] at h
    obtain rfl := Except.ok.inj h
    exact .fresh hg
  | some present =>
    by_cases hw : key = whereKey
    · subst hw
      rw [addEntry_of_where hg] at h
      obtain ⟨code, hj, rfl⟩ := map_eq_ok_iff.mp h
      exact .joined present code rfl hg hj
    · by_cases hk : isOperatorKey key = true
      · rw [addEntry_of_operator hg hw hk] at h
        obtain rfl := Except.ok.inj h
        exact .setAside present hg hw hk
      · rw [Bool.not_eq_true] at hk
        rw [addEntry_of_field hg hk] at h
        unfold constrainAgain at h
        cases hu : Value.uniteOperators? present value with
        | some both =>
          rw [hu] at h
          obtain rfl := Except.ok.inj h
          exact .united present both hg hk hu
        | none =>
          rw [hu] at h
          cases policy with
          | lastWins => obtain rfl := Except.ok.inj h; exact .replaced present hg hk hu rfl
          | reject => cases h
          | andWrap => obtain rfl := Except.ok.inj h; exact .wrapped present hg hk hu rfl

/-- **The keys of the document stay distinct.** -/
theorem Added.nodup_keys (h : Added policy raw m key value m') (hn : (keys m.doc).Nodup) :
    (keys m'.doc).Nodup := by
  cases h with
  | fresh _ => exact Document.nodup_keys_insert hn _ _
  | joined _ _ _ _ _ => exact Document.nodup_keys_insert hn _ _
  | setAside _ _ _ _ => exact hn
  | united _ _ _ _ _ => exact Document.nodup_keys_insert hn _ _
  | replaced _ _ _ _ _ => exact Document.nodup_keys_insert hn _ _
  | wrapped _ _ _ _ _ => exact hn

/-! ## A whole document -/

theorem addDocument_cons (rest : Document) :
    m.addDocument policy raw ((key, value) :: rest)
      = (m.addEntry policy raw key value).bind fun m' => m'.addDocument policy raw rest := by
  rw [addDocument]
  cases m.addEntry policy raw key value with
  | error e => rfl
  | ok m' => rfl

/-- The keys of the document stay distinct. -/
theorem addDocument_nodup_keys (h : m.addDocument policy raw doc = .ok m')
    (hn : (keys m.doc).Nodup) : (keys m'.doc).Nodup := by
  induction doc generalizing m with
  | nil =>
    obtain rfl := Except.ok.inj h
    exact hn
  | cons e rest ih =>
    rw [addDocument_cons] at h
    obtain ⟨m₁, ha, hrest⟩ := bind_eq_ok_iff.mp h
    exact ih hrest ((added_of_addEntry ha).nodup_keys hn)

/-! ## The code of a conjunction -/

/-- **The code that waits to be joined**, and whether it is raw. -/
structure Pending where
  /-- What stands under `$where`. -/
  code : Option Value
  /-- Whether it came with a ready-made document. -/
  raw : Bool

namespace Pending

/-- **One more value under `$where`.** -/
def add (p : Pending) (raw : Bool) (value : Value) : Except FilterError Pending :=
  match p.code with
  | none => .ok ⟨some value, raw⟩
  | some present =>
    (joinWhere present value p.raw raw).map fun code => ⟨some (.text code), false⟩

/-- Values under `$where` one after the other. -/
def addAll (p : Pending) (raw : Bool) : List Value → Except FilterError Pending
  | [] => .ok p
  | value :: rest =>
    match p.add raw value with
    | .error e => .error e
    | .ok p' => p'.addAll raw rest

theorem addAll_singleton (p : Pending) (raw : Bool) (value : Value) :
    p.addAll raw [value] = p.add raw value := by
  unfold addAll
  cases p.add raw value with
  | error e => rfl
  | ok p' => rfl

end Pending

/-- The code of a conjunction in the making. -/
def pending (m : Conjunction) : Pending :=
  ⟨get? m.doc whereKey, m.rawWhere⟩

/-- **An entry under `$where` takes the pending code one step on.** -/
theorem pending_addEntry_where (m : Conjunction) (policy : CollisionPolicy) (raw : Bool)
    (value : Value) :
    (m.addEntry policy raw whereKey value).map pending = m.pending.add raw value := by
  unfold Pending.add
  show _ = match get? m.doc whereKey with
    | none => _
    | some present => _
  cases hg : get? m.doc whereKey with
  | none =>
    rw [addEntry_of_none hg]
    show Except.ok (Pending.mk (get? (Document.insert m.doc whereKey value) whereKey) _) = _
    rw [Document.get?_insert_self]
    rfl
  | some present =>
    rw [addEntry_of_where hg]
    show _ = Except.map _ (joinWhere present value m.rawWhere raw)
    cases joinWhere present value m.rawWhere raw with
    | error e => rfl
    | ok code =>
      show Except.ok (Pending.mk (get? (Document.insert m.doc whereKey _) whereKey) false) = _
      rw [Document.get?_insert_self]
      rfl

/-- **No other entry touches the pending code.** -/
theorem Added.pending_eq (h : Added policy raw m key value m') (hk : key ≠ whereKey) :
    m'.pending = m.pending := by
  have hput : ∀ v, get? (Document.insert m.doc key v) whereKey = get? m.doc whereKey :=
    fun v => Document.get?_insert_of_ne m.doc v (Ne.symm hk)
  cases h with
  | fresh _ =>
    show Pending.mk _ (if key = whereKey then raw else m.rawWhere) = _
    rw [if_neg hk]
    exact congrArg (fun c => Pending.mk c m.rawWhere) (hput value)
  | joined _ _ hw _ _ => exact absurd hw hk
  | setAside _ _ _ _ => rfl
  | united _ both _ _ _ => exact congrArg (fun c => Pending.mk c m.rawWhere) (hput both)
  | replaced _ _ _ _ _ => exact congrArg (fun c => Pending.mk c m.rawWhere) (hput value)
  | wrapped _ _ _ _ _ => rfl

/-- Only code and rejected conflicts can fail. -/
theorem exists_addEntry (hp : policy ≠ .reject) (hk : key ≠ whereKey) (m : Conjunction)
    (raw : Bool) (value : Value) : ∃ m', m.addEntry policy raw key value = .ok m' := by
  cases hg : get? m.doc key with
  | none => exact ⟨_, addEntry_of_none hg⟩
  | some present =>
    by_cases ho : isOperatorKey key = true
    · exact ⟨_, addEntry_of_operator hg hk ho⟩
    · rw [Bool.not_eq_true] at ho
      rw [addEntry_of_field hg ho]
      unfold constrainAgain
      cases Value.uniteOperators? present value with
      | some both => exact ⟨_, rfl⟩
      | none =>
        cases policy with
        | lastWins => exact ⟨_, rfl⟩
        | reject => exact absurd rfl hp
        | andWrap => exact ⟨_, rfl⟩

/-- **A document takes the pending code on by its code alone**, and fails
exactly when the code does, unless field conflicts are rejected. -/
theorem pending_addDocument (hp : policy ≠ .reject) (m : Conjunction) (raw : Bool)
    (doc : Document) :
    (m.addDocument policy raw doc).map pending = m.pending.addAll raw (under doc whereKey) := by
  -- entry by entry: one under `$where` is one step of the code, any other is none
  induction doc generalizing m with
  | nil => rfl
  | cons e rest ih =>
    obtain ⟨k, v⟩ := e
    rw [addDocument_cons]
    by_cases hk : k = whereKey
    · subst hk
      rw [Document.under_cons_self]
      unfold Pending.addAll
      rw [← pending_addEntry_where m policy raw v]
      cases m.addEntry policy raw whereKey v with
      | error err => rfl
      | ok m' => exact ih m'
    · rw [Document.under_cons_of_ne hk]
      obtain ⟨m', hm'⟩ := exists_addEntry hp hk m raw v
      rw [hm', ← (added_of_addEntry hm').pending_eq hk]
      exact ih m'

/-! ## The finished document -/

theorem toDocument_of_nil (h : m.deferred = []) : m.toDocument = m.doc := by
  unfold toDocument
  rw [h]
  rfl

theorem toDocument_of_ne_nil (h : m.deferred ≠ []) :
    m.toDocument = Document.erase m.doc andKey ++ Document.single andKey
      (.list (andItems m.doc ++ m.deferred.map fun e => .document (Document.single e.1 e.2))) := by
  unfold toDocument
  rw [if_neg (fun hd => h (List.isEmpty_iff.mp hd))]

/-- **The finished document has the pending code**, and no other. -/
theorem under_toDocument (hn : (keys m.doc).Nodup) :
    under m.toDocument whereKey = m.pending.code.toList := by
  have hdoc : under m.doc whereKey = m.pending.code.toList := Document.under_eq_toList hn whereKey
  by_cases hd : m.deferred = []
  · rw [toDocument_of_nil hd, hdoc]
  · rw [toDocument_of_ne_nil hd, Document.under_append, ← hdoc]
    have hw : under (Document.single andKey
        (.list (andItems m.doc ++ m.deferred.map fun e => .document (Document.single e.1 e.2))))
        whereKey = [] := Document.under_cons_of_ne (by decide) _ _
    rw [hw, List.append_nil]
    unfold under Document.erase
    rw [List.filter_filter]
    refine congrArg _ (List.filter_congr (fun e _ => ?_))
    by_cases he : e.1 = whereKey
    · rw [he]
      decide
    · rw [beq_eq_false_iff_ne.mpr he, Bool.false_and]

end Conjunction

end DocFilter
