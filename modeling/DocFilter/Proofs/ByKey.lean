import DocFilter.Proofs.Combining
import DocFilter.Proofs.Translation
import Mathlib.Data.List.Forall2

/-!
# Merging is local to each key

A group merges the documents of its operands
(`Filter.Merges.ofExpr_eq_merge`). Their entries arrive at the conjunction
one after the other (`arrivals`), whatever document they come from, and an
entry touches what is under its own key and nothing else. What a merge
leaves under a key is therefore what a merge of that key's entries alone
would leave there.

One place is shared: the list of what is set aside, which goes under
`$and` in the end. Whether an entry is set aside depends on the entries of
its key again, on those that came before it (`isSetAside`); the list holds
these entries in the order in which they arrived.

`Merged` puts together what is known of a conjunction from the entries
that have arrived: the keys in the order of their first entries, what is
under a field and under a logical key, and what was set aside. One more
entry keeps it so (`Merged.step`), hence so does a whole merge.
-/

namespace DocFilter

open Document (get? keys under)

/-! ## The documents of a group -/

namespace Filter

variable {o : Options} {negated : Bool} {operands : List Expr} {docs : List Document}

theorem allOf_eq_addAll (h : List.Forall₂ (fun e d => ofExpr o negated e = .ok d) operands docs)
    (m : Conjunction) :
    allOf o negated m operands
      = m.addAll o.collision (docs.zip (operands.map (isRaw negated))) := by
  induction h generalizing m with
  | nil => rw [allOf]; rfl
  | cons he _ ih =>
    rw [allOf_cons, he, List.map_cons, List.zip_cons_cons, Conjunction.addAll]
    show (m.addDocument _ _ _).bind _ = _
    cases m.addDocument o.collision _ _ with
    | error err => rfl
    | ok m' => exact ih m'

/-- **A group is the merge of the documents of its operands**, in which
ready-made documents are marked. -/
theorem Merges.ofExpr_eq_merge {e : Expr} (hm : Merges negated e operands)
    (h : List.Forall₂ (fun e d => ofExpr o negated e = .ok d) operands docs) :
    ofExpr o negated e
      = Conjunction.merge o.collision (docs.zip (operands.map (isRaw negated))) := by
  cases hm with
  | all operands => rw [ofExpr_all, allOf_eq_addAll h, Conjunction.merge]
  | any operands => rw [ofExpr_not_any, allOf_eq_addAll h, Conjunction.merge]

end Filter

/-! ## Entries that arrive -/

/-- **An entry on its way into a conjunction**, with the mark of its
document. -/
structure Arrival where
  /-- The key. -/
  key : String
  /-- The value. -/
  value : Value
  /-- Whether the entry comes with a ready-made document. -/
  raw : Bool

/-- **The entries of documents**, in the order in which they arrive. -/
def arrivals (operands : List (Document × Bool)) : List Arrival :=
  operands.flatMap fun operand => operand.1.map fun e => ⟨e.1, e.2, operand.2⟩

theorem arrivals_cons (doc : Document) (raw : Bool) (rest : List (Document × Bool)) :
    arrivals ((doc, raw) :: rest) = (doc.map fun e => ⟨e.1, e.2, raw⟩) ++ arrivals rest :=
  List.flatMap_cons

theorem arrivals_append (before after : List (Document × Bool)) :
    arrivals (before ++ after) = arrivals before ++ arrivals after :=
  List.flatMap_append

/-- The values that arrive under a key, in order. -/
def valuesAt (as : List Arrival) (key : String) : List Value :=
  (as.filter fun a => a.key == key).map Arrival.value

/-- **Documents without the entries of other keys.** -/
def only (key : String) (operands : List (Document × Bool)) : List (Document × Bool) :=
  operands.map fun operand => (operand.1.filter fun e => e.1 == key, operand.2)

/-- The entries of a key arrive as they do among others. -/
theorem arrivals_only (key : String) (operands : List (Document × Bool)) :
    arrivals (only key operands) = (arrivals operands).filter fun a => a.key == key := by
  unfold arrivals only
  rw [List.flatMap_map, List.filter_flatMap]
  refine congrArg (fun f => operands.flatMap f) (funext fun operand => ?_)
  rw [List.filter_map]
  rfl

section Values

variable (as : List Arrival) {a : Arrival} {key : String}

theorem valuesAt_append (bs : List Arrival) (key : String) :
    valuesAt (as ++ bs) key = valuesAt as key ++ valuesAt bs key := by
  unfold valuesAt
  rw [List.filter_append, List.map_append]

theorem valuesAt_concat_self (a : Arrival) :
    valuesAt (as ++ [a]) a.key = valuesAt as a.key ++ [a.value] := by
  rw [valuesAt_append]
  simp [valuesAt]

theorem valuesAt_concat_of_ne (h : a.key ≠ key) :
    valuesAt (as ++ [a]) key = valuesAt as key := by
  rw [valuesAt_append]
  simp [valuesAt, h]

theorem valuesAt_eq_nil_iff {as : List Arrival} :
    valuesAt as key = [] ↔ key ∉ as.map Arrival.key := by
  simp [valuesAt]

theorem valuesAt_document (doc : Document) (raw : Bool) (key : String) :
    valuesAt (doc.map fun e => ⟨e.1, e.2, raw⟩) key = under doc key := by
  unfold valuesAt under
  rw [List.filter_map, List.map_map]
  rfl

end Values

namespace Conjunction

variable {policy : CollisionPolicy} {m m' m₁ m₂ : Conjunction} {raw : Bool} {key other : String}
  {value : Value}

/-- Take entries as they arrive. -/
def receive (policy : CollisionPolicy) (m : Conjunction) :
    List Arrival → Except FilterError Conjunction
  | [] => .ok m
  | a :: rest => (m.addEntry policy a.raw a.key a.value).bind fun m' => receive policy m' rest

theorem receive_append (m : Conjunction) (as bs : List Arrival) :
    m.receive policy (as ++ bs) = (m.receive policy as).bind fun m' => m'.receive policy bs := by
  induction as generalizing m with
  | nil => rfl
  | cons a rest ih =>
    rw [List.cons_append, receive, receive]
    cases m.addEntry policy a.raw a.key a.value with
    | error e => rfl
    | ok m' => exact ih m'

/-- A document is added as its entries arrive. -/
theorem addDocument_eq_receive (m : Conjunction) (raw : Bool) (doc : Document) :
    m.addDocument policy raw doc = m.receive policy (doc.map fun e => ⟨e.1, e.2, raw⟩) := by
  induction doc generalizing m with
  | nil => rfl
  | cons e rest ih =>
    obtain ⟨k, v⟩ := e
    rw [addDocument_cons, List.map_cons, receive]
    exact congrArg _ (funext fun m' => ih m')

/-- **Documents are added as their entries arrive.** -/
theorem addAll_eq_receive (m : Conjunction) (operands : List (Document × Bool)) :
    m.addAll policy operands = m.receive policy (arrivals operands) := by
  induction operands generalizing m with
  | nil => rfl
  | cons operand rest ih =>
    obtain ⟨doc, raw⟩ := operand
    rw [addAll, arrivals_cons, receive_append, ← addDocument_eq_receive]
    cases m.addDocument policy raw doc with
    | error e => rfl
    | ok m' => exact ih m'

/-- A merge is a conjunction that has received the entries, finished. -/
theorem merge_eq_ok_iff {operands : List (Document × Bool)} {d : Document} :
    merge policy operands = .ok d
      ↔ ∃ m, empty.receive policy (arrivals operands) = .ok m ∧ m.toDocument = d := by
  rw [merge, addAll_eq_receive, map_eq_ok_iff]

/-! ## One key at a time -/

/-- **Conjunctions that agree at a key**: the same is under it, and where
it is the key of code, they agree on whether the code is raw. -/
structure AgreeAt (key : String) (m₁ m₂ : Conjunction) : Prop where
  /-- The same is under the key. -/
  get? : get? m₁.doc key = get? m₂.doc key
  /-- The code is raw in both or in none. -/
  raw : key = whereKey → m₁.rawWhere = m₂.rawWhere

/-- **Another key is left as it is.** -/
theorem Added.get?_of_ne (h : Added policy raw m key value m') (hne : other ≠ key) :
    Document.get? m'.doc other = Document.get? m.doc other := by
  cases h with
  | fresh _ => exact Document.get?_insert_of_ne _ _ hne
  | joined _ _ _ _ _ => exact Document.get?_insert_of_ne _ _ hne
  | setAside _ _ _ _ => rfl
  | united _ _ _ _ _ => exact Document.get?_insert_of_ne _ _ hne
  | replaced _ _ _ _ _ => exact Document.get?_insert_of_ne _ _ hne
  | wrapped _ _ _ _ _ => rfl

theorem Added.agreeAt_of_ne (h : Added policy raw m key value m') (hne : other ≠ key) :
    AgreeAt other m' m :=
  ⟨h.get?_of_ne hne, fun hw => congrArg Pending.raw (h.pending_eq (hw ▸ hne.symm))⟩

theorem AgreeAt.put (h : AgreeAt key m₁ m₂) (value : Value) :
    AgreeAt key (m₁.put key value) (m₂.put key value) :=
  ⟨by rw [Conjunction.put, Conjunction.put, Document.get?_insert_self,
    Document.get?_insert_self], h.raw⟩

theorem AgreeAt.withRaw (h : AgreeAt key m₁ m₂) {raw₁ raw₂ : Bool}
    (hraw : key = whereKey → raw₁ = raw₂) :
    AgreeAt key { m₁ with rawWhere := raw₁ } { m₂ with rawWhere := raw₂ } :=
  ⟨h.get?, hraw⟩

theorem AgreeAt.defer (h : AgreeAt key m₁ m₂) (value : Value) :
    AgreeAt key (m₁.defer key value) (m₂.defer key value) :=
  ⟨h.get?, h.raw⟩

/-- **What an entry does under its key depends on what is there**, and on
nothing else. -/
theorem AgreeAt.addEntry (h : AgreeAt key m₁ m₂) (policy : CollisionPolicy) (raw : Bool)
    (value : Value) :
    Outcomes (AgreeAt key) (m₁.addEntry policy raw key value)
      (m₂.addEntry policy raw key value) := by
  cases hg : Document.get? m₁.doc key with
  | none =>
    rw [addEntry_of_none hg, addEntry_of_none (h.get? ▸ hg)]
    exact .ok ((h.put value).withRaw fun hw => by rw [if_pos hw, if_pos hw])
  | some present =>
    have hg₂ : Document.get? m₂.doc key = some present := h.get? ▸ hg
    by_cases hw : key = whereKey
    · subst hw
      rw [addEntry_of_where hg, addEntry_of_where hg₂, h.raw rfl]
      cases joinWhere present value m₂.rawWhere raw with
      | error e => exact .error e
      | ok code => exact .ok ((h.put _).withRaw fun _ => rfl)
    · by_cases hk : isOperatorKey key = true
      · rw [addEntry_of_operator hg hw hk, addEntry_of_operator hg₂ hw hk]
        exact .ok (h.defer value)
      · rw [Bool.not_eq_true] at hk
        rw [addEntry_of_field hg hk, addEntry_of_field hg₂ hk]
        unfold constrainAgain
        cases Value.uniteOperators? present value with
        | some both => exact .ok (h.put both)
        | none =>
          cases policy with
          | lastWins => exact .ok (h.put value)
          | reject => exact .error _
          | andWrap => exact .ok (h.defer value)

/-- **A run does under a key what a run over its entries does.** -/
theorem AgreeAt.receive (h : AgreeAt key m₁ m₂) {as : List Arrival} {m₁' : Conjunction}
    (hr : m₁.receive policy as = .ok m₁') :
    ∃ m₂', m₂.receive policy (as.filter fun a => a.key == key) = .ok m₂'
      ∧ AgreeAt key m₁' m₂' := by
  induction as generalizing m₁ m₂ with
  | nil =>
    obtain rfl := Except.ok.inj hr
    exact ⟨m₂, rfl, h⟩
  | cons a rest ih =>
    rw [Conjunction.receive] at hr
    obtain ⟨n₁, ha, hrest⟩ := bind_eq_ok_iff.mp hr
    by_cases hk : a.key = key
    · -- both runs take the entry, and go on alike
      subst hk
      obtain ⟨n₂, ha₂, hagree⟩ := (h.addEntry policy a.raw a.value).exists_ok ha
      rw [List.filter_cons_of_pos (by simp), Conjunction.receive, ha₂]
      exact ih hagree hrest
    · rw [List.filter_cons_of_neg (by simpa using hk)]
      have hframe := (added_of_addEntry ha).agreeAt_of_ne (Ne.symm hk)
      exact ih ⟨hframe.get?.trans h.get?, fun hw => (hframe.raw hw).trans (h.raw hw)⟩ hrest

end Conjunction

/-! ## What is set aside -/

/-- **Whether an entry is set aside**, by the entries that came before it:
its key is a logical one and came before, or constraints that collide are
wrapped and it cannot be combined with all those that its field holds. -/
def isSetAside (policy : CollisionPolicy) (before : List Arrival) (a : Arrival) : Bool :=
  if isOperatorKey a.key then a.key != whereKey && (before.map Arrival.key).contains a.key
  else policy == .andWrap
    && !(kept policy (valuesAt before a.key)).all fun u => u.combines a.value

theorem isSetAside_of_operator {before : List Arrival} {a : Arrival} (policy : CollisionPolicy)
    (hk : isOperatorKey a.key = true) : isSetAside policy before a
      = (a.key != whereKey && (before.map Arrival.key).contains a.key) := by
  rw [isSetAside, if_pos hk]

theorem isSetAside_of_field {before : List Arrival} {a : Arrival} (policy : CollisionPolicy)
    (hk : isOperatorKey a.key = false) : isSetAside policy before a
      = (policy == .andWrap
        && !(kept policy (valuesAt before a.key)).all fun u => u.combines a.value) := by
  rw [isSetAside, if_neg (by rw [hk]; decide)]

/-- The entries that are set aside, behind those that came before. -/
def setAsideFrom (policy : CollisionPolicy) (before : List Arrival) : List Arrival → List Arrival
  | [] => []
  | a :: rest =>
    if isSetAside policy before a then a :: setAsideFrom policy (before ++ [a]) rest
    else setAsideFrom policy (before ++ [a]) rest

/-- **The entries that are set aside**, in the order in which they arrive. -/
def setAside (policy : CollisionPolicy) (as : List Arrival) : List Arrival :=
  setAsideFrom policy [] as

theorem setAsideFrom_concat (policy : CollisionPolicy) (before as : List Arrival) (a : Arrival) :
    setAsideFrom policy before (as ++ [a]) = setAsideFrom policy before as
      ++ if isSetAside policy (before ++ as) a then [a] else [] := by
  induction as generalizing before with
  | nil =>
    rw [List.nil_append, setAsideFrom, setAsideFrom, setAsideFrom, List.append_nil,
      List.nil_append]
  | cons b rest ih =>
    rw [List.cons_append, setAsideFrom, setAsideFrom, ih, List.append_assoc,
      List.singleton_append]
    split <;> rfl

theorem setAside_concat (policy : CollisionPolicy) (as : List Arrival) (a : Arrival) :
    setAside policy (as ++ [a])
      = setAside policy as ++ if isSetAside policy as a then [a] else [] :=
  setAsideFrom_concat policy [] as a

/-! ## A conjunction and the entries that have arrived -/

/-- The first occurrences in a list that has one more element. -/
theorem eraseDups_concat (ks : List String) (k : String) :
    (ks ++ [k]).eraseDups = if k ∈ ks then ks.eraseDups else ks.eraseDups ++ [k] := by
  rw [List.eraseDups_append]
  by_cases h : k ∈ ks
  · rw [if_pos h]
    simp [List.removeAll, h]
  · rw [if_neg h]
    simp [List.removeAll, h, List.eraseDups_cons]

namespace Conjunction

variable {policy : CollisionPolicy} {m m' : Conjunction} {raw : Bool} {key : String}
  {value : Value}

/-- **A new key goes to the end**, and a known one stays where it is. -/
theorem Added.keys_eq (h : Added policy raw m key value m') :
    keys m'.doc = if key ∈ keys m.doc then keys m.doc else keys m.doc ++ [key] := by
  cases h with
  | fresh _ => exact Document.keys_insert _ _ _
  | joined _ _ _ _ _ => exact Document.keys_insert _ _ _
  | setAside _ hg _ _ => rw [if_pos (Document.mem_keys_of_get? hg)]; rfl
  | united _ _ _ _ _ => exact Document.keys_insert _ _ _
  | replaced _ _ _ _ _ => exact Document.keys_insert _ _ _
  | wrapped _ hg _ _ _ => rw [if_pos (Document.mem_keys_of_get? hg)]; rfl

/-- **A logical key keeps its first value**, and code that comes first is
put as it is. -/
theorem Added.get?_first (h : Added policy raw m key value m') (hk : isOperatorKey key = true)
    (hw : key = whereKey → get? m.doc key = none) :
    get? m'.doc key = (get? m.doc key).or (some value) := by
  cases h with
  | fresh hg => rw [hg]; exact Document.get?_insert_self _ _ _
  | joined _ _ hkey hg _ => rw [hw hkey] at hg; cases hg
  | setAside _ hg _ _ => rw [hg]; exact hg
  | united _ _ _ hf _ => rw [hk] at hf; cases hf
  | replaced _ _ hf _ _ => rw [hk] at hf; cases hf
  | wrapped _ _ hf _ _ => rw [hk] at hf; cases hf

/-- **A field holds the constraints that it keeps.** -/
theorem Added.fieldHolds (h : Added policy raw m key value m') (hk : isOperatorKey key = false)
    {run : List Value} (hr : FieldHolds run (get? m.doc key)) :
    FieldHolds (keep policy run value) (get? m'.doc key) := by
  have hput : ∀ v, get? (m.put key v).doc key = some v := Document.get?_insert_self m.doc key
  cases h with
  | fresh hg =>
    rw [hg] at hr
    cases hr
    rw [keep_of_forall (List.forall_mem_nil _)]
    show FieldHolds _ (get? (m.put key value).doc key)
    rw [hput]
    exact .united (.one value)
  | joined _ _ hkey _ _ => exact absurd hkey (ne_of_isOperatorKey hk isOperatorKey_whereKey)
  | setAside _ _ _ ho => rw [hk] at ho; cases ho
  | united present both hg _ hu =>
    rw [hg] at hr
    obtain ⟨hc, rfl⟩ := Value.uniteOperators?_eq_some_iff.mp hu
    rw [keep_of_forall ((hr.combines_iff value).mp hc), hput]
    cases hr with
    | united hunion => exact .united (hunion.more hc)
  | replaced present hg _ hu hp =>
    rw [hg] at hr
    rw [keep_of_not_forall (hr.not_forall_combines hu), if_pos hp, hput]
    exact .united (.one value)
  | wrapped present hg _ hu hp =>
    rw [keep_of_not_forall ((hg ▸ hr).not_forall_combines hu), if_neg (hp ▸ by decide)]
    exact hr

/-- **A conjunction that has received entries.** -/
structure Merged (policy : CollisionPolicy) (before : List Arrival) (m : Conjunction) : Prop where
  /-- The keys stand in the order of their first entries. -/
  keys_eq : keys m.doc = (before.map Arrival.key).eraseDups
  /-- A field holds the constraints that it keeps. -/
  field : ∀ key, isOperatorKey key = false →
    FieldHolds (kept policy (valuesAt before key)) (get? m.doc key)
  /-- A logical key has its first value, and so has the key of code if only one arrived. -/
  first : ∀ key, isOperatorKey key = true →
    (key = whereKey → (valuesAt before key).length ≤ 1) →
    get? m.doc key = (valuesAt before key).head?
  /-- The other entries that could not share the document were set aside. -/
  deferred_eq : m.deferred = (setAside policy before).map fun a => (a.key, a.value)

namespace Merged

variable {before : List Arrival} {a : Arrival}

theorem nothing : Merged policy [] empty :=
  ⟨rfl, fun _ _ => .nothing, fun _ _ _ => rfl, rfl⟩

theorem mem_keys (h : Merged policy before m) :
    key ∈ keys m.doc ↔ key ∈ before.map Arrival.key := by
  rw [h.keys_eq, List.mem_eraseDups]

/-- **An entry is set aside by the entries that came before it.** -/
theorem deferred_of_added (h : Merged policy before m)
    (ha : Added policy a.raw m a.key a.value m') :
    m'.deferred = m.deferred ++ if isSetAside policy before a then [(a.key, a.value)] else [] := by
  have hheld := h.field a.key
  cases ha with
  | fresh hg =>
    have hset : isSetAside policy before a = false := by
      by_cases hk : isOperatorKey a.key = true
      · have hnew : a.key ∉ before.map Arrival.key := fun hmem =>
          Document.get?_eq_none_iff.mp hg (h.mem_keys.mpr hmem)
        rw [isSetAside_of_operator policy hk, List.contains_eq_mem, decide_eq_false hnew,
          Bool.and_false]
      · rw [Bool.not_eq_true] at hk
        rw [hg] at hheld
        cases hrun : kept policy (valuesAt before a.key) with
        | nil => rw [isSetAside_of_field policy hk, hrun, List.all_nil]; simp
        | cons v run => cases hrun ▸ hheld hk
    rw [hset]
    exact (List.append_nil _).symm
  | joined _ _ hkey _ _ =>
    rw [isSetAside_of_operator policy (hkey ▸ isOperatorKey_whereKey), hkey, bne_self_eq_false]
    exact (List.append_nil _).symm
  | setAside _ hg hw hk =>
    have hold : a.key ∈ before.map Arrival.key := h.mem_keys.mp (Document.mem_keys_of_get? hg)
    rw [isSetAside_of_operator policy hk, List.contains_eq_mem, decide_eq_true hold,
      bne_iff_ne.mpr hw]
    rfl
  | united present both hg hk hu =>
    have hc := (Value.uniteOperators?_eq_some_iff.mp hu).1
    have hall := ((hg ▸ hheld hk).combines_iff a.value).mp hc
    rw [isSetAside_of_field policy hk, List.all_eq_true.mpr hall, Bool.not_true, Bool.and_false]
    exact (List.append_nil _).symm
  | replaced present hg hk hu hp =>
    rw [isSetAside_of_field policy hk, hp]
    exact (List.append_nil _).symm
  | wrapped present hg hk hu hp =>
    have hnot := (hg ▸ hheld hk).not_forall_combines hu
    rw [← List.all_eq_true, Bool.not_eq_true] at hnot
    rw [isSetAside_of_field policy hk, hnot, hp]
    rfl

/-- **One more entry.** -/
theorem step (h : Merged policy before m)
    (ha : m.addEntry policy a.raw a.key a.value = .ok m') : Merged policy (before ++ [a]) m' := by
  have hadded := added_of_addEntry ha
  refine ⟨?_, fun key hk => ?_, fun key hk hone => ?_, ?_⟩
  · rw [hadded.keys_eq, List.map_append, List.map_singleton, eraseDups_concat, ← h.keys_eq]
    simp only [h.mem_keys]
  · by_cases hkey : a.key = key
    · subst hkey
      rw [valuesAt_concat_self, kept_concat]
      exact hadded.fieldHolds hk (h.field a.key hk)
    · rw [valuesAt_concat_of_ne _ hkey, hadded.get?_of_ne (Ne.symm hkey)]
      exact h.field key hk
  · by_cases hkey : a.key = key
    · subst hkey
      rw [valuesAt_concat_self, List.length_append, List.length_singleton] at hone
      have hfirst := h.first a.key hk fun hw => by have := hone hw; omega
      rw [valuesAt_concat_self, List.head?_append, ← hfirst]
      refine hadded.get?_first hk fun hw => ?_
      have hnil := List.length_eq_zero_iff.mp (Nat.le_zero.mp (Nat.le_of_succ_le_succ (hone hw)))
      rw [hfirst, hnil, List.head?_nil]
    · rw [valuesAt_concat_of_ne _ hkey] at hone ⊢
      rw [hadded.get?_of_ne (Ne.symm hkey)]
      exact h.first key hk hone
  · rw [h.deferred_of_added hadded, setAside_concat, List.map_append, ← h.deferred_eq]
    split <;> rfl

/-- **A run over entries.** -/
theorem receive {as : List Arrival} (h : Merged policy before m)
    (hr : m.receive policy as = .ok m') : Merged policy (before ++ as) m' := by
  induction as generalizing m before with
  | nil =>
    obtain rfl := Except.ok.inj hr
    rwa [List.append_nil]
  | cons a rest ih =>
    rw [Conjunction.receive] at hr
    obtain ⟨m₁, ha, hrest⟩ := bind_eq_ok_iff.mp hr
    have hall := ih (h.step ha) hrest
    rwa [List.append_assoc, List.singleton_append] at hall

end Merged

/-! ## The finished document -/

/-- What a value brings to the items of `$and`: its own items if it is a
list, and otherwise itself under the key. -/
def itemsOf : Option Value → List Value
  | none => []
  | some (.list items) => items
  | some other => [.document [(andKey, other)]]

theorem andItems_eq_itemsOf (doc : Document) : andItems doc = itemsOf (get? doc andKey) := by
  unfold andItems itemsOf
  cases get? doc andKey with
  | none => rfl
  | some v => cases v <;> rfl

/-- **Finishing touches `$and` alone.** -/
theorem get?_toDocument_of_ne (m : Conjunction) (hk : key ≠ andKey) :
    get? m.toDocument key = get? m.doc key := by
  by_cases hd : m.deferred = []
  · rw [toDocument_of_nil hd]
  · rw [toDocument_of_ne_nil hd, Document.get?_append, Document.get?_erase_of_ne hk]
    show (get? m.doc key).or (get? [(andKey, _)] key) = _
    rw [Document.get?_cons, if_neg hk]
    exact Option.or_none

/-- **Of the values of a logical key**, the first is kept under the key and
the others are set aside. -/
theorem valuesAt_eq (policy : CollisionPolicy) (hk : isOperatorKey key = true)
    (hw : key ≠ whereKey) (as : List Arrival) :
    valuesAt as key = (valuesAt as key).head?.toList ++ valuesAt (setAside policy as) key := by
  induction as using List.reverseRecOn with
  | nil => rfl
  | append_singleton as a ih =>
    rw [setAside_concat]
    by_cases hkey : a.key = key
    · subst hkey
      rw [isSetAside_of_operator policy hk, bne_iff_ne.mpr hw, Bool.true_and,
        valuesAt_concat_self]
      by_cases hvs : valuesAt as a.key = []
      · rw [hvs, List.head?_nil, Option.toList_none, List.nil_append] at ih
        rw [List.contains_eq_mem, decide_eq_false (valuesAt_eq_nil_iff.mp hvs), if_neg (by decide),
          List.append_nil, hvs, ← ih]
        rfl
      · have hold : a.key ∈ as.map Arrival.key :=
          Classical.not_not.mp (mt valuesAt_eq_nil_iff.mpr hvs)
        rw [List.contains_eq_mem, decide_eq_true hold, if_pos rfl, valuesAt_concat_self,
          List.head?_append_of_ne_nil _ hvs, ← List.append_assoc, ← ih]
    · rw [valuesAt_concat_of_ne _ hkey]
      split
      · rw [valuesAt_concat_of_ne _ hkey]
        exact ih
      · rw [List.append_nil]
        exact ih

namespace Merged

variable {as : List Arrival}

theorem toDocument_of_nil (h : Merged policy as m) (hs : setAside policy as = []) :
    m.toDocument = m.doc :=
  Conjunction.toDocument_of_nil (by rw [h.deferred_eq, hs]; rfl)

theorem toDocument_of_ne_nil (h : Merged policy as m) (hs : setAside policy as ≠ []) :
    m.toDocument = Document.erase m.doc andKey ++ [(andKey, .list
      (itemsOf (valuesAt as andKey).head?
        ++ (setAside policy as).map fun a => .document [(a.key, a.value)]))] := by
  have hd : m.deferred ≠ [] := by
    rw [h.deferred_eq]
    exact fun hmap => hs (List.map_eq_nil_iff.mp hmap)
  rw [Conjunction.toDocument_of_ne_nil hd, andItems_eq_itemsOf,
    h.first andKey (by decide) (fun hw => absurd hw (by decide)), h.deferred_eq, List.map_map]
  rfl

/-- What is under `$and` when something was set aside. -/
theorem get?_andKey (h : Merged policy as m) (hs : setAside policy as ≠ []) :
    get? m.toDocument andKey = some (.list (itemsOf (valuesAt as andKey).head?
      ++ (setAside policy as).map fun a => .document [(a.key, a.value)])) := by
  rw [h.toDocument_of_ne_nil hs, Document.get?_append,
    Document.get?_eq_none_iff.mpr (Document.not_mem_keys_erase m.doc andKey), Option.none_or,
    Document.get?_cons, if_pos rfl]

end Merged

/-- **Merging is local to each key.** Under a key other than `$and` stands
what a merge of its entries alone puts there, and the keys other than
`$and` are in the order of their first entries. If nothing is set aside,
`$and` is treated like them and has the one value that arrived, if any;
otherwise it is the last key, with the items of the first value that
arrived under it and behind them each entry that was set aside. -/
theorem merge_byKey {operands : List (Document × Bool)} {d : Document}
    (h : merge policy operands = .ok d) :
    (∀ key, key ≠ andKey → ∃ alone, merge policy (only key operands) = .ok alone
      ∧ get? d key = get? alone key)
    ∧ (keys d).filter (· != andKey)
      = ((arrivals operands).map Arrival.key).eraseDups.filter (· != andKey)
    ∧ (∃ m, empty.addAll policy operands = .ok m
      ∧ m.deferred = (setAside policy (arrivals operands)).map fun a => (a.key, a.value))
    ∧ (setAside policy (arrivals operands) = [] →
      keys d = ((arrivals operands).map Arrival.key).eraseDups
      ∧ valuesAt (arrivals operands) andKey = (get? d andKey).toList)
    ∧ (setAside policy (arrivals operands) ≠ [] → ∃ front, andKey ∉ keys front
      ∧ d = front ++ [(andKey, .list (itemsOf (valuesAt (arrivals operands) andKey).head?
        ++ (setAside policy (arrivals operands)).map fun a => .document [(a.key, a.value)]))]) := by
  obtain ⟨m, hr, rfl⟩ := merge_eq_ok_iff.mp h
  have hm : Merged policy (arrivals operands) m := Merged.nothing.receive hr
  refine ⟨fun key hk => ?_, ?_, ⟨m, ?_, hm.deferred_eq⟩, fun hs => ?_, fun hs => ?_⟩
  · have hsame : AgreeAt key empty empty := ⟨rfl, fun _ => rfl⟩
    obtain ⟨m', hr', hagree⟩ := hsame.receive hr
    refine ⟨m'.toDocument, merge_eq_ok_iff.mpr ⟨m', ?_, rfl⟩, ?_⟩
    · rw [arrivals_only]
      exact hr'
    · rw [get?_toDocument_of_ne m hk, get?_toDocument_of_ne m' hk, hagree.get?]
  · by_cases hs : setAside policy (arrivals operands) = []
    · rw [hm.toDocument_of_nil hs, hm.keys_eq]
    · rw [hm.toDocument_of_ne_nil hs, Document.keys_append, Document.keys_erase, hm.keys_eq,
        List.filter_append, List.filter_filter]
      simp
  · rw [addAll_eq_receive]
    exact hr
  · rw [hm.toDocument_of_nil hs, hm.keys_eq]
    refine ⟨rfl, ?_⟩
    rw [hm.first andKey (by decide) (fun hw => absurd hw (by decide))]
    have hvalues := valuesAt_eq policy (by decide : isOperatorKey andKey = true) (by decide)
      (arrivals operands)
    rwa [hs, show valuesAt [] andKey = [] from rfl, List.append_nil] at hvalues
  · exact ⟨_, Document.not_mem_keys_erase m.doc andKey, hm.toDocument_of_ne_nil hs⟩

/-- A ready-made document with an `$and` of its own, and a field that is
constrained twice. -/
theorem merge_byKey_wrapped :
    merge .andWrap [([(andKey, .list [.document [("b", .int 1)]]), ("a", .int 1)], true),
        ([("a", .int 2)], false), ([("c", .int 3)], false)]
      = .ok [("a", .int 1), ("c", .int 3),
        (andKey, .list [.document [("b", .int 1)], .document [("a", .int 2)]])]
    ∧ ∃ alone, merge .andWrap [([("a", .int 1)], true), ([("a", .int 2)], false), ([], false)]
        = .ok alone
      ∧ get? [("a", .int 1), ("c", .int 3),
          (andKey, .list [.document [("b", .int 1)], .document [("a", .int 2)]])] "a"
        = get? alone "a" := by
  refine ⟨?merged, (merge_byKey ?merged).1 "a" (by decide)⟩
  rfl

end Conjunction

end DocFilter
