import DocFilter.Proofs.Translation

/-!
# Code with and without its parentheses

Code that came with a ready-made document is put in parentheses before it
is joined; code that is not known to be raw is put in parentheses only if
two bars stand side by side in it. Two merges can therefore differ in a
pair of parentheses and in nothing else.

The relation `Apart` is what such a difference looks like in a document:
*one* entry differs, the code under `$where` or, once the document went
into a group, the list under a logical key. What follows a difference is
the same on both sides, and it never heals: a merge, an `$and` and an
`$or` keep the documents apart, and fail on both sides or on neither.
-/

namespace DocFilter

open Document (get? keys under)

/-! ## Joined code -/

/-- Whether two bars stand side by side in code. -/
def hasBars (code : String) : Bool :=
  Text.occurs ['|', '|'] code.toList

/-- **Bars side by side are not torn apart by another character.** -/
theorem occurs_bars_append_cons {c : Char} (hc : c ≠ '|') (l r : List Char) :
    Text.occurs ['|', '|'] (l ++ c :: r)
      = (Text.occurs ['|', '|'] l || Text.occurs ['|', '|'] r) := by
  have hb : ('|' == c) = false := beq_eq_false_iff_ne.mpr (Ne.symm hc)
  induction l with
  | nil =>
    show (['|', '|'].isPrefixOf (c :: r) || Text.occurs ['|', '|'] r) = _
    rw [List.isPrefixOf_cons_cons, hb, Bool.false_and]
    rfl
  | cons a l ih =>
    rw [List.cons_append, Text.occurs, Text.occurs, ih, Bool.or_assoc]
    cases l with
    | nil => simp [List.isPrefixOf, hb]
    | cons b l => simp [List.isPrefixOf]

/-- Parentheses add no bars. -/
theorem hasBars_guarded (code : String) (raw : Bool) :
    hasBars (guarded code raw) = hasBars code := by
  unfold guarded
  split
  · unfold hasBars
    rw [String.toList_append, String.toList_append]
    show Text.occurs ['|', '|'] ('(' :: code.toList ++ [')']) = _
    rw [occurs_bars_append_cons (by decide)]
    have hopen := occurs_bars_append_cons (c := '(') (by decide) [] code.toList
    rw [List.nil_append] at hopen
    rw [hopen]
    simp [Text.occurs]
  · rfl

/-- Nor does joining. -/
theorem hasBars_join (l r : String) : hasBars (l ++ " && " ++ r) = (hasBars l || hasBars r) := by
  unfold hasBars
  have hcode : (l ++ " && " ++ r).toList
      = (l.toList ++ ' ' :: '&' :: ['&']) ++ ' ' :: r.toList := by
    simp
  have hmarks : Text.occurs ['|', '|'] ['&', '&'] = false := by decide
  rw [hcode, occurs_bars_append_cons (by decide), occurs_bars_append_cons (by decide), hmarks,
    Bool.or_false]

/-- A word is found at the start of a text or runs into a character that
it does not have. -/
theorem isPrefixOf_append_cons {word : List Char} {c : Char} (hc : c ∉ word) (cs rest : List Char) :
    word.isPrefixOf (cs ++ c :: rest) = word.isPrefixOf cs := by
  induction word generalizing cs with
  | nil => cases cs <;> rfl
  | cons w word ih =>
    rw [List.mem_cons, not_or] at hc
    cases cs with
    | nil =>
      rw [List.nil_append, List.isPrefixOf_cons_cons, beq_eq_false_iff_ne.mpr (Ne.symm hc.1),
        Bool.false_and]
      rfl
    | cons d cs =>
      rw [List.cons_append, List.isPrefixOf_cons_cons, List.isPrefixOf_cons_cons, ih hc.2]

/-- **Code that is joined on does not make a function of code.** -/
theorem isFunctionText_join (l r : String) :
    isFunctionText (l ++ " && " ++ r) = isFunctionText l := by
  have hcode : (l ++ " && " ++ r).toList = l.toList ++ ' ' :: '&' :: '&' :: ' ' :: r.toList := by
    simp
  unfold isFunctionText Text.trimStart
  rw [hcode, List.dropWhile_append]
  generalize l.toList.dropWhile Text.isBlank = cs
  cases cs with
  | nil =>
    have hblank : (' ' :: '&' :: '&' :: ' ' :: r.toList).dropWhile Text.isBlank
        = '&' :: '&' :: ' ' :: r.toList := by
      rw [List.dropWhile_cons, if_pos (by decide), List.dropWhile_cons, if_neg (by decide)]
    simp [hblank, List.isPrefixOf]
  | cons c cs =>
    rw [if_neg (by simp)]
    dsimp only
    rw [isPrefixOf_append_cons (by decide)]
    cases hp : ("function".toList).isPrefixOf (c :: cs) with
    | false => rfl
    | true =>
      -- what follows the word is a blank, or what followed it before
      obtain ⟨more, hmore⟩ := List.isPrefixOf_iff_prefix.mp hp
      rw [← hmore, List.append_assoc, List.drop_left, List.drop_left]
      cases more with
      | nil =>
        have hblank : (Text.isAlphanumeric ' ' || ' ' == '_' || ' ' == '$') = false := by
          decide +kernel
        rw [List.nil_append, List.head?_cons, Option.any_some, hblank]
        rfl
      | cons d more => rfl

/-- Nor is code in parentheses one. -/
theorem isFunctionText_guarded_join {l : String} (h : isFunctionText l = false) (raw : Bool)
    (r : String) : isFunctionText (guarded l raw ++ " && " ++ r) = false := by
  rw [isFunctionText_join]
  unfold guarded
  split
  · unfold isFunctionText Text.trimStart
    have hcode : ("(" ++ l ++ ")").toList = '(' :: (l.toList ++ [')']) := by simp
    rw [hcode, List.dropWhile_cons, if_neg (by decide)]
    rfl
  · exact h

/-- Parentheses are two characters. -/
theorem length_guarded (code : String) (raw : Bool) :
    (guarded code raw).length = code.length + if raw || hasBars code then 2 else 0 := by
  show (if raw || hasBars code then "(" ++ code ++ ")" else code).length = _
  split
  · rw [String.length_append, String.length_append]
    show 1 + code.length + 1 = _
    omega
  · rfl

/-- Raw code is not the shorter one. -/
theorem length_guarded_le {raw raw' : Bool} (h : raw' = raw ∨ raw = true ∧ raw' = false)
    (code : String) : (guarded code raw').length ≤ (guarded code raw).length := by
  rw [length_guarded, length_guarded]
  rcases h with rfl | ⟨rfl, rfl⟩
  · exact Nat.le_refl _
  · rw [Bool.true_or, if_pos rfl]
    split <;> omega

/-! ## One entry apart -/

/-- **Values of a key that differ in parentheses**, deep down: the code
itself, the longer of which has them, or the lists of a logical key. -/
inductive Value.Apart : String → Value → Value → Prop where
  /-- Code that can be joined, and that is guarded alike. -/
  | code {t t' : String} (hf : isFunctionText t = false) (hf' : isFunctionText t' = false)
    (hb : hasBars t = hasBars t') (hlt : t'.length < t.length) :
    Apart whereKey (.text t) (.text t')
  /-- Lists under a logical key. -/
  | items {key : String} {items items' : List Value} (hk : isOperatorKey key = true)
    (hw : key ≠ whereKey) (hne : items ≠ items') : Apart key (.list items) (.list items')

/-- Such values do differ. -/
theorem Value.Apart.ne {key : String} {v v' : Value} (h : Value.Apart key v v') : v ≠ v' := by
  cases h with
  | code _ _ _ hlt =>
    intro heq
    obtain rfl := Value.text.inj heq
    exact Nat.lt_irrefl _ hlt
  | items _ _ hne => exact fun heq => hne (Value.list.inj heq)

/-- Under a key that is not the key of code these are lists. -/
theorem Value.Apart.exists_items {key : String} {v v' : Value} (h : Value.Apart key v v')
    (hk : key ≠ whereKey) :
    ∃ items items', v = .list items ∧ v' = .list items' ∧ items ≠ items' := by
  cases h with
  | code _ _ _ _ => exact absurd rfl hk
  | items _ _ hne => exact ⟨_, _, rfl, rfl, hne⟩

/-- **Documents that differ in the value of one key.** -/
inductive Document.Apart (key : String) : Document → Document → Prop where
  /-- What stands before and after the key is the same. -/
  | entry {before : Document} {v v' : Value} (hb : key ∉ keys before) (hv : Value.Apart key v v')
    (after : Document) : Apart key (before ++ (key, v) :: after) (before ++ (key, v') :: after)

/-- Such documents do differ. -/
theorem Document.Apart.ne {key : String} {d d' : Document} (h : Document.Apart key d d') :
    d ≠ d' := by
  cases h with
  | entry hb hv after =>
    intro heq
    rw [List.append_right_inj, List.cons.injEq, Prod.mk.injEq] at heq
    exact hv.ne heq.1.2

namespace Conjunction

/-- **Conjunctions that differ in one entry**, of the document or among
those set aside. -/
inductive Apart (key : String) : Conjunction → Conjunction → Prop where
  /-- The documents differ. -/
  | doc {d d' : Document} (h : Document.Apart key d d') (deferred : List (String × Value))
    (raw : Bool) : Apart key ⟨d, deferred, raw⟩ ⟨d', deferred, raw⟩
  /-- What was set aside differs. -/
  | deferred {v v' : Value} (hk : key ≠ whereKey) (hv : Value.Apart key v v') (doc : Document)
    (before after : List (String × Value)) (raw : Bool) :
    Apart key ⟨doc, before ++ (key, v) :: after, raw⟩ ⟨doc, before ++ (key, v') :: after, raw⟩

variable {policy : CollisionPolicy} {raw raw' : Bool} {m m' : Conjunction} {key k : String}
  {value v v' : Value}

/-- **Joining keeps code apart** as long as one side is longer. -/
theorem joinWhere_apart {l l' r r' : String} {g g' : Bool}
    (hl : isFunctionText l = isFunctionText l') (hbl : hasBars l = hasBars l')
    (hr : isFunctionText r = isFunctionText r') (hbr : hasBars r = hasBars r')
    (hlt : (guarded l' g').length + (guarded r' raw').length
      < (guarded l g).length + (guarded r raw).length) :
    Outcomes (fun code code' => Value.Apart whereKey (.text code) (.text code'))
      (joinWhere (.text l) (.text r) g raw) (joinWhere (.text l') (.text r') g' raw') := by
  show Outcomes _
    (if isFunctionText l || isFunctionText r then .error FilterError.whereConflict else _)
    (if isFunctionText l' || isFunctionText r' then .error FilterError.whereConflict else _)
  rw [hl, hr]
  cases hl' : isFunctionText l' with
  | true => exact .error _
  | false =>
    cases isFunctionText r' with
    | true => exact .error _
    | false =>
      refine .ok (.code ?_ ?_ ?_ ?_)
      · exact isFunctionText_guarded_join (hl.trans hl') g _
      · exact isFunctionText_guarded_join hl' g' _
      · rw [hasBars_join, hasBars_join, hasBars_guarded, hasBars_guarded, hasBars_guarded,
          hasBars_guarded, hbl, hbr]
      · rw [String.length_append, String.length_append, String.length_append, String.length_append]
        omega

/-- Code that is apart leaves what it is put into apart. -/
theorem apart_put {present : Value} {code code' : String} (hg : get? m.doc whereKey = some present)
    (h : Value.Apart whereKey (.text code) (.text code')) :
    Apart whereKey { m.put whereKey (.text code) with rawWhere := false }
      { m.put whereKey (.text code') with rawWhere := false } := by
  obtain ⟨before, after, hdoc, hb⟩ := Document.exists_split hg
  show Apart whereKey ⟨Document.insert m.doc whereKey (.text code), m.deferred, false⟩
    ⟨Document.insert m.doc whereKey (.text code'), m.deferred, false⟩
  rw [hdoc, Document.insert_split hb, Document.insert_split hb]
  exact .doc (.entry hb h after) m.deferred false

/-- An entry that is not code is not raw. -/
theorem addEntry_raw (hk : key ≠ whereKey) (raw raw' : Bool) (m : Conjunction) (value : Value) :
    m.addEntry policy raw key value = m.addEntry policy raw' key value := by
  cases hg : get? m.doc key with
  | none => rw [addEntry_of_none hg, addEntry_of_none hg, if_neg hk, if_neg hk]
  | some present =>
    by_cases ho : isOperatorKey key = true
    · rw [addEntry_of_operator hg hk ho, addEntry_of_operator hg hk ho]
    · rw [Bool.not_eq_true] at ho
      rw [addEntry_of_field hg ho, addEntry_of_field hg ho]

namespace Apart

/-- What is raw is no part of the difference. -/
theorem rawWhere_eq (h : Apart k m m') : m.rawWhere = m'.rawWhere := by
  cases h with
  | doc _ _ _ => rfl
  | deferred _ _ _ _ _ _ => rfl

theorem withRaw (h : Apart k m m') (raw : Bool) :
    Apart k { m with rawWhere := raw } { m' with rawWhere := raw } := by
  cases h with
  | doc hd deferred _ => exact .doc hd deferred raw
  | deferred hk hv doc before after _ => exact .deferred hk hv doc before after raw

/-- What is set aside later is the same on both sides. -/
theorem defer (h : Apart k m m') (key : String) (value : Value) :
    Apart k (m.defer key value) (m'.defer key value) := by
  cases h with
  | doc hd deferred raw => exact .doc hd _ raw
  | deferred hk hv doc before after raw =>
    show Apart k ⟨doc, (before ++ (k, _) :: after) ++ [(key, value)], raw⟩
      ⟨doc, (before ++ (k, _) :: after) ++ [(key, value)], raw⟩
    rw [List.append_assoc, List.append_assoc, List.cons_append, List.cons_append]
    exact .deferred hk hv doc before _ raw

/-- **An entry that finds the same on both sides** does the same on both. -/
theorem addEntry_same (h : Apart k m m') (hg : get? m.doc key = get? m'.doc key)
    (hput : ∀ value, Apart k (m.put key value) (m'.put key value)) :
    Outcomes (Apart k) (m.addEntry policy raw key value) (m'.addEntry policy raw key value) := by
  cases hg' : get? m'.doc key with
  | none =>
    rw [addEntry_of_none (hg.trans hg'), addEntry_of_none hg', h.rawWhere_eq]
    exact .ok ((hput value).withRaw _)
  | some present =>
    by_cases hw : key = whereKey
    · subst hw
      rw [addEntry_of_where (hg.trans hg'), addEntry_of_where hg', h.rawWhere_eq]
      cases joinWhere present value m'.rawWhere raw with
      | error e => exact .error e
      | ok code => exact .ok ((hput (.text code)).withRaw false)
    · by_cases hk : isOperatorKey key = true
      · rw [addEntry_of_operator (hg.trans hg') hw hk, addEntry_of_operator hg' hw hk]
        exact .ok (h.defer key value)
      · rw [Bool.not_eq_true] at hk
        rw [addEntry_of_field (hg.trans hg') hk, addEntry_of_field hg' hk]
        unfold constrainAgain
        cases Value.uniteOperators? present value with
        | some both => exact .ok (hput both)
        | none =>
          cases policy with
          | lastWins => exact .ok (hput value)
          | reject => exact .error _
          | andWrap => exact .ok (h.defer key value)

/-- **An entry keeps conjunctions apart**, also if it is raw on the longer
side only, as long as the difference is in the code already. -/
theorem addEntry (h : Apart k m m')
    (hraw : raw' = raw ∨ k = whereKey ∧ raw = true ∧ raw' = false) (key : String) (value : Value) :
    Outcomes (Apart k) (m.addEntry policy raw key value) (m'.addEntry policy raw' key value) := by
  have hsame : key = whereKey → k ≠ whereKey → raw' = raw := by
    intro _ hk
    exact hraw.resolve_right (fun h => hk h.1)
  cases h with
  | doc hd deferred r =>
    cases hd with
    | @entry before v v' hb hv after =>
      by_cases hkey : key = k
      · -- the entry meets the difference: code joins it, anything else is set aside
        subst hkey
        have hg : ∀ v, get? (before ++ (key, v) :: after) key = some v :=
          fun v => Document.get?_split hb
        cases hv with
        | @code t t' hf hf' hbars hlt =>
          rw [addEntry_of_where (hg _), addEntry_of_where (hg _)]
          cases value with
          | text r' =>
            refine (joinWhere_apart (hf.trans hf'.symm) hbars rfl rfl ?_).map (fun c c' hc => ?_)
            · have hle := length_guarded_le (hraw.imp id And.right) r'
              rw [length_guarded t, length_guarded t', hbars]
              dsimp only
              omega
            · show Apart whereKey
                ⟨Document.insert (before ++ (whereKey, .text t) :: after) whereKey (.text c),
                  deferred, false⟩
                ⟨Document.insert (before ++ (whereKey, .text t') :: after) whereKey (.text c'),
                  deferred, false⟩
              rw [Document.insert_split hb, Document.insert_split hb]
              exact .doc (.entry hb hc after) deferred false
          | _ => exact .error _
        | items hk hw hne =>
          rw [addEntry_of_operator (hg _) hw hk, addEntry_of_operator (hg _) hw hk]
          exact .ok (.doc (.entry hb (.items hk hw hne) after) _ r)
      · -- it passes by: what it finds and where it goes is the same on both sides
        have happly : ∀ raw, Outcomes (Apart k)
            (Conjunction.addEntry policy raw ⟨before ++ (k, v) :: after, deferred, r⟩ key value)
            (Conjunction.addEntry policy raw ⟨before ++ (k, v') :: after, deferred, r⟩ key
              value) := by
          intro raw
          refine addEntry_same (.doc (.entry hb hv after) deferred r) ?_ (fun value => ?_)
          · show get? (before ++ (k, v) :: after) key = get? (before ++ (k, v') :: after) key
            rw [Document.get?_split_of_ne hkey, Document.get?_split_of_ne hkey]
          · obtain ⟨before', after', hb', hins⟩ :=
              Document.insert_split_of_ne hkey hb after value
            show Apart k ⟨Document.insert (before ++ (k, v) :: after) key value, deferred, r⟩
              ⟨Document.insert (before ++ (k, v') :: after) key value, deferred, r⟩
            rw [hins v, hins v']
            exact .doc (.entry hb' hv after') deferred r
        by_cases hw : key = whereKey
        · rw [hsame hw (fun hk => hkey (hw.trans hk.symm))]
          exact happly raw
        · rw [addEntry_raw hw raw' raw]
          exact happly raw
  | deferred hk hv doc before after r =>
    rw [hraw.resolve_right (fun h => hk h.1)]
    exact addEntry_same (.deferred hk hv doc before after r) rfl
      (fun value => .deferred hk hv _ before after r)

/-- **So does a document.** -/
theorem addDocument (h : Apart k m m') (doc : Document) :
    Outcomes (Apart k) (m.addDocument policy raw doc) (m'.addDocument policy raw doc) := by
  induction doc generalizing m m' with
  | nil => exact .ok h
  | cons e rest ih =>
    obtain ⟨key, value⟩ := e
    rw [addDocument_cons, addDocument_cons]
    exact (h.addEntry (.inl rfl) key value).bind (fun _ _ h₁ => ih h₁)

/-- **The finished documents are apart**, perhaps in the items of an
`$and`. -/
theorem toDocument (h : Apart k m m') : ∃ key, Document.Apart key m.toDocument m'.toDocument := by
  -- items of `$and` that differ are the last entry of documents that are otherwise the same
  have hitems : ∀ (doc : Document) {items items' : List Value}, items ≠ items' →
      Document.Apart andKey (Document.erase doc andKey ++ Document.single andKey (.list items))
        (Document.erase doc andKey ++ Document.single andKey (.list items')) := by
    intro doc items items' hne
    exact .entry (Document.not_mem_keys_erase doc andKey) (.items (by decide) (by decide) hne) []
  cases h with
  | doc hd deferred raw =>
    by_cases hdef : deferred = []
    · rw [toDocument_of_nil hdef, toDocument_of_nil hdef]
      exact ⟨k, hd⟩
    · rw [toDocument_of_ne_nil hdef, toDocument_of_ne_nil hdef]
      dsimp only
      cases hd with
      | @entry before v v' hb hv after =>
        by_cases hk : k = andKey
        · obtain ⟨xs, xs', rfl, rfl, hne⟩ := hv.exists_items (by rw [hk]; decide)
          rw [hk] at hb ⊢
          rw [Document.erase_split_self, Document.erase_split_self]
          unfold andItems
          rw [Document.get?_split hb, Document.get?_split hb]
          refine ⟨andKey, hitems _ (fun heq => hne ?_)⟩
          exact List.append_cancel_right heq
        · have hand : andItems (before ++ (k, v) :: after)
              = andItems (before ++ (k, v') :: after) := by
            unfold andItems
            rw [Document.get?_split_of_ne (Ne.symm hk), Document.get?_split_of_ne (Ne.symm hk)]
          rw [Document.erase_split_of_ne hk, Document.erase_split_of_ne hk, hand, List.append_assoc,
            List.append_assoc, List.cons_append, List.cons_append]
          refine ⟨k, .entry (fun hmem => hb ?_) hv _⟩
          exact Document.mem_keys_of_mem_keys_erase hmem
  | @deferred v v' hk hv doc before after raw =>
    rw [toDocument_of_ne_nil (by simp), toDocument_of_ne_nil (by simp)]
    refine ⟨andKey, hitems doc (fun heq => hv.ne ?_)⟩
    rw [List.append_right_inj, List.map_append, List.map_append, List.append_right_inj,
      List.map_cons, List.map_cons, List.cons.injEq] at heq
    exact (Prod.mk.inj (List.cons.inj (Value.document.inj heq.1)).1).2

end Apart

/-! ## Where a difference comes from -/

/-- **Values that are apart leave a conjunction apart.** -/
theorem addEntry_apart (hv : Value.Apart k v v') (m : Conjunction) :
    Outcomes (Apart k) (m.addEntry policy raw k v) (m.addEntry policy raw k v') := by
  cases hg : get? m.doc k with
  | none =>
    have hk : k ∉ keys m.doc := Document.get?_eq_none_iff.mp hg
    rw [addEntry_of_none hg, addEntry_of_none hg]
    show Outcomes (Apart k) (.ok ⟨Document.insert m.doc k v, m.deferred, _⟩)
      (.ok ⟨Document.insert m.doc k v', m.deferred, _⟩)
    rw [Document.insert_of_not_mem hk, Document.insert_of_not_mem hk]
    exact .ok (.doc (.entry hk hv []) _ _)
  | some present =>
    cases hv with
    | code hf hf' hbars hlt =>
      rw [addEntry_of_where hg, addEntry_of_where hg]
      cases present with
      | text l =>
        refine (joinWhere_apart rfl rfl (hf.trans hf'.symm) hbars ?_).map (fun c c' hc => ?_)
        · rw [length_guarded _ raw, length_guarded _ raw, hbars]
          omega
        · exact apart_put hg hc
      | _ => exact .error _
    | items hk hw hne =>
      rw [addEntry_of_operator hg hw hk, addEntry_of_operator hg hw hk]
      exact .ok (.deferred hw (.items hk hw hne) m.doc m.deferred [] m.rawWhere)

/-- **So do documents.** -/
theorem addDocument_apart {doc doc' : Document} (h : Document.Apart k doc doc') (m : Conjunction) :
    Outcomes (Apart k) (m.addDocument policy raw doc) (m.addDocument policy raw doc') := by
  cases h with
  | @entry before v v' hb hv after =>
    clear hb
    -- up to the key the runs are one
    induction before generalizing m with
    | nil =>
      rw [List.nil_append, List.nil_append, addDocument_cons, addDocument_cons]
      exact (addEntry_apart hv m).bind (fun _ _ h₁ => h₁.addDocument after)
    | cons e rest ih =>
      rw [List.cons_append, List.cons_append, addDocument_cons, addDocument_cons]
      exact .bind_same (fun m₁ _ => ih m₁)

end Conjunction

end DocFilter
