import DocFilter.Value.Basic
import Mathlib.Data.List.Nodup

/-!
# How a document splits at a key

A document is a list of entries, and everything that is done to one of
its entries leaves the others where they are. The lemmas here say so in
one form: a key that is given splits the document into what stands before
it, its entry, and what stands after (`exists_split`), and each operation
is then read off the three parts.

A raw list of entries can give a key twice. `Document.under` collects
*all* the values under a key, and the two notions agree where keys are
given once (`under_eq_toList`).
-/

namespace DocFilter

namespace Document

variable {doc before after : Document} {key other : String} {value present : Value}

/-! ## Finding a key -/

/-- The keys of documents one after the other. -/
@[simp] theorem keys_append (doc more : Document) : keys (doc ++ more) = keys doc ++ keys more :=
  List.map_append

@[simp] theorem keys_cons (key : String) (value : Value) (rest : Document) :
    keys ((key, value) :: rest) = key :: keys rest := rfl

@[simp] theorem keys_nil : keys [] = [] := rfl

/-- The first entry decides about its own key, the rest about the others. -/
theorem get?_cons (doc : Document) (key other : String) (value : Value) :
    get? ((other, value) :: doc) key = if key = other then some value else get? doc key := by
  unfold get?
  rw [List.lookup_cons]
  by_cases h : key = other
  · rw [if_pos h, h, beq_self_eq_true]
  · rw [if_neg h, beq_eq_false_iff_ne.mpr h]

/-- **A key has no value exactly when it is not given.** -/
theorem get?_eq_none_iff : get? doc key = none ↔ key ∉ keys doc := by
  induction doc with
  | nil => simp [get?, keys]
  | cons e rest ih =>
    obtain ⟨k, v⟩ := e
    rw [get?_cons, keys_cons, List.mem_cons]
    by_cases h : key = k
    · simp [h]
    · rw [if_neg h, ih]
      simp [h]

/-- What stands in front is found first. -/
theorem get?_append (doc more : Document) (key : String) :
    get? (doc ++ more) key = (get? doc key).or (get? more key) :=
  List.lookup_append

/-- What is found stands under a key that is given. -/
theorem mem_keys_of_get? (h : get? doc key = some value) : key ∈ keys doc := by
  by_contra hn
  rw [get?_eq_none_iff.mpr hn] at h
  cases h

/-- **A key that is given splits the document**: its first entry stands
between entries with other keys and the rest. -/
theorem exists_split (h : get? doc key = some value) :
    ∃ before after, doc = before ++ (key, value) :: after ∧ key ∉ keys before := by
  induction doc with
  | nil => cases h
  | cons e rest ih =>
    obtain ⟨k, v⟩ := e
    rw [get?_cons] at h
    by_cases hk : key = k
    · rw [if_pos hk] at h
      obtain rfl := Option.some.inj h
      exact ⟨[], rest, by rw [hk]; rfl, by simp⟩
    · rw [if_neg hk] at h
      obtain ⟨before, after, rfl, hb⟩ := ih h
      refine ⟨(k, v) :: before, after, rfl, ?_⟩
      rw [keys_cons, List.mem_cons, not_or]
      exact ⟨hk, hb⟩

/-- What is found in a document that is split at the key. -/
theorem get?_split (h : key ∉ keys before) :
    get? (before ++ (key, value) :: after) key = some value := by
  induction before with
  | nil => rw [List.nil_append, get?_cons, if_pos rfl]
  | cons e rest ih =>
    obtain ⟨k, v⟩ := e
    rw [keys_cons, List.mem_cons, not_or] at h
    rw [List.cons_append, get?_cons, if_neg h.1, ih h.2]

/-- A document split at one key gives another key a value that does not
depend on the entry of the first. -/
theorem get?_split_of_ne (h : other ≠ key) (before after : Document) (value : Value) :
    get? (before ++ (key, value) :: after) other = get? (before ++ after) other := by
  induction before with
  | nil => rw [List.nil_append, get?_cons, if_neg h, List.nil_append]
  | cons e rest ih =>
    obtain ⟨k, v⟩ := e
    rw [List.cons_append, List.cons_append, get?_cons, get?_cons, ih]

/-! ## Giving a key a value -/

/-- A new key goes to the end. -/
theorem insert_of_not_mem (h : key ∉ keys doc) (value : Value) :
    insert doc key value = doc ++ [(key, value)] := by
  induction doc with
  | nil => rfl
  | cons e rest ih =>
    obtain ⟨k, v⟩ := e
    rw [keys_cons, List.mem_cons, not_or] at h
    rw [insert, if_neg (Ne.symm h.1), ih h.2, List.cons_append]

/-- **A known key keeps its place.** -/
theorem insert_split (h : key ∉ keys before) (value : Value) :
    insert (before ++ (key, present) :: after) key value = before ++ (key, value) :: after := by
  induction before with
  | nil => rw [List.nil_append, insert, if_pos rfl, List.nil_append]
  | cons e rest ih =>
    obtain ⟨k, v⟩ := e
    rw [keys_cons, List.mem_cons, not_or] at h
    rw [List.cons_append, insert, if_neg (Ne.symm h.1), ih h.2, List.cons_append]

/-- **Giving one key a value keeps the document split at another**, in the
same way for every value that stands there. -/
theorem insert_split_of_ne (hne : other ≠ key) (h : key ∉ keys before) (after : Document)
    (value : Value) :
    ∃ before' after', key ∉ keys before' ∧ ∀ present,
      insert (before ++ (key, present) :: after) other value
        = before' ++ (key, present) :: after' := by
  induction before with
  | nil =>
    refine ⟨[], insert after other value, h, fun present => ?_⟩
    rw [List.nil_append, insert, if_neg (Ne.symm hne), List.nil_append]
  | cons e rest ih =>
    obtain ⟨k, v⟩ := e
    rw [keys_cons, List.mem_cons, not_or] at h
    by_cases hk : k = other
    · refine ⟨(k, value) :: rest, after, ?_, fun present => ?_⟩
      · rw [keys_cons, List.mem_cons, not_or]
        exact h
      · rw [List.cons_append, insert, if_pos hk, List.cons_append]
    · obtain ⟨before', after', hb, hsplit⟩ := ih h.2
      refine ⟨(k, v) :: before', after', ?_, fun present => ?_⟩
      · rw [keys_cons, List.mem_cons, not_or]
        exact ⟨h.1, hb⟩
      · rw [List.cons_append, insert, if_neg hk, hsplit present, List.cons_append]

/-- Giving a key a value never gives it twice. -/
theorem nodup_keys_insert (h : (keys doc).Nodup) (key : String) (value : Value) :
    (keys (insert doc key value)).Nodup := by
  rw [keys_insert]
  by_cases hk : key ∈ keys doc
  · rwa [if_pos hk]
  · rw [if_neg hk, List.nodup_append]
    refine ⟨h, List.nodup_singleton key, ?_⟩
    intro a ha b hb hab
    rw [List.mem_singleton] at hb
    exact hk (hb ▸ hab ▸ ha)

theorem insert_ne_nil (doc : Document) (key : String) (value : Value) :
    insert doc key value ≠ [] := by
  cases doc with
  | nil => exact List.cons_ne_nil _ _
  | cons e rest =>
    rw [insert]
    split <;> exact List.cons_ne_nil _ _

/-- What holds of the entries and of a new one holds of them together. -/
theorem forall_mem_insert {P : String × Value → Prop} (h : ∀ e ∈ doc, P e)
    (hv : P (key, value)) : ∀ e ∈ insert doc key value, P e := by
  cases hg : get? doc key with
  | none =>
    rw [insert_of_not_mem (get?_eq_none_iff.mp hg)]
    exact List.forall_mem_append.mpr ⟨h, List.forall_mem_singleton.mpr hv⟩
  | some present =>
    obtain ⟨before, after, rfl, hb⟩ := exists_split hg
    rw [List.forall_mem_append, List.forall_mem_cons] at h
    rw [insert_split hb, List.forall_mem_append, List.forall_mem_cons]
    exact ⟨h.1, hv, h.2.2⟩

/-- **Documents that share no key are joined by standing side by side**,
as long as the second gives each of its keys once. -/
theorem append_eq_of_disjoint (doc : Document) {more : Document} (hn : (keys more).Nodup)
    (hd : ∀ k ∈ keys more, k ∉ keys doc) : append doc more = doc ++ more := by
  unfold append
  induction more generalizing doc with
  | nil => rw [List.foldl_nil, List.append_nil]
  | cons e rest ih =>
    obtain ⟨k, v⟩ := e
    rw [keys_cons, List.nodup_cons] at hn
    have hk : k ∉ keys doc := hd k List.mem_cons_self
    rw [List.foldl_cons, insert_of_not_mem hk, ih _ hn.2, List.append_assoc, List.singleton_append]
    intro k' hk' hmem
    rw [keys_append, List.mem_append] at hmem
    rcases hmem with hmem | hmem
    · exact hd k' (List.mem_cons_of_mem _ hk') hmem
    · rw [keys_cons, keys_nil, List.mem_singleton] at hmem
      exact hn.1 (hmem ▸ hk')

/-- Whether a key is given, as a matter of the keys. -/
theorem has_eq_true_iff : has doc key = true ↔ key ∈ keys doc := by
  unfold has keys
  rw [List.any_eq_true, List.mem_map]
  exact ⟨fun ⟨e, he, hk⟩ => ⟨e, he, eq_of_beq hk⟩, fun ⟨e, he, hk⟩ => ⟨e, he, beq_iff_eq.mpr hk⟩⟩

/-! ## Taking a key out -/

/-- A document that does not give a key has nothing to take out. -/
theorem erase_of_not_mem (h : key ∉ keys doc) : erase doc key = doc := by
  unfold erase
  refine List.filter_eq_self.mpr (fun e he => ?_)
  refine bne_iff_ne.mpr (fun hk => h ?_)
  exact hk ▸ List.mem_map_of_mem he

/-- **Taking a key out of a document that gives it once.** -/
theorem erase_split (hn : (keys (before ++ (key, value) :: after)).Nodup) :
    erase (before ++ (key, value) :: after) key = before ++ after := by
  rw [keys_append, keys_cons, List.nodup_middle, List.nodup_cons, List.mem_append, not_or] at hn
  have hb := erase_of_not_mem hn.1.1
  have ha := erase_of_not_mem hn.1.2
  unfold erase at hb ha ⊢
  rw [List.filter_append, List.filter_cons, hb, ha]
  simp

/-- Taking out one key leaves the entries of another. -/
theorem erase_split_of_ne (h : key ≠ other) :
    erase (before ++ (key, value) :: after) other
      = erase before other ++ (key, value) :: erase after other := by
  unfold erase
  rw [List.filter_append, List.filter_cons, if_pos (bne_iff_ne.mpr h)]

theorem erase_split_self (before after : Document) (key : String) (value : Value) :
    erase (before ++ (key, value) :: after) key = erase (before ++ after) key := by
  unfold erase
  rw [List.filter_append, List.filter_cons, if_neg (fun h => bne_iff_ne.mp h rfl),
    List.filter_append]

theorem mem_keys_of_mem_keys_erase (h : key ∈ keys (erase doc other)) : key ∈ keys doc := by
  obtain ⟨e, he, rfl⟩ := List.mem_map.mp h
  exact List.mem_map_of_mem (List.mem_filter.mp he).1

/-- What is taken out is gone. -/
theorem not_mem_keys_erase (doc : Document) (key : String) : key ∉ keys (erase doc key) := by
  intro hmem
  obtain ⟨e, he, hk⟩ := List.mem_map.mp hmem
  exact bne_iff_ne.mp (List.mem_filter.mp he).2 hk

theorem keys_erase (doc : Document) (key : String) :
    keys (erase doc key) = (keys doc).filter (· != key) := by
  unfold keys erase
  rw [List.filter_map]
  rfl

/-- Taking out one key leaves what is found under another. -/
theorem get?_erase_of_ne (h : key ≠ other) (doc : Document) :
    get? (erase doc other) key = get? doc key := by
  induction doc with
  | nil => rfl
  | cons e rest ih =>
    obtain ⟨k, v⟩ := e
    by_cases hk : k = other
    · rw [hk, get?_cons, if_neg h, ← ih]
      exact congrArg (get? · key) (erase_split_self [] rest other v)
    · have hcons : erase ((k, v) :: rest) other = (k, v) :: erase rest other :=
        @erase_split_of_ne [] rest k other v hk
      rw [hcons, get?_cons, get?_cons, ih]

/-! ## All values under a key -/

/-- **The values under a key**, in order: more than one only if the key is
given more than once. -/
def under (doc : Document) (key : String) : List Value :=
  (doc.filter fun entry => entry.1 == key).map Prod.snd

@[simp] theorem under_append (doc more : Document) (key : String) :
    under (doc ++ more) key = under doc key ++ under more key := by
  unfold under
  rw [List.filter_append, List.map_append]

@[simp] theorem under_cons_self (key : String) (value : Value) (rest : Document) :
    under ((key, value) :: rest) key = value :: under rest key := by
  unfold under
  rw [List.filter_cons, if_pos (beq_self_eq_true key), List.map_cons]

theorem under_cons_of_ne (h : other ≠ key) (value : Value) (rest : Document) :
    under ((other, value) :: rest) key = under rest key := by
  unfold under
  rw [List.filter_cons, if_neg (fun hb => h (eq_of_beq hb))]

/-- A key that is not given has no values. -/
theorem under_of_not_mem (h : key ∉ keys doc) : under doc key = [] := by
  unfold under
  rw [List.map_eq_nil_iff, List.filter_eq_nil_iff]
  intro e he hk
  exact h (eq_of_beq hk ▸ List.mem_map_of_mem he)

/-- **Where keys are given once, a key has the value that is found.** -/
theorem under_eq_toList (hn : (keys doc).Nodup) (key : String) :
    under doc key = (get? doc key).toList := by
  cases hg : get? doc key with
  | none => exact under_of_not_mem (get?_eq_none_iff.mp hg)
  | some v =>
    obtain ⟨before, after, rfl, hb⟩ := exists_split hg
    rw [keys_append, keys_cons, List.nodup_middle, List.nodup_cons, List.mem_append, not_or] at hn
    rw [under_append, under_cons_self, under_of_not_mem hb, under_of_not_mem hn.1.2]
    rfl

end Document

end DocFilter
