import DocFilter.Decimal.Double

/-!
# Values and documents

Filters are made of **values**: the scalars, lists of values, and
documents. A **document** is a list of entries, a key with a value each,
in the order in which the keys were first given; that order is part of
what a filter says and of what is printed.

Documents built here give each key once. `Document.insert` keeps it so:
a key that is already there keeps its place and takes the new value.
-/

namespace DocFilter

open Decimal (Double)

/-- **A value of a filter document.** -/
inductive Value where
  /-- No value. -/
  | null
  /-- A truth value. -/
  | bool (b : Bool)
  /-- A whole number. -/
  | int (n : Int)
  /-- A double. -/
  | float (d : Double)
  /-- A text. -/
  | text (s : String)
  /-- A list of values. -/
  | list (items : List Value)
  /-- A document: its entries in order. -/
  | document (entries : List (String × Value))

/-- **A document**: entries in the order of their keys' first mention. -/
abbrev Document := List (String × Value)

namespace Document

/-- The document of one entry. -/
def single (key : String) (value : Value) : Document :=
  [(key, value)]

/-- The keys, in order. -/
def keys (doc : Document) : List String :=
  doc.map Prod.fst

/-- The value under a key. -/
def get? (doc : Document) (key : String) : Option Value :=
  List.lookup key doc

/-- Whether a key is given. -/
def has (doc : Document) (key : String) : Bool :=
  doc.any fun entry => entry.1 == key

/-- **Give a key a value.** A key that is there keeps its place; a new one
goes to the end. -/
def insert : Document → String → Value → Document
  | [], key, value => [(key, value)]
  | (k, v) :: rest, key, value =>
    if k = key then (k, value) :: rest else (k, v) :: insert rest key value

/-- The document without a key, the other entries in their order. -/
def erase (doc : Document) (key : String) : Document :=
  doc.filter fun entry => entry.1 != key

/-- The entries of the second document given to the first, one by one. -/
def append (doc more : Document) : Document :=
  more.foldl (fun d entry => insert d entry.1 entry.2) doc

/-! ## What an insertion changes -/

/-- The inserted value is found under its key. -/
theorem get?_insert_self (doc : Document) (key : String) (value : Value) :
    get? (insert doc key value) key = some value := by
  induction doc with
  | nil => simp [insert, get?]
  | cons e rest ih =>
    obtain ⟨k, v⟩ := e
    by_cases h : k = key
    · simp [insert, get?, h]
    · have hb : (key == k) = false := by simp [Ne.symm h]
      simp only [get?] at ih
      simp [insert, get?, h, List.lookup_cons, hb, ih]

/-- Every other key keeps its value. -/
theorem get?_insert_of_ne (doc : Document) {key other : String} (value : Value)
    (h : other ≠ key) : get? (insert doc key value) other = get? doc other := by
  induction doc with
  | nil =>
    have hb : (other == key) = false := by simp [h]
    simp [insert, get?, List.lookup_cons, hb]
  | cons e rest ih =>
    obtain ⟨k, v⟩ := e
    by_cases hk : k = key
    · have hb : (other == key) = false := by simp [h]
      simp [insert, get?, hk, List.lookup_cons, hb]
    · simp only [get?] at ih
      by_cases ho : other = k
      · simp [insert, get?, hk, ho]
      · have hb : (other == k) = false := by simp [ho]
        simp [insert, get?, hk, List.lookup_cons, hb, ih]

/-- **A known key keeps its place, a new one goes to the end.** -/
theorem keys_insert (doc : Document) (key : String) (value : Value) :
    keys (insert doc key value) = if key ∈ keys doc then keys doc else keys doc ++ [key] := by
  induction doc with
  | nil => simp [insert, keys]
  | cons e rest ih =>
    obtain ⟨k, v⟩ := e
    by_cases hk : k = key
    · simp [insert, keys, hk]
    · simp only [keys] at ih
      have hne : key ≠ k := fun h => hk h.symm
      by_cases hm : key ∈ rest.map Prod.fst
      · simp only [insert, hk, if_false, keys, List.map_cons, ih, hm, if_true,
          List.mem_cons, hne, false_or]
      · simp only [insert, hk, if_false, keys, List.map_cons, ih, hm,
          List.mem_cons, hne, or_self, List.cons_append]

end Document

end DocFilter
