import DocFilter.Value.Basic

/-!
# Tables of TOML

Nothing can be given twice. A table has one header at most, and none if it
came about by a path of keys; a path of keys adds only to a table that
came about so; and a value is complete as it stands. A key may also hold a
**row** of tables, to which each header of its own kind adds one; other
headers that lead there mean the last of them. What is read is therefore
kept with its origin until the end.
-/

namespace DocFilter.Toml

/-- **How a table came about.** -/
inductive Origin where
  /-- It is on the way to a table that has a header. -/
  | implied
  /-- It has a header. -/
  | header
  /-- It is on the way to the last key of a path. -/
  | path
  deriving DecidableEq

/-- **What a key holds.** -/
inductive Item where
  /-- A value, which is complete. -/
  | value (v : Value)
  /-- A table, which can grow. -/
  | table (origin : Origin) (entries : List (String × Item))
  /-- A row of tables: the complete ones in reverse, and the last, which can
  grow. -/
  | row (complete : List Value) (last : List (String × Item))

/-- A table's entries. -/
abbrev Table := List (String × Item)

mutual

/-- The value that an item holds. -/
def Item.toValue : Item → Value
  | .value v => v
  | .table _ entries => .document (entryValues entries)
  | .row complete last => .list (complete.reverse ++ [.document (entryValues last)])

/-- The values that a table's entries hold. -/
def Item.entryValues : List (String × Item) → Document
  | [] => []
  | (key, item) :: rest => (key, toValue item) :: entryValues rest

end

namespace Table

/-- Give a key an item; a key that is there keeps its place. -/
def insert : Table → String → Item → Table
  | [], key, item => [(key, item)]
  | (k, i) :: rest, key, item =>
    if k = key then (k, item) :: rest else (k, i) :: insert rest key item

/-- Give a path of keys a value. The table that takes it must have come
about by such paths, and no table on the way may have a header. -/
def assign (table : Table) (v : Value) : List String → Option Table
  | [] => none
  | [key] => if (List.lookup key table).isSome then none else some (insert table key (.value v))
  | key :: rest =>
    match List.lookup key table with
    | none => (assign [] v rest).map fun t => insert table key (.table .path t)
    | some (.table .path t) => (assign t v rest).map fun t => insert table key (.table .path t)
    | some (.table .implied t) =>
      if rest.length = 1 then none
      else (assign t v rest).map fun t => insert table key (.table .implied t)
    | some _ => none

/-- Change the table that a path of headers leads to; tables on the way come
about as they are needed. -/
def visit (change : Table → Option Table) : List String → Table → Option Table
  | [], table => change table
  | key :: rest, table =>
    match List.lookup key table with
    | none => (visit change rest []).map fun t => insert table key (.table .implied t)
    | some (.table origin t) =>
      (visit change rest t).map fun t => insert table key (.table origin t)
    | some (.row complete last) =>
      (visit change rest last).map fun t => insert table key (.row complete t)
    | some (.value _) => none

/-- Name a table by its header, which it must not have yet. -/
def open? (key : String) (table : Table) : Option Table :=
  match List.lookup key table with
  | none => some (insert table key (.table .header []))
  | some (.table .implied t) => some (insert table key (.table .header t))
  | some _ => none

/-- Add a table to a row, which may be the first one. -/
def extend? (key : String) (table : Table) : Option Table :=
  match List.lookup key table with
  | none => some (insert table key (.row [] []))
  | some (.row complete last) =>
    some (insert table key (.row (.document (Item.entryValues last) :: complete) []))
  | some _ => none

/-- **Read a header**: the table of a path, or one more table of a row. -/
def enter (table : Table) (isRow : Bool) (path : List String) : Option Table :=
  match path.getLast? with
  | none => none
  | some key => visit (if isRow then extend? key else open? key) path.dropLast table

/-- Give a path a value inside the table that a header names. -/
def assignUnder (table : Table) (header path : List String) (v : Value) : Option Table :=
  visit (fun t => t.assign v path) header table

end Table

end DocFilter.Toml
