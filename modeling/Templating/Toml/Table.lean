import Templating.Toml.Item

/-!
# Building tables

A document is a list of sections: a header and the pairs below it. A header or a
dotted key can name tables that do not exist yet. How a table came about decides
what may still be added to it:

* a table with a header of its own is complete, but tables may be added inside;
* a table that is only named on the way to another may still get its header;
* a table made by dotted keys grows by dotted keys alone, and never has a header;
* of an array of tables the last one stands for the array;
* a value, also an array or a table between brackets, is closed.

Main definitions: `Node`, `Section`, `Table.ofSections?` for a document, and
`Table.ofPairs?` for a table between brackets.
-/

namespace Templating
namespace Toml

section Types

/-- How a table came about. -/
inductive Origin where
  | header
  /-- Named on the way to a table with a header. -/
  | passed
  | dotted
deriving DecidableEq, Repr

/-- What a name stands for while tables are built. -/
inductive Node where
  | value (item : Item)
  | table (origin : Origin) (entries : List (String × Node))
  /-- An array of tables: those that are complete, and the last one. -/
  | tables (done : List Item) (last : List (String × Node))

/-- The entries of a table that is being built. -/
abbrev Entries := List (String × Node)

mutual

/-- The value that has been built. -/
def Node.toItem : Node → Item
  | .value item => item
  | .table _ entries => .table (entriesToTable entries)
  | .tables done last => .array (done ++ [.table (entriesToTable last)])

/-- The table that has been built. -/
def entriesToTable : List (String × Node) → List (String × Item)
  | [] => []
  | (name, node) :: rest => (name, node.toItem) :: entriesToTable rest

end

/-- A dotted key: the names on the way, and the last one. -/
structure Key where
  path : List String
  name : String
deriving DecidableEq, Repr

/-- A key and its value. -/
structure Pair where
  key : Key
  item : Item

/-- A header, and whether it adds a table to an array. -/
structure Header where
  key : Key
  isArray : Bool
deriving DecidableEq, Repr

/-- A header with the pairs below it; the first pairs have none. -/
structure Section where
  header : Option Header
  pairs : List Pair

end Types

section Pairs

/-- Adds a value under a new name. -/
def addValue (name : String) (item : Item) (entries : Entries) :
    Option Entries :=
  match Keyed.find? name entries with
  | none => some (Keyed.insert name (.value item) entries)
  | some _ => none

/-- Adds a value at the end of a dotted key. Tables on the way are made where
they are missing; the last of them must be one made by dotted keys. -/
def addAt : List String → String → Item → Entries → Option Entries
  | [], name, item, entries => addValue name item entries
  | key :: path, name, item, entries =>
      match Keyed.find? key entries with
      | none =>
          (addAt path name item []).map fun inner =>
            Keyed.insert key (.table .dotted inner) entries
      | some (.table .dotted inner) =>
          (addAt path name item inner).map fun inner =>
            Keyed.insert key (.table .dotted inner) entries
      | some (.table .passed inner) =>
          if path.isEmpty then none
          else
            (addAt path name item inner).map fun inner =>
              Keyed.insert key (.table .passed inner) entries
      | some (.tables done last) =>
          if path.isEmpty then none
          else
            (addAt path name item last).map fun last =>
              Keyed.insert key (.tables done last) entries
      | some (.table .header _) => none
      | some (.value _) => none

/-- Adds pairs one after another. -/
def addPairs : List Pair → Entries → Option Entries
  | [], entries => some entries
  | p :: rest, entries =>
      (addAt p.key.path p.key.name p.item entries).bind (addPairs rest)

end Pairs

section Headers

/-- Changes the table that a path leads to. Tables on the way are made where
they are missing; values are closed. -/
def changeAt (change : Entries → Option Entries) :
    List String → Entries → Option Entries
  | [], entries => change entries
  | key :: path, entries =>
      match Keyed.find? key entries with
      | none =>
          (changeAt change path []).map fun inner =>
            Keyed.insert key (.table .passed inner) entries
      | some (.table origin inner) =>
          (changeAt change path inner).map fun inner =>
            Keyed.insert key (.table origin inner) entries
      | some (.tables done last) =>
          (changeAt change path last).map fun last =>
            Keyed.insert key (.tables done last) entries
      | some (.value _) => none

/-- Gives a table its header. Only a new one, or one that has been passed on the
way to another, can get it. -/
def openTable (name : String) (pairs : List Pair) (entries : Entries) :
    Option Entries :=
  let start :=
    match Keyed.find? name entries with
    | none => some []
    | some (.table .passed inner) => some inner
    | some _ => none
  (start.bind (addPairs pairs)).map fun inner =>
    Keyed.insert name (.table .header inner) entries

/-- Adds a table to an array of tables. -/
def appendTable (name : String) (pairs : List Pair) (entries : Entries) :
    Option Entries :=
  let done :=
    match Keyed.find? name entries with
    | none => some []
    | some (.tables done last) => some (done ++ [.table (entriesToTable last)])
    | some _ => none
  match done, addPairs pairs [] with
  | some done, some last => some (Keyed.insert name (.tables done last) entries)
  | _, _ => none

/-- Adds a section. -/
def Section.addTo (s : Section) (entries : Entries) : Option Entries :=
  match s.header with
  | none => addPairs s.pairs entries
  | some h =>
      let change := if h.isArray then appendTable else openTable
      changeAt (change h.key.name s.pairs) h.key.path entries

/-- Adds sections one after another. -/
def addSections : List Section → Entries → Option Entries
  | [], entries => some entries
  | s :: rest, entries => (s.addTo entries).bind (addSections rest)

end Headers

section Tables

/-- The table of a document. -/
def Table.ofSections? (sections : List Section) : Option Table :=
  (addSections sections []).map entriesToTable

/-- The table between brackets. -/
def Table.ofPairs? (pairs : List Pair) : Option Table :=
  (addPairs pairs []).map entriesToTable

end Tables

end Toml
end Templating
