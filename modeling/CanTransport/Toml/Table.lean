import CanTransport.Value.Basic
/-!
# TOML tables

The tree that a text of statements builds up. A table is opened by a header, by the headers of
tables inside it, or by a key with dots; this decides by what it may be extended. Nothing is ever
set twice.
-/

namespace CanTransport.Toml

/-- By what a table was opened. -/
inductive Origin where
  /-- Its own header. -/
  | header
  /-- The header of a table inside it. -/
  | implied
  /-- A key with dots. -/
  | dotted
deriving DecidableEq, Repr

inductive Node where
  /-- A value, which cannot be extended. -/
  | leaf (value : Value)
  | table (origin : Origin) (entries : List (String × Node))
  /-- Tables under one repeated header, the last one last. -/
  | tables (items : List (List (String × Node)))
deriving Repr, Inhabited

abbrev Entries := List (String × Node)

/-- Puts an entry in its old place or behind all others. -/
def put (key : String) (node : Node) : Entries → Entries
  | [] => [(key, node)]
  | (k, n) :: rest => if k = key then (key, node) :: rest else (k, n) :: put key node rest

/-- Applies a change at the end of a path; tables that are missing are opened. With `dotted` the
path is part of a key, which may not enter a table that has a header. Of repeated tables the last
one is entered. -/
def descend (dotted : Bool) (change : Entries → Option Entries) :
    List String → Entries → Option Entries
  | [], entries => change entries
  | key :: path, entries =>
    match entries.lookup key with
    | none => do
      let inner ← descend dotted change path []
      return put key (.table (if dotted then .dotted else .implied) inner) entries
    | some (.leaf _) => none
    | some (.tables items) => do
      let inner ← descend dotted change path (items.getLastD [])
      return put key (.tables (items.dropLast ++ [inner])) entries
    | some (.table origin inner) =>
      if dotted && origin == .header then none
      else do
        let inner ← descend dotted change path inner
        return put key (.table origin inner) entries

/-- The last part of a path and the others. -/
def splitLast : List String → Option (List String × String)
  | [] => none
  | path => (path.getLast?).map fun last => (path.dropLast, last)

/-- Sets a value that was not set. -/
def setLeaf (value : Value) (key : String) (entries : Entries) : Option Entries :=
  match entries.lookup key with
  | none => some (put key (.leaf value) entries)
  | some _ => none

/-- Opens a table by its header; only a table that was merely implied may exist already. -/
def openTable (key : String) (entries : Entries) : Option Entries :=
  match entries.lookup key with
  | none => some (put key (.table .header []) entries)
  | some (.table .implied inner) => some (put key (.table .header inner) entries)
  | some _ => none

/-- Opens one more table of a repeated header. -/
def addTable (key : String) (entries : Entries) : Option Entries :=
  match entries.lookup key with
  | none => some (put key (.tables [[]]) entries)
  | some (.tables items) => some (put key (.tables (items ++ [[]])) entries)
  | some _ => none

/-- Applies a change to the entry of a path. -/
def atPath (dotted : Bool) (change : String → Entries → Option Entries) (path : List String)
    (entries : Entries) : Option Entries := do
  let (path, last) ← splitLast path
  descend dotted (change last) path entries

mutual

/-- The value of a tree. -/
def Node.toValue : Node → Value
  | .leaf v => v
  | .table _ entries => .map (entriesValue entries)
  | .tables items => .list (itemsValue items)

def entriesValue : List (String × Node) → List (String × Value)
  | [] => []
  | (key, node) :: rest => (key, node.toValue) :: entriesValue rest

def itemsValue : List (List (String × Node)) → List Value
  | [] => []
  | entries :: rest => .map (entriesValue entries) :: itemsValue rest

end

end CanTransport.Toml
