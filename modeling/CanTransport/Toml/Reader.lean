import CanTransport.Toml.Scalar
import CanTransport.Toml.Table
/-!
# Reading TOML

A text is a sequence of statements on lines of their own: a header opens a table, and a key sets a
value in the table opened last.
-/

namespace CanTransport.Toml

open Text (isControl)

/-- What follows a comment, if there is one. -/
def dropComment? (cs : List Char) : Option (List Char) :=
  match cs with
  | '#' :: rest =>
    let comment := rest.takeWhile fun c => c != '\n' && c != '\r'
    if comment.any isControl then none else some (rest.dropWhile fun c => c != '\n' && c != '\r')
  | cs => some cs

/-- What follows blanks, comments and line ends. -/
def dropSpace? : Nat → List Char → Option (List Char)
  | 0, cs => some cs
  | fuel + 1, cs => do
    let cs ← dropComment? (dropBlanks cs)
    match newline? cs with
    | some rest => dropSpace? fuel rest
    | none => return cs

/-- What follows the end of a statement's line. -/
def endLine? (cs : List Char) : Option (List Char) := do
  let cs ← dropComment? (dropBlanks cs)
  if cs.isEmpty then return [] else newline? cs

mutual

/-- A value. -/
def value? : Nat → List Char → Option (Value × List Char)
  | 0, _ => none
  | fuel + 1, cs =>
    match cs with
    | '\"' :: _ | '\'' :: _ => (string? cs).map fun (s, rest) => (.str s, rest)
    | '[' :: rest => do
      let (items, rest) ← items? fuel rest
      return (.list items, rest)
    | '\x7b' :: rest =>
      match dropBlanks rest with
      | '\x7d' :: rest => some (.map [], rest)
      | rest => do
        let (entries, rest) ← fields? fuel [] rest
        return (.map (entriesValue entries), rest)
    | cs =>
      let (word, rest) := takeWord cs
      (word? word).map fun v => (v, rest)

/-- The items of a list and its closing bracket. -/
def items? : Nat → List Char → Option (List Value × List Char)
  | 0, _ => none
  | fuel + 1, cs => do
    match ← dropSpace? cs.length cs with
    | ']' :: rest => return ([], rest)
    | cs => do
      let (v, rest) ← value? fuel cs
      match ← dropSpace? rest.length rest with
      | ']' :: rest => return ([v], rest)
      | ',' :: rest => do
        let (vs, rest) ← items? fuel rest
        return (v :: vs, rest)
      | _ => none

/-- The entries of a table on one line, behind those read before, and its closing brace. -/
def fields? : Nat → Entries → List Char → Option (Entries × List Char)
  | 0, _, _ => none
  | fuel + 1, entries, cs => do
    let (key, rest) ← key? cs.length cs
    let (v, rest) ← value? fuel (dropBlanks (← expect? '=' rest))
    let entries ← atPath true (setLeaf v) key entries
    match dropBlanks rest with
    | '\x7d' :: rest => return (entries, rest)
    | ',' :: rest => fields? fuel entries rest
    | _ => none

end

/-- The path in a header, up to its closing brackets. -/
def header? (closing : List Char) (cs : List Char) : Option (List String × List Char) := do
  let (path, rest) ← key? cs.length cs
  if closing.isPrefixOf rest then return (path, rest.drop closing.length) else none

/-- The statements of a text, behind those that made the tree and opened the table at `path`. -/
def statements? : Nat → List String → Entries → List Char → Option Entries
  | 0, _, root, _ => some root
  | fuel + 1, path, root, cs => do
    match ← dropSpace? cs.length cs with
    | [] => return root
    | '[' :: '[' :: rest => do
      let (path, rest) ← header? [']', ']'] rest
      statements? fuel path (← atPath false addTable path root) (← endLine? rest)
    | '[' :: rest => do
      let (path, rest) ← header? [']'] rest
      statements? fuel path (← atPath false openTable path root) (← endLine? rest)
    | cs => do
      let (key, rest) ← key? cs.length cs
      let (v, rest) ← value? rest.length (dropBlanks (← expect? '=' rest))
      let root ← descend false (atPath true (setLeaf v) key) path root
      statements? fuel path root (← endLine? rest)

/-- Reads a text into a map. -/
def read? (text : String) : Option Value :=
  let cs := match text.toList with
    | '\ufeff' :: rest => rest
    | cs => cs
  (statements? (cs.length + 1) [] [] cs).map fun entries => .map (entriesValue entries)

end CanTransport.Toml
