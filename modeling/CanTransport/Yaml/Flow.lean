import CanTransport.Yaml.Scalar
/-!
# YAML flow collections

Lists between brackets and maps between braces, in which line breaks are mere space.
-/

namespace CanTransport.Yaml

/-- What follows blanks, line breaks and comments. -/
def dropSpace (cs : List Char) : List Char :=
  let rec go : Nat → Bool → List Char → List Char
    | 0, _, cs => cs
    | fuel + 1, behindBlank, cs =>
      match cs with
      | c :: rest =>
        if isBlank c || c == '\n' then go fuel true rest
        else if c == '#' && behindBlank then go fuel true (rest.dropWhile (· != '\n'))
        else cs
      | [] => []
  go (cs.length + 1) true cs

def isFlowMark (c : Char) : Bool :=
  c == ',' || c == '[' || c == ']' || c == '\x7b' || c == '\x7d'

/-- A plain scalar inside a collection, and what follows it. -/
def flowPlain (acc : List Char) : List Char → List Char × List Char
  | [] => (trimEnd acc.reverse, [])
  | c :: rest =>
    let ends := isFlowMark c || c == '\n'
      || (c == ':' && match rest with
        | [] => true
        | d :: _ => isBlank d || d == '\n' || isFlowMark d)
      || (c == '#' && match acc with
        | [] => true
        | d :: _ => isBlank d)
    if ends then (trimEnd acc.reverse, c :: rest) else flowPlain (c :: acc) rest

/-- A plain scalar inside a collection, over several lines. -/
def flowPlainLines : Nat → List Char → List Char × List Char
  | 0, cs => ([], cs)
  | fuel + 1, cs =>
    let (line, rest) := flowPlain [] cs
    match rest with
    | '\n' :: _ =>
      let next := dropSpace rest
      if startsPlain next then
        let (more, rest) := flowPlainLines fuel next
        (line ++ ' ' :: more, rest)
      else (line, rest)
    | rest => (line, rest)

/-- A scalar as the key of an entry. -/
def flowKey? (cs : List Char) : Option (String × List Char) :=
  match cs with
  | '\x22' :: _ | '\x27' :: _ => quoted? cs
  | cs =>
    if startsPlain cs then
      let (key, rest) := flowPlainLines cs.length cs
      some (String.ofList key, rest)
    else none

mutual

/-- A value inside a collection. -/
def flowValue? : Nat → List Char → Option (Value × List Char)
  | 0, _ => none
  | fuel + 1, cs =>
    match cs with
    | '[' :: rest => do
      let (items, rest) ← flowItems? fuel rest
      return (.list items, rest)
    | '\x7b' :: rest => do
      let (entries, rest) ← flowEntries? fuel [] rest
      return (.map entries, rest)
    | '\x22' :: _ | '\x27' :: _ => (quoted? cs).map fun (s, rest) => (.str s, rest)
    | cs =>
      if startsPlain cs then
        let (s, rest) := flowPlainLines cs.length cs
        some (plain s, rest)
      else none

/-- The value behind a key; nothing stands for null. -/
def flowEntryValue? : Nat → List Char → Option (Value × List Char)
  | 0, _ => none
  | fuel + 1, cs =>
    match dropSpace cs with
    | ':' :: rest =>
      match dropSpace rest with
      | [] => none
      | c :: rest =>
        if c == ',' || c == ']' || c == '\x7d' then some (.null, c :: rest)
        else flowValue? fuel (c :: rest)
    | cs => some (.null, cs)

/-- The items of a list and its closing bracket. An item may be a single entry of a map. -/
def flowItems? : Nat → List Char → Option (List Value × List Char)
  | 0, _ => none
  | fuel + 1, cs => do
    match dropSpace cs with
    | ']' :: rest => return ([], rest)
    | cs => do
      let (first, afterFirst) ← flowValue? fuel cs
      let (v, rest) ← match dropSpace afterFirst with
        | ':' :: _ => do
          let (key, afterKey) ← flowKey? cs
          let (v, rest) ← flowEntryValue? fuel afterKey
          pure (Value.map [(key, v)], rest)
        | rest => pure (first, rest)
      match dropSpace rest with
      | ']' :: rest => return ([v], rest)
      | ',' :: rest => do
        let (vs, rest) ← flowItems? fuel rest
        return (v :: vs, rest)
      | _ => none

/-- The entries of a map behind those read before, and its closing brace. -/
def flowEntries? : Nat → List (String × Value) → List Char → Option (List (String × Value) × List Char)
  | 0, _, _ => none
  | fuel + 1, entries, cs => do
    match dropSpace cs with
    | '\x7d' :: rest => return (entries, rest)
    | cs => do
      let (key, rest) ← flowKey? cs
      let (v, rest) ← flowEntryValue? fuel rest
      let entries := Value.put key v entries
      match dropSpace rest with
      | '\x7d' :: rest => return (entries, rest)
      | ',' :: rest => flowEntries? fuel entries rest
      | _ => none

end

end CanTransport.Yaml
