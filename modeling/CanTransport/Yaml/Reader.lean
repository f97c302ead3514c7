import CanTransport.Yaml.Flow
/-!
# Reading YAML

One document, line by line. Indentation nests maps and lists; a value is on the line of its key, or
on further lines that are indented more. Anchors, aliases, tags and keys behind a question mark are
not read.
-/

namespace CanTransport.Yaml

/-- A line: the blanks in front, and the rest of it. -/
structure Line where
  indent : Nat
  text : List Char
deriving Repr, Inhabited

/-- The lines of a text without their breaks. -/
def splitLines : List Char → List (List Char)
  | [] => [[]]
  | c :: rest =>
    if c == '\n' then [] :: splitLines rest
    else
      match splitLines rest with
      | [] => [[c]]
      | line :: lines => (c :: line) :: lines

def Line.ofChars (cs : List Char) : Line :=
  { indent := (cs.takeWhile (· == ' ')).length, text := cs.dropWhile (· == ' ') }

def lines (cs : List Char) : List Line := (splitLines cs).map Line.ofChars

/-- The text of some lines from their first visible character on. -/
def joined : List Line → List Char
  | [] => []
  | line :: rest =>
    line.text ++ rest.flatMap fun l => '\n' :: (List.replicate l.indent ' ' ++ l.text)

/-- Whether a line holds nothing but a comment. -/
def Line.isEmpty (line : Line) : Bool := isRest line.text

def dropEmpty (ls : List Line) : List Line := ls.dropWhile Line.isEmpty

/-- What stands behind the dash of a list item. -/
def item? : List Char → Option (List Char)
  | ['-'] => some []
  | '-' :: c :: rest => if isBlank c then some (c :: rest) else none
  | _ => none

/-- A plain text up to a colon with a blank or nothing behind it, and what follows the colon; `acc`
is what was read, last first. -/
def plainKey? (acc : List Char) : List Char → Option (List Char × List Char)
  | [] => none
  | [':'] => some (acc.reverse, [])
  | c :: d :: rest =>
    if c == ':' && isBlank d then some (acc.reverse, d :: rest)
    else if isBlank c && d == '#' then none
    else plainKey? (c :: acc) (d :: rest)
  | _ => none

/-- The key of an entry, and what follows its colon. -/
def key? (cs : List Char) : Option (String × List Char) :=
  match cs with
  | '\x22' :: _ | '\x27' :: _ => do
    let (key, rest) ← quoted? cs
    match dropBlanks rest with
    | [':'] => some (key, [])
    | ':' :: c :: rest => if isBlank c then some (key, c :: rest) else none
    | _ => none
  | cs =>
    if startsPlain cs then
      (plainKey? [] cs).map fun (key, rest) => (String.ofList (trimEnd key), rest)
    else none

/-- A plain scalar of one line without the comment behind it; a key in it is a fault. -/
def plainLine? (cs : List Char) : Option (List Char) :=
  if (plainKey? [] cs).isSome then none
  else
    let rec cut : List Char → List Char
      | [] => []
      | [c] => [c]
      | c :: d :: rest => if isBlank c && d == '#' then [] else c :: cut (d :: rest)
    some (trimEnd (cut cs))

/-- Whether a plain scalar goes on behind a line. -/
def hasComment (cs : List Char) : Bool :=
  match plainLine? cs with
  | some kept => kept.length < (trimEnd cs).length
  | none => true

/-- The lines on which a plain scalar goes on: those indented by `least` at least. -/
def plainLines? (least : Nat) (acc : List Char) (ended : Bool) :
    List Line → Option (List Char × List Line)
  | [] => some (acc, [])
  | line :: rest =>
    if line.text.all isBlank then plainLines? least acc ended rest
    else if line.indent < least || line.isEmpty then
      some (acc, line :: rest)
    else if ended then none
    else do
      let text ← plainLine? line.text
      plainLines? least (acc ++ ' ' :: text) (hasComment line.text) rest

/-- What follows a value on its line must be nothing; the lines behind it. -/
def behind? (cs : List Char) : Option (List Line) :=
  let line := cs.takeWhile (· != '\n')
  if isRestBehind line then
    match cs.dropWhile (· != '\n') with
    | [] => some []
    | _ :: rest => some (lines rest)
  else none

/-- The lines of a block scalar: those indented by `least` at least, and empty ones. -/
def blockLines (least : Nat) : List Line → List Line × List Line
  | [] => ([], [])
  | line :: rest =>
    if line.text.isEmpty || least ≤ line.indent then
      let (block, rest) := blockLines least rest
      (line :: block, rest)
    else ([], line :: rest)

/-- The text of a block scalar; a folded one joins its lines by blanks. -/
def blockText (folded : Bool) (block : List Line) : String :=
  let indent := ((block.filter fun l => !l.text.isEmpty).map Line.indent).head?.getD 0
  let texts := block.map fun l => List.replicate (l.indent - indent) ' ' ++ l.text
  let break_ := if folded then " " else "\n"
  break_.intercalate (texts.map String.ofList)

/-- A scalar or a collection that begins in the middle of a line and may go on over lines that are
indented by `least` at least. -/
def inline? (least : Nat) (text : List Char) (rest : List Line) : Option (Value × List Line) :=
  match text with
  | '\x22' :: _ | '\x27' :: _ => do
    let (s, after) ← quoted? (joined (⟨0, text⟩ :: rest))
    return (.str s, ← behind? after)
  | '[' :: _ | '\x7b' :: _ => do
    let cs := joined (⟨0, text⟩ :: rest)
    let (v, after) ← flowValue? (2 * cs.length + 2) cs
    return (v, ← behind? after)
  | c :: header =>
    if c == '|' || c == '>' then
      let marks := header.takeWhile fun c => c == '+' || c == '-' || c.isDigit
      if isRestBehind (header.drop marks.length) then
        let (block, rest) := blockLines least rest
        some (.str (blockText (c == '>') block), rest)
      else none
    else if startsPlain text then do
      let first ← plainLine? text
      let (s, rest) ← plainLines? least first (hasComment text) rest
      return (plain s, rest)
    else none
  | [] => some (.null, rest)

mutual

/-- The node that begins with the next line, which must be indented by `least` at least. -/
def node? : Nat → Nat → List Line → Option (Value × List Line)
  | 0, _, _ => none
  | fuel + 1, least, ls =>
    match dropEmpty ls with
    | [] => some (.null, [])
    | line :: rest =>
      if line.indent < least then some (.null, line :: rest)
      else nodeAt? fuel least (line :: rest)

/-- The node whose first line is the first one. -/
def nodeAt? : Nat → Nat → List Line → Option (Value × List Line)
  | 0, _, _ => none
  | _, _, [] => some (.null, [])
  | fuel + 1, least, line :: rest =>
    if (item? line.text).isSome then do
      let (items, rest) ← items? fuel line.indent (line :: rest)
      return (.list items, rest)
    else if (key? line.text).isSome then do
      let (entries, rest) ← entries? fuel line.indent [] (line :: rest)
      return (.map entries, rest)
    else inline? least line.text rest

/-- The items of a list at an indentation. -/
def items? : Nat → Nat → List Line → Option (List Value × List Line)
  | 0, _, _ => none
  | fuel + 1, indent, ls =>
    match dropEmpty ls with
    | [] => some ([], [])
    | line :: rest =>
      if line.indent < indent then some ([], line :: rest)
      else if line.indent > indent then none
      else
        match item? line.text with
        | none => some ([], line :: rest)
        | some after => do
          let text := dropBlanks after
          let (v, rest) ←
            if isRest after then node? fuel (indent + 1) rest
            else
              let column := indent + 1 + (after.length - text.length)
              nodeAt? fuel (indent + 1) (⟨column, text⟩ :: rest)
          let (vs, rest) ← items? fuel indent rest
          return (v :: vs, rest)

/-- The entries of a map at an indentation, behind those read before. The last one of a repeated key
wins. A list may be indented like the key whose value it is. -/
def entries? : Nat → Nat → List (String × Value) → List Line →
    Option (List (String × Value) × List Line)
  | 0, _, _, _ => none
  | fuel + 1, indent, entries, ls =>
    match dropEmpty ls with
    | [] => some (entries, [])
    | line :: rest =>
      if line.indent < indent then some (entries, line :: rest)
      else if line.indent > indent then none
      else if (item? line.text).isSome then some (entries, line :: rest)
      else do
        let (key, after) ← key? line.text
        let (v, rest) ←
          if isRest after then
            match dropEmpty rest with
            | [] => pure (Value.null, [])
            | next :: others =>
              if next.indent = indent && (item? next.text).isSome then do
                let (items, rest) ← items? fuel indent (next :: others)
                pure (Value.list items, rest)
              else node? fuel (indent + 1) (next :: others)
          else inline? (indent + 1) (dropBlanks after) rest
        entries? fuel indent (Value.put key v entries) rest

end

/-- Whether a line is a marker, with nothing or a blank behind it. -/
def marker? (mark : List Char) (line : Line) : Option (List Char) :=
  if line.indent = 0 && mark.isPrefixOf line.text then
    match line.text.drop mark.length with
    | [] => some []
    | c :: rest => if isBlank c then some (c :: rest) else none
  else none

def startMark : List Char := ['-', '-', '-']
def endMark : List Char := ['.', '.', '.']

/-- The lines of the only document: behind its start marker, if there is one, and up to its end
marker. -/
def document? (ls : List Line) : Option (List Line) :=
  let isMark (line : Line) : Bool :=
    (marker? startMark line).isSome || (marker? endMark line).isSome
  let isDirective (line : Line) : Bool := line.indent = 0 && line.text.head? == some '%'
  let ls := dropEmpty ls
  let (directives, ls) := (ls.takeWhile isDirective, dropEmpty (ls.dropWhile isDirective))
  let body? : Option (List Line) := match ls with
    | [] => some []
    | line :: rest =>
      match (marker? startMark line).map dropBlanks with
      | some text =>
        -- maps and lists have to begin on a line of their own
        if (key? text).isSome || (item? text).isSome then none
        else some ({ indent := 3, text := text } :: rest)
      | none => if directives.isEmpty then some (line :: rest) else none
  body?.bind fun body =>
    let content := body.takeWhile fun line => !isMark line
    match body.dropWhile fun line => !isMark line with
    | [] => some content
    | mark :: rest =>
      let isEnd := (marker? endMark mark).any isRest
      if isEnd && (dropEmpty rest).isEmpty then some content else none

/-- Line breaks of all kinds as one character. -/
def unifyBreaks : List Char → List Char
  | '\r' :: '\n' :: rest => '\n' :: unifyBreaks rest
  | c :: rest =>
    (if ['\r', '\u0085', '\u2028', '\u2029'].contains c then '\n' else c) :: unifyBreaks rest
  | [] => []

/-- Reads a text into a map; an empty document is an empty map. -/
def read? (text : String) : Option Value := do
  let cs := match text.toList with
    | '\ufeff' :: rest => rest
    | cs => cs
  let ls ← document? (lines (unifyBreaks cs))
  if (dropEmpty ls).isEmpty then return .map []
  let (v, rest) ← node? (4 * cs.length + 8) 0 ls
  if (dropEmpty rest).isEmpty then
    match v with
    | .map entries => return .map entries
    | _ => none
  else none

end CanTransport.Yaml
