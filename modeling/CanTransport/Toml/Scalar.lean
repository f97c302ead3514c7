import CanTransport.Text.Escaped
import CanTransport.Value.Basic
/-!
# TOML scalars

Keys, strings, numbers, truth values and dates. Every reader returns what follows.
-/

namespace CanTransport.Toml

open Text (isControl scalarOf? escape? basicTail)

def isBlank (c : Char) : Bool := c == ' ' || c == '\t'

def dropBlanks (cs : List Char) : List Char := cs.dropWhile isBlank

/-- The text behind a line end. -/
def newline? : List Char → Option (List Char)
  | '\n' :: rest => some rest
  | '\r' :: '\n' :: rest => some rest
  | _ => none

/-- The rest of a string between apostrophes on one line. -/
def literalTail (acc : List Char) : List Char → Option (List Char × List Char)
  | '\'' :: rest => some (acc.reverse, rest)
  | c :: rest => if isControl c then none else literalTail (c :: acc) rest
  | [] => none

/-- Whether only blanks stand before the next line end. -/
def endsLine (cs : List Char) : Bool := (newline? (dropBlanks cs)).isSome

/-- The rest of a string between triple quotes. After a backslash at the end of a line, blanks and
line ends are skipped. -/
def longBasicTail (skip : Bool) (acc : List Char) : List Char → Option (List Char × List Char)
  | '\"' :: '\"' :: '\"' :: '\"' :: '\"' :: rest => some (('\"' :: '\"' :: acc).reverse, rest)
  | '\"' :: '\"' :: '\"' :: '\"' :: rest => some (('\"' :: acc).reverse, rest)
  | '\"' :: '\"' :: '\"' :: rest => some (acc.reverse, rest)
  | '\\' :: 'u' :: a :: b :: c :: d :: rest => do
    longBasicTail false ((← scalarOf? [a, b, c, d]) :: acc) rest
  | '\\' :: 'U' :: a :: b :: c :: d :: e :: f :: g :: h :: rest => do
    longBasicTail false ((← scalarOf? [a, b, c, d, e, f, g, h]) :: acc) rest
  | '\\' :: c :: rest =>
    if endsLine (c :: rest) then longBasicTail true acc rest
    else do longBasicTail false ((← escape? c) :: acc) rest
  | '\r' :: '\n' :: rest => longBasicTail skip (if skip then acc else '\n' :: acc) rest
  | c :: rest =>
    if c == '\n' || isBlank c then longBasicTail skip (if skip then acc else c :: acc) rest
    else if isControl c then none
    else longBasicTail false (c :: acc) rest
  | [] => none

/-- The rest of a string between triple apostrophes. -/
def longLiteralTail (acc : List Char) : List Char → Option (List Char × List Char)
  | '\'' :: '\'' :: '\'' :: '\'' :: '\'' :: rest => some (('\'' :: '\'' :: acc).reverse, rest)
  | '\'' :: '\'' :: '\'' :: '\'' :: rest => some (('\'' :: acc).reverse, rest)
  | '\'' :: '\'' :: '\'' :: rest => some (acc.reverse, rest)
  | '\r' :: '\n' :: rest => longLiteralTail ('\n' :: acc) rest
  | c :: rest => if c != '\n' && isControl c then none else longLiteralTail (c :: acc) rest
  | [] => none

/-- The text behind a line end right after an opening triple. -/
def dropFirstNewline (cs : List Char) : List Char := (newline? cs).getD cs

/-- A string of any of the four kinds. -/
def string? : List Char → Option (String × List Char)
  | '\"' :: '\"' :: '\"' :: rest =>
    (longBasicTail false [] (dropFirstNewline rest)).map fun (s, rest) => (String.ofList s, rest)
  | '\'' :: '\'' :: '\'' :: rest =>
    (longLiteralTail [] (dropFirstNewline rest)).map fun (s, rest) => (String.ofList s, rest)
  | '\"' :: rest => (basicTail [] rest).map fun (s, rest) => (String.ofList s, rest)
  | '\'' :: rest => (literalTail [] rest).map fun (s, rest) => (String.ofList s, rest)
  | _ => none

def isBare (c : Char) : Bool := c.isAlphanum || c == '_' || c == '-'

/-- One part of a key. -/
def simpleKey? (cs : List Char) : Option (String × List Char) :=
  match cs with
  | '\"' :: rest => (basicTail [] rest).map fun (s, rest) => (String.ofList s, rest)
  | '\'' :: rest => (literalTail [] rest).map fun (s, rest) => (String.ofList s, rest)
  | cs =>
    let bare := cs.takeWhile isBare
    if bare.isEmpty then none else some (String.ofList bare, cs.dropWhile isBare)

/-- A key of parts with dots between them, at most `fuel` of them. -/
def key? : Nat → List Char → Option (List String × List Char)
  | 0, _ => none
  | fuel + 1, cs => do
    let (part, rest) ← simpleKey? (dropBlanks cs)
    match dropBlanks rest with
    | '.' :: rest => do
      let (parts, rest) ← key? fuel rest
      return (part :: parts, rest)
    | rest => return ([part], rest)

/-- Digits of a radix with single underscores between them. -/
def digits? (radix : Nat) (cs : List Char) : Option (List Char) :=
  let isDigit (c : Char) : Bool := (Text.digitValue? radix c).isSome
  let rec strip : Bool → List Char → Option (List Char)
    | afterDigit, [] => if afterDigit then some [] else none
    | afterDigit, c :: rest =>
      if c == '_' then if afterDigit then strip false rest else none
      else if isDigit c then (strip true rest).map (c :: ·)
      else none
  strip false cs

/-- A whole number without sign, of a radix. -/
def natural? (radix : Nat) (cs : List Char) : Option Nat :=
  (digits? radix cs).bind (Text.digitsValue? radix 0)

def hasLeadingZero : List Char → Bool
  | '0' :: _ :: _ => true
  | _ => false

/-- A decimal number without sign and without leading zeros. -/
def decimal? (cs : List Char) : Option Nat := if hasLeadingZero cs then none else natural? 10 cs

/-- Splits off a sign. -/
def signed : List Char → Bool × List Char
  | '-' :: rest => (true, rest)
  | '+' :: rest => (false, rest)
  | rest => (false, rest)

/-- Whether a text is a float: a fraction or an exponent behind a whole number, or a word. -/
def isFloat (cs : List Char) : Bool :=
  let (_, cs) := signed cs
  let isExponentMark (c : Char) : Bool := c == 'e' || c == 'E'
  let exponentOk : List Char → Bool
    | [] => true
    | _ :: rest => (digits? 10 (signed rest).2).isSome
  cs == "inf".toList || cs == "nan".toList ||
    let mantissa := cs.takeWhile fun c => !isExponentMark c
    let exponent := cs.dropWhile fun c => !isExponentMark c
    let whole := mantissa.takeWhile (· != '.')
    let fractionOk := match mantissa.dropWhile (· != '.') with
      | [] => !exponent.isEmpty
      | _ :: rest => (digits? 10 rest).isSome
    (decimal? whole).isSome && fractionOk && exponentOk exponent

/-- A number of exactly `width` digits within bounds, and what follows. -/
def field? (width low high : Nat) (cs : List Char) : Option (Nat × List Char) := do
  let digits := cs.take width
  let n ← Text.digitsValue? 10 0 digits
  if digits.length = width ∧ digits.all Char.isDigit ∧ low ≤ n ∧ n ≤ high then
    some (n, cs.drop width)
  else none

def expect? (c : Char) : List Char → Option (List Char)
  | d :: rest => if d = c then some rest else none
  | [] => none

def daysOf (year month : Nat) : Nat :=
  if month = 2 then
    if (year % 4 = 0 ∧ year % 100 ≠ 0) ∨ year % 400 = 0 then 29 else 28
  else if month = 4 ∨ month = 6 ∨ month = 9 ∨ month = 11 then 30
  else 31

/-- What follows a date. -/
def date? (cs : List Char) : Option (List Char) := do
  let (year, cs) ← field? 4 0 9999 cs
  let (month, cs) ← field? 2 1 12 (← expect? '-' cs)
  let (_, cs) ← field? 2 1 (daysOf year month) (← expect? '-' cs)
  return cs

/-- What follows a time of day. -/
def time? (cs : List Char) : Option (List Char) := do
  let (_, cs) ← field? 2 0 23 cs
  let (_, cs) ← field? 2 0 59 (← expect? ':' cs)
  let (_, cs) ← field? 2 0 60 (← expect? ':' cs)
  match cs with
  | '.' :: rest =>
    if (rest.takeWhile Char.isDigit).isEmpty then none else some (rest.dropWhile Char.isDigit)
  | cs => some cs

/-- Whether a text is nothing or an offset from universal time. -/
def isOffset : List Char → Bool
  | [] | ['Z'] | ['z'] => true
  | sign :: rest =>
    (sign == '+' || sign == '-') && (do
      let (_, cs) ← field? 2 0 23 rest
      let (_, cs) ← field? 2 0 59 (← expect? ':' cs)
      return cs.isEmpty : Option Bool) == some true

/-- Whether a text is a date, a time, or both. -/
def isDateTime (cs : List Char) : Bool :=
  match date? cs with
  | some [] => true
  | some (c :: rest) =>
    (c == 'T' || c == 't' || c == ' ') && ((time? rest).map isOffset) == some true
  | none => time? cs == some []

/-- The key under which a date is kept as a map. -/
def dateKey : String := "$__toml_private_datetime"

/-- A number, a truth value or a date. Whole numbers have 64 bits and a sign. -/
def word? (cs : List Char) : Option Value :=
  if cs = "true".toList then some (.bool true)
  else if cs = "false".toList then some (.bool false)
  else
    let whole? : Option Int := match cs with
      | '0' :: 'x' :: rest => (natural? 16 rest).map Int.ofNat
      | '0' :: 'o' :: rest => (natural? 8 rest).map Int.ofNat
      | '0' :: 'b' :: rest => (natural? 2 rest).map Int.ofNat
      | cs =>
        let (negative, rest) := signed cs
        (decimal? rest).map fun n => if negative then -(n : Int) else n
    match whole? with
    | some n => if -0x8000000000000000 ≤ n ∧ n < 0x8000000000000000 then some (.int n) else none
    | none =>
      if isFloat cs then some (.real (String.ofList cs))
      else if isDateTime cs then some (.map [(dateKey, .str (String.ofList cs))])
      else none

def isWordChar (c : Char) : Bool :=
  c.isAlphanum || c == '_' || c == '-' || c == '+' || c == '.' || c == ':'

/-- The word at the front of a text; a date may be followed by a blank and a time. -/
def takeWord (cs : List Char) : List Char × List Char :=
  let word := cs.takeWhile isWordChar
  let rest := cs.dropWhile isWordChar
  match rest with
  | ' ' :: c :: _ =>
    if (date? word) == some [] && c.isDigit then
      (word ++ ' ' :: (rest.drop 1).takeWhile isWordChar, (rest.drop 1).dropWhile isWordChar)
    else (word, rest)
  | _ => (word, rest)

end CanTransport.Toml
