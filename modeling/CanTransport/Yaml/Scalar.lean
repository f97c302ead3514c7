import CanTransport.Text.Escaped
import CanTransport.Value.Basic
/-!
# YAML scalars

Plain scalars are read as what they look like; scalars between quotes are strings.
-/

namespace CanTransport.Yaml

open Text (scalarOf?)

def isBlank (c : Char) : Bool := c == ' ' || c == '\t'

def dropBlanks (cs : List Char) : List Char := cs.dropWhile isBlank

/-- A text without the blanks at its end. -/
def trimEnd (cs : List Char) : List Char := (cs.reverse.dropWhile isBlank).reverse

/-- Whether nothing but blanks and a comment is left. -/
def isRest (cs : List Char) : Bool :=
  match dropBlanks cs with
  | [] => true
  | c :: _ => c == '#'

/-- Like `isRest`, right behind something: a comment needs a blank before it. -/
def isRestBehind : List Char → Bool
  | [] => true
  | c :: rest => isBlank c && isRest rest

/-- A number in digits of a radix, without sign; zeros in front make it no number. -/
def magnitude? (cs : List Char) : Option Nat :=
  match cs with
  | '0' :: 'x' :: digits => if digits.isEmpty then none else Text.digitsValue? 16 0 digits
  | '0' :: 'o' :: digits => if digits.isEmpty then none else Text.digitsValue? 8 0 digits
  | '0' :: 'b' :: digits => if digits.isEmpty then none else Text.digitsValue? 2 0 digits
  | [] => none
  | ['0'] => some 0
  | '0' :: _ => none
  | digits => Text.digitsValue? 10 0 digits

/-- A whole number of 64 bits. -/
def integer? (cs : List Char) : Option Int :=
  let n? : Option Int := match cs with
    | '-' :: rest => (magnitude? rest).map fun n => -(n : Int)
    | '+' :: rest => (magnitude? rest).map Int.ofNat
    | rest => (magnitude? rest).map Int.ofNat
  n?.filter Value.fits64

/-- Whether a text is a decimal number with a fraction or an exponent, or without. -/
def isDecimal (cs : List Char) : Bool :=
  let unsigned := match cs with
    | '-' :: rest => rest
    | '+' :: rest => rest
    | rest => rest
  let isMark (c : Char) : Bool := c == 'e' || c == 'E'
  let mantissa := unsigned.takeWhile fun c => !isMark c
  let exponent := unsigned.dropWhile fun c => !isMark c
  let digits := mantissa.filter (· != '.')
  let exponentOk := match exponent with
    | [] => true
    | [_] => false
    | _ :: '-' :: ds => !ds.isEmpty && ds.all Char.isDigit
    | _ :: '+' :: ds => !ds.isEmpty && ds.all Char.isDigit
    | _ :: ds => ds.all Char.isDigit
  !digits.isEmpty && digits.all Char.isDigit && mantissa.length ≤ digits.length + 1 && exponentOk

/-- Whether a text is digits with a zero in front, which is a string. -/
def isPadded (cs : List Char) : Bool :=
  let unsigned := match cs with
    | '-' :: rest => rest
    | '+' :: rest => rest
    | rest => rest
  1 < unsigned.length && unsigned.head? == some '0' && unsigned.all Char.isDigit

/-- The words for floats without a number. -/
def floatWords : List String :=
  [".inf", ".Inf", ".INF", "+.inf", "+.Inf", "+.INF", "-.inf", "-.Inf", "-.INF",
   ".nan", ".NaN", ".NAN"]

/-- The value of a plain scalar. -/
def plain (cs : List Char) : Value :=
  let s := String.ofList cs
  if ["", "~", "null", "Null", "NULL"].contains s then .null
  else if ["true", "True", "TRUE"].contains s then .bool true
  else if ["false", "False", "FALSE"].contains s then .bool false
  else
    match integer? cs with
    | some n => .int n
    | none =>
      if floatWords.contains s || (isDecimal cs && !isPadded cs) then .real s else .str s

def escape? : Char → Option Char
  | '0' => some '\x00'
  | 'a' => some '\x07'
  | 'b' => some '\x08'
  | 't' | '\t' => some '\t'
  | 'n' => some '\n'
  | 'v' => some '\x0b'
  | 'f' => some '\x0c'
  | 'r' => some '\r'
  | 'e' => some '\x1b'
  | ' ' => some ' '
  | '\x22' => some '\x22'
  | '/' => some '/'
  | '\\' => some '\\'
  | 'N' => some '\u0085'
  | '_' => some '\u00a0'
  | 'L' => some '\u2028'
  | 'P' => some '\u2029'
  | _ => none

/-- A line break inside quotes: blanks around it go, and `breaks` breaks in a row leave one space, or
one break less. What was read is kept last first. -/
def fold (acc : List Char) (breaks : Nat) : List Char :=
  let kept := acc.dropWhile isBlank
  if breaks = 1 then ' ' :: kept else List.replicate (breaks - 1) '\n' ++ kept

/-- What follows line breaks and blanks, and the number of breaks. -/
def breaks : Nat → List Char → Nat × List Char
  | 0, cs => (0, cs)
  | fuel + 1, cs =>
    match dropBlanks cs with
    | '\n' :: rest =>
      let (n, rest) := breaks fuel rest
      (n + 1, rest)
    | cs => (0, cs)

/-- The rest of a scalar between quotes, and what follows it. -/
def doubleTail : Nat → List Char → List Char → Option (List Char × List Char)
  | 0, _, _ => none
  | fuel + 1, acc, cs =>
    match cs with
    | [] => none
    | '\x22' :: rest => some (acc.reverse, rest)
    | '\\' :: '\n' :: rest => doubleTail fuel acc (dropBlanks rest)
    | '\\' :: 'x' :: a :: b :: rest => do doubleTail fuel ((← scalarOf? [a, b]) :: acc) rest
    | '\\' :: 'u' :: a :: b :: c :: d :: rest => do
      doubleTail fuel ((← scalarOf? [a, b, c, d]) :: acc) rest
    | '\\' :: 'U' :: a :: b :: c :: d :: e :: f :: g :: h :: rest => do
      doubleTail fuel ((← scalarOf? [a, b, c, d, e, f, g, h]) :: acc) rest
    | '\\' :: c :: rest => do doubleTail fuel ((← escape? c) :: acc) rest
    | '\n' :: rest =>
      let (n, rest) := breaks fuel rest
      doubleTail fuel (fold acc (n + 1)) rest
    | c :: rest => doubleTail fuel (c :: acc) rest

/-- The rest of a scalar between apostrophes, two of which stand for one. -/
def singleTail : Nat → List Char → List Char → Option (List Char × List Char)
  | 0, _, _ => none
  | fuel + 1, acc, cs =>
    match cs with
    | [] => none
    | '\x27' :: '\x27' :: rest => singleTail fuel ('\x27' :: acc) rest
    | '\x27' :: rest => some (acc.reverse, rest)
    | '\n' :: rest =>
      let (n, rest) := breaks fuel rest
      singleTail fuel (fold acc (n + 1)) rest
    | c :: rest => singleTail fuel (c :: acc) rest

/-- A scalar between quotes or apostrophes, and what follows it. -/
def quoted? : List Char → Option (String × List Char)
  | '\x22' :: rest =>
    (doubleTail (rest.length + 1) [] rest).map fun (s, rest) => (String.ofList s, rest)
  | '\x27' :: rest =>
    (singleTail (rest.length + 1) [] rest).map fun (s, rest) => (String.ofList s, rest)
  | _ => none

/-- Characters that no plain scalar begins with. -/
def isIndicator (c : Char) : Bool :=
  [',', '[', ']', '\x7b', '\x7d', '#', '&', '*', '!', '|', '>', '\x27', '\x22', '%', '@',
   Char.ofNat 96].contains c

/-- Whether a plain scalar can begin here; `-`, `?` and `:` need something behind them. -/
def startsPlain : List Char → Bool
  | [] => false
  | c :: rest =>
    if c == '-' || c == '?' || c == ':' then
      match rest with
      | [] => false
      | d :: _ => !(isBlank d || d == '\n')
    else !isIndicator c && !isBlank c && c != '\n'

end CanTransport.Yaml
