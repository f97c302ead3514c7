import CanTransport.Text.Escaped
import CanTransport.Value.Basic
/-!
# Values of environment variables

A variable's text is a truth value, a number, a list between brackets, a map between braces, or a
string, with or without quotes. A text that is none of the others is a string as a whole.
-/

namespace CanTransport.Env

/-- Blanks between the parts of a value. -/
def isBlank (c : Char) : Bool := c == ' ' || c == '\t' || c == '\n' || c == '\r' || c == '\x0c'

def dropBlanks (cs : List Char) : List Char := cs.dropWhile isBlank

/-- White space at the ends of a text, of any script. -/
def isSpace (c : Char) : Bool :=
  let n := c.toNat
  (9 ≤ n && n ≤ 13) || n == 32 || n == 0x85 || n == 0xA0 || n == 0x1680
    || (0x2000 ≤ n && n ≤ 0x200A) || n == 0x2028 || n == 0x2029 || n == 0x202F || n == 0x205F
    || n == 0x3000

/-- A text without the white space at its ends. -/
def trim (cs : List Char) : List Char :=
  ((cs.dropWhile isSpace).reverse.dropWhile isSpace).reverse

def isMark (c : Char) : Bool :=
  c == ',' || c == '[' || c == ']' || c == '\x7b' || c == '\x7d'

/-- Whether a text is a float: digits around a point and an exponent, or a word. -/
def isFloat (cs : List Char) : Bool :=
  let unsigned := match cs with
    | '-' :: rest => rest
    | '+' :: rest => rest
    | rest => rest
  let isExponentMark (c : Char) : Bool := c == 'e' || c == 'E'
  let mantissa := unsigned.takeWhile fun c => !isExponentMark c
  let exponent := unsigned.dropWhile fun c => !isExponentMark c
  let digits := mantissa.filter (· != '.')
  let exponentOk := match exponent with
    | [] => true
    | [_] => false
    | _ :: '-' :: ds => !ds.isEmpty && ds.all Char.isDigit
    | _ :: '+' :: ds => !ds.isEmpty && ds.all Char.isDigit
    | _ :: ds => ds.all Char.isDigit
  !digits.isEmpty && digits.all Char.isDigit && mantissa.length ≤ digits.length + 1 && exponentOk

/-- A whole number of 64 bits with at most one sign. -/
def integer? (cs : List Char) : Option Int :=
  match cs with
  | '-' :: digits =>
    if digits.isEmpty then none
    else ((Text.digitsValue? 10 0 digits).map fun n => -(n : Int)).filter Value.fits64
  | cs => (Text.readUnsigned? 10 0xFFFFFFFFFFFFFFFF cs).map Int.ofNat

/-- The value of a text without marks and quotes. -/
def word (cs : List Char) : Value :=
  if cs.contains '.' && isFloat cs then .real (String.ofList cs)
  else
    match integer? cs with
    | some n => .int n
    | none => .str (String.ofList cs)

def isKeyChar (c : Char) : Bool := c.isAlphanum || c == '_' || c == '-'

/-- A string behind its opening quote, and what follows it. -/
def quoted? (cs : List Char) : Option (String × List Char) :=
  (Text.basicTail [] cs).map fun (s, rest) => (String.ofList s, rest)

/-- The key of an entry and what follows it. -/
def key? (cs : List Char) : Option (String × List Char) :=
  match dropBlanks cs with
  | '\x22' :: rest => quoted? rest
  | cs =>
    let key := cs.takeWhile isKeyChar
    if key.isEmpty then none else some (String.ofList key, cs.dropWhile isKeyChar)

/-- What follows a word at the front of a text. -/
def after? (word : String) (cs : List Char) : Option (List Char) :=
  if word.toList.isPrefixOf cs then some (cs.drop word.length) else none

mutual

/-- A value and what follows it. -/
def value? : Nat → List Char → Option (Value × List Char)
  | 0, _ => none
  | fuel + 1, cs =>
    let cs := dropBlanks cs
    match after? "true" cs, after? "false" cs with
    | some rest, _ => some (.bool true, rest)
    | _, some rest => some (.bool false, rest)
    | _, _ =>
      match cs with
      | '\x7b' :: rest => do
        let (entries, rest) ← entries? fuel [] rest
        return (.map entries, rest)
      | '[' :: rest => do
        let (items, rest) ← items? fuel rest
        return (.list items, rest)
      | '\x22' :: rest => (quoted? rest).map fun (s, rest) => (.str s, rest)
      | '\x27' :: c :: '\x27' :: rest => some (.str (String.singleton c), rest)
      | '\x27' :: _ => none
      | cs =>
        let body := cs.takeWhile fun c => !isMark c
        some (word (trim body), cs.drop body.length)

/-- The items of a list and its closing bracket. -/
def items? : Nat → List Char → Option (List Value × List Char)
  | 0, _ => none
  | fuel + 1, cs =>
    match cs with
    | ']' :: rest => some ([], rest)
    | cs => do
      let (v, rest) ← value? fuel cs
      match dropBlanks rest with
      | ']' :: rest => return ([v], rest)
      | ',' :: rest => do
        let (vs, rest) ← items? fuel rest
        return (v :: vs, rest)
      | _ => none

/-- The entries of a map behind those read before, and its closing brace. -/
def entries? : Nat → List (String × Value) → List Char →
    Option (List (String × Value) × List Char)
  | 0, _, _ => none
  | _, entries, '\x7d' :: rest => some (entries, rest)
  | fuel + 1, entries, cs => do
    let (key, rest) ← key? cs
    match dropBlanks rest with
    | '=' :: rest => do
      let (v, rest) ← value? fuel rest
      let entries := Value.put key v entries
      match dropBlanks rest with
      | '\x7d' :: rest => return (entries, rest)
      | ',' :: rest => entries? fuel entries rest
      | _ => none
    | _ => none

end

/-- The value of a variable's text. -/
def read (text : String) : Value :=
  let cs := trim text.toList
  match value? (2 * cs.length + 2) cs with
  | some (v, rest) => if (dropBlanks rest).isEmpty then v else .str (String.ofList cs)
  | none => .str (String.ofList cs)

end CanTransport.Env
