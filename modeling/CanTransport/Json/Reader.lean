import CanTransport.Text.Digits
import CanTransport.Value.Basic
/-!
# Reading JSON

A text is cut into tokens by a machine that looks at one character at a time, and the tokens build
the value on a stack of open lists and maps. The last entry of a repeated key wins; nesting is
limited.
-/

namespace CanTransport.Json

inductive Token where
  | openList
  | closeList
  | openMap
  | closeMap
  | colon
  | comma
  | scalar (value : Value)
deriving Repr, BEq

/-- Where the tokenizer stands. Collected characters are kept last first. -/
inductive Mode where
  | between
  | word (acc : List Char)
  | text (acc : List Char)
  | escape (acc : List Char)
  /-- Inside the digits of an escaped unit, perhaps after a high surrogate. -/
  | unit (acc : List Char) (high : Option Nat) (digits : Nat) (value : Nat)
  /-- After a high surrogate: a backslash, then a `u`. -/
  | lowStart (acc : List Char) (high : Nat)
  | lowEscape (acc : List Char) (high : Nat)

def isBlank (c : Char) : Bool := c == ' ' || c == '\t' || c == '\n' || c == '\r'

/-- A nonempty run of decimal digits and what follows it. -/
def digitRun? (cs : List Char) : Option (List Char × List Char) :=
  let run := cs.takeWhile Char.isDigit
  if run = [] then none else some (run, cs.dropWhile Char.isDigit)

/-- The part of a number behind its whole digits: a fraction, an exponent, nothing else. -/
def isRealTail (cs : List Char) : Bool :=
  let afterFraction :=
    match cs with
    | '.' :: rest => (digitRun? rest).map Prod.snd
    | rest => some rest
  match afterFraction with
  | none => false
  | some [] => true
  | some (c :: rest) =>
    (c == 'e' || c == 'E') &&
      let digits := match rest with
        | '+' :: ds => ds
        | '-' :: ds => ds
        | ds => ds
      digits ≠ [] && digits.all Char.isDigit

/-- Decimal exponent of the leading digit of a number, if one of its digits is not zero. -/
def magnitude? (whole rest : List Char) : Option Int :=
  let fraction := match rest with
    | '.' :: ds => ds.takeWhile Char.isDigit
    | _ => []
  let exponentText := (rest.dropWhile fun c => c ≠ 'e' ∧ c ≠ 'E').drop 1
  let size := (Text.digitsValue? 10 0 (exponentText.filter Char.isDigit)).getD 0
  let exponent : Int := if exponentText.head? = some '-' then -(size : Int) else size
  let digits := whole ++ fraction
  let leading := (digits.takeWhile (· = '0')).length
  if leading = digits.length then none
  else some (exponent + whole.length - 1 - leading)

/-- A number; whole numbers of 64 bits stay exact, and one too large for a float is refused. -/
def number? (cs : List Char) : Option Value := do
  let (negative, unsigned) := match cs with
    | '-' :: rest => (true, rest)
    | rest => (false, rest)
  let (whole, rest) ← digitRun? unsigned
  if whole.length > 1 && whole.head? == some '0' then none
  else if rest = [] then
    let n ← Text.digitsValue? 10 0 whole
    let signed : Int := if negative then -n else n
    if Value.fits64 signed && !(negative && n == 0) then some (.int signed)
    else if whole.length > 309 then none
    else some (.real (String.ofList cs))
  else if isRealTail rest && (magnitude? whole rest).all (· < 309) then
    some (.real (String.ofList cs))
  else none

def word? (cs : List Char) : Option Value :=
  if cs = "null".toList then some .null
  else if cs = "true".toList then some (.bool true)
  else if cs = "false".toList then some (.bool false)
  else number? cs

def mark? : Char → Option Token
  | '[' => some .openList
  | ']' => some .closeList
  | '\x7b' => some .openMap
  | '\x7d' => some .closeMap
  | ':' => some .colon
  | ',' => some .comma
  | _ => none

def simpleEscape? : Char → Option Char
  | '\"' => some '\"'
  | '\\' => some '\\'
  | '/' => some '/'
  | 'b' => some '\x08'
  | 'f' => some '\x0c'
  | 'n' => some '\n'
  | 'r' => some '\r'
  | 't' => some '\t'
  | _ => none

/-- The mode after a complete escaped unit. -/
def afterUnit (acc : List Char) (high : Option Nat) (value : Nat) : Option Mode :=
  match high with
  | none =>
    if 0xD800 ≤ value && value < 0xDC00 then some (.lowStart acc value)
    else if 0xDC00 ≤ value && value < 0xE000 then none
    else some (.text (Char.ofNat value :: acc))
  | some h =>
    if 0xDC00 ≤ value && value < 0xE000 then
      some (.text (Char.ofNat (0x10000 + (h - 0xD800) * 0x400 + (value - 0xDC00)) :: acc))
    else none

/-- One character outside a word: the tokens it completes and the next mode. -/
def outside? (c : Char) : Option (List Token × Mode) :=
  if isBlank c then some ([], .between)
  else if c == '\"' then some ([], .text [])
  else match mark? c with
    | some t => some ([t], .between)
    | none => some ([], .word [c])

/-- One character: the tokens it completes and the next mode. -/
def scan? : Mode → Char → Option (List Token × Mode)
  | .between, c => outside? c
  | .word acc, c =>
    if isBlank c || c == '\"' || (mark? c).isSome then do
      let value ← word? acc.reverse
      let (tokens, mode) ← outside? c
      return (.scalar value :: tokens, mode)
    else some ([], .word (c :: acc))
  | .text acc, c =>
    if c == '\"' then some ([.scalar (.str (String.ofList acc.reverse))], .between)
    else if c == '\\' then some ([], .escape acc)
    else if c.toNat < 0x20 then none
    else some ([], .text (c :: acc))
  | .escape acc, c =>
    if c == 'u' then some ([], .unit acc none 0 0)
    else (simpleEscape? c).map fun e => ([], .text (e :: acc))
  | .unit acc high digits value, c => do
    let d ← Text.hexValue? c
    let value := 16 * value + d
    if digits = 3 then (afterUnit acc high value).map fun mode => ([], mode)
    else return ([], .unit acc high (digits + 1) value)
  | .lowStart acc high, c => if c == '\\' then some ([], .lowEscape acc high) else none
  | .lowEscape acc high, c => if c == 'u' then some ([], .unit acc (some high) 0 0) else none

/-- The tokens of a text. -/
def tokens? : Mode → List Char → Option (List Token)
  | .between, [] => some []
  | .word acc, [] => (word? acc.reverse).map fun value => [.scalar value]
  | _, [] => none
  | mode, c :: cs => do
    let (tokens, next) ← scan? mode c
    return tokens ++ (← tokens? next cs)

/-- A list or map whose end is not reached; items are kept last first. -/
inductive Open where
  | list (items : List Value)
  | map (fields : List (String × Value)) (key : String)

/-- What may come next. -/
inductive Expect where
  | value
  | valueOrEnd
  | moreOrEnd
  | key
  | keyOrEnd
  | colon
  | nothing (result : Value)

/-- Most lists and maps open at one time. -/
def maxDepth : Nat := 127

/-- Hands a complete value to the innermost open list or map. -/
def complete (value : Value) : List Open → List Open × Expect
  | [] => ([], .nothing value)
  | .list items :: outer => (.list (value :: items) :: outer, .moreOrEnd)
  | .map fields key :: outer => (.map (Value.put key value fields) key :: outer, .moreOrEnd)

/-- One token. -/
def take? (stack : List Open) (expect : Expect) (token : Token) : Option (List Open × Expect) :=
  match expect, token, stack with
  | .value, .scalar v, _ | .valueOrEnd, .scalar v, _ => some (complete v stack)
  | .value, .openList, _ | .valueOrEnd, .openList, _ =>
    if stack.length < maxDepth then some (.list [] :: stack, .valueOrEnd) else none
  | .value, .openMap, _ | .valueOrEnd, .openMap, _ =>
    if stack.length < maxDepth then some (.map [] "" :: stack, .keyOrEnd) else none
  | .valueOrEnd, .closeList, .list items :: outer
  | .moreOrEnd, .closeList, .list items :: outer => some (complete (.list items.reverse) outer)
  | .moreOrEnd, .comma, .list _ :: _ => some (stack, .value)
  | .moreOrEnd, .comma, .map _ _ :: _ => some (stack, .key)
  | .keyOrEnd, .closeMap, .map fields _ :: outer
  | .moreOrEnd, .closeMap, .map fields _ :: outer => some (complete (.map fields) outer)
  | .key, .scalar (.str k), .map fields _ :: outer
  | .keyOrEnd, .scalar (.str k), .map fields _ :: outer => some (.map fields k :: outer, .colon)
  | .colon, .colon, _ => some (stack, .value)
  | _, _, _ => none

/-- The value that a token sequence spells. -/
def build? : List Open → Expect → List Token → Option Value
  | [], .nothing value, [] => some value
  | _, _, [] => none
  | stack, expect, token :: rest => do
    let (stack, expect) ← take? stack expect token
    build? stack expect rest

/-- Reads one value and nothing else. -/
def read? (text : String) : Option Value := do
  build? [] .value (← tokens? .between text.toList)

end CanTransport.Json
