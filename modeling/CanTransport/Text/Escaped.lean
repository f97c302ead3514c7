import CanTransport.Text.Digits
/-!
# Escaped strings

Strings between quotes on one line, in which a backslash begins the name or the number of a
character.
-/

namespace CanTransport.Text

/-- Control characters that may not stand in comments and strings. -/
def isControl (c : Char) : Bool := (c.toNat < 32 && c != '\t') || c.toNat == 127

/-- The character of a number in hexadecimal digits, if there is one. -/
def scalarOf? (digits : List Char) : Option Char := do
  let n ← Text.digitsValue? 16 0 digits
  if n < 0xD800 ∨ (0xE000 ≤ n ∧ n < 0x110000) then some (Char.ofNat n) else none

def escape? : Char → Option Char
  | 'b' => some '\x08'
  | 't' => some '\t'
  | 'n' => some '\n'
  | 'f' => some '\x0c'
  | 'r' => some '\r'
  | '\"' => some '\"'
  | '\\' => some '\\'
  | _ => none

/-- The rest of a string between quotes, up to its end, and what follows it; `acc` is what was read,
last first. -/
def basicTail (acc : List Char) : List Char → Option (List Char × List Char)
  | '\"' :: rest => some (acc.reverse, rest)
  | '\\' :: 'u' :: a :: b :: c :: d :: rest => do
    basicTail ((← scalarOf? [a, b, c, d]) :: acc) rest
  | '\\' :: 'U' :: a :: b :: c :: d :: e :: f :: g :: h :: rest => do
    basicTail ((← scalarOf? [a, b, c, d, e, f, g, h]) :: acc) rest
  | '\\' :: c :: rest => do basicTail ((← escape? c) :: acc) rest
  | c :: rest => if isControl c then none else basicTail (c :: acc) rest
  | [] => none

end CanTransport.Text
