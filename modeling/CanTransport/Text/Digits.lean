/-!
# Digits

Numbers written in a radix up to sixteen, and read back: a fixed number of digits, as few digits
as possible, and the unsigned reader that every number of this library goes through.
-/

namespace CanTransport.Text

/-- The upper-case character of a digit below sixteen. -/
def upperDigit (d : Nat) : Char :=
  if d < 10 then Char.ofNat (48 + d) else Char.ofNat (55 + d)

/-- The lower-case character of a digit below sixteen. -/
def lowerDigit (d : Nat) : Char :=
  if d < 10 then Char.ofNat (48 + d) else Char.ofNat (87 + d)

/-- The value of a hexadecimal digit of either case. -/
def hexValue? (c : Char) : Option Nat :=
  if '0' ≤ c ∧ c ≤ '9' then some (c.toNat - 48)
  else if 'A' ≤ c ∧ c ≤ 'F' then some (c.toNat - 55)
  else if 'a' ≤ c ∧ c ≤ 'f' then some (c.toNat - 87)
  else none

/-- The value of a digit of the given radix, which is at most sixteen. -/
def digitValue? (radix : Nat) (c : Char) : Option Nat :=
  (hexValue? c).filter (· < radix)

/-- The `width` last digits of `n`, leading zeros included. -/
def fixedDigits (radix : Nat) (digit : Nat → Char) : Nat → Nat → List Char
  | 0, _ => []
  | width + 1, n => fixedDigits radix digit width (n / radix) ++ [digit (n % radix)]

/-- The digits of `n` without leading zeros, in front of `tail`; nothing for zero. -/
def leastDigits (radix : Nat) (digit : Nat → Char) (n : Nat) (tail : List Char) : List Char :=
  if _h : n = 0 ∨ radix < 2 then tail
  else leastDigits radix digit (n / radix) (digit (n % radix) :: tail)
termination_by n
decreasing_by exact Nat.div_lt_self (by omega) (by omega)

/-- As few upper-case hexadecimal digits as `n` needs, at least one. -/
def upperHex (n : Nat) : String :=
  if n = 0 then "0" else String.ofList (leastDigits 16 upperDigit n [])

/-- As few lower-case hexadecimal digits as `n` needs, at least one. -/
def lowerHex (n : Nat) : String :=
  if n = 0 then "0" else String.ofList (leastDigits 16 lowerDigit n [])

/-- `n` in decimal. -/
def decimal (n : Nat) : String :=
  if n = 0 then "0" else String.ofList (leastDigits 10 lowerDigit n [])

/-- The value of a digit sequence in front of which `acc` was read. -/
def digitsValue? (radix : Nat) : Nat → List Char → Option Nat
  | acc, [] => some acc
  | acc, c :: cs =>
    match digitValue? radix c with
    | some d => digitsValue? radix (acc * radix + d) cs
    | none => none

/-- Drops one leading plus sign. -/
def dropPlus : List Char → List Char
  | '+' :: cs => cs
  | cs => cs

/-- An unsigned number up to `limit`: at least one digit, after at most one plus sign. -/
def readUnsigned? (radix limit : Nat) (cs : List Char) : Option Nat :=
  match dropPlus cs with
  | [] => none
  | digits => (digitsValue? radix 0 digits).filter (· ≤ limit)

/-- The two upper-case digits of each byte. -/
def upperBytes (bytes : List UInt8) : List Char :=
  bytes.flatMap fun b => fixedDigits 16 upperDigit 2 b.toNat

/-- The two lower-case digits of each byte. -/
def lowerBytes (bytes : List UInt8) : String :=
  String.ofList (bytes.flatMap fun b => fixedDigits 16 lowerDigit 2 b.toNat)

/-- Reads pairs of hexadecimal digits of either case. -/
def readBytes? : List Char → Option (List UInt8)
  | [] => some []
  | [_] => none
  | high :: low :: rest => do
    let h ← hexValue? high
    let l ← hexValue? low
    return UInt8.ofNat (16 * h + l) :: (← readBytes? rest)

end CanTransport.Text
