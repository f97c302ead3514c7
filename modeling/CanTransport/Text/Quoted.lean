import CanTransport.Text.Digits
import CanTransport.Text.Invisible
/-!
# Quoted text

A string between quotes in which nothing is hidden: quotes, backslashes and the common controls
get a backslash, every other character without a visible form its code point in braces.
-/

namespace CanTransport.Text

/-- The form of one character between quotes. -/
def escape (c : Char) : List Char :=
  match c with
  | '\"' => ['\\', '\"']
  | '\\' => ['\\', '\\']
  | '\n' => ['\\', 'n']
  | '\r' => ['\\', 'r']
  | '\t' => ['\\', 't']
  | '\x00' => ['\\', '0']
  | c => if isInvisible c then ['\\', 'u', '\x7b'] ++ (lowerHex c.toNat).toList ++ ['\x7d'] else [c]

/-- The quoted form of a string. -/
def quoted (s : String) : String :=
  String.ofList ('\"' :: s.toList.flatMap escape ++ ['\"'])

/-- A list between brackets, its items in their own form. -/
def bracketed (items : List String) : String :=
  "[" ++ ", ".intercalate items ++ "]"

/-- A record: its name, then its fields between braces, each with its name. -/
def record (name : String) (fields : List (String × String)) : String :=
  name ++ " \x7b " ++ ", ".intercalate (fields.map fun (field, value) => field ++ ": " ++ value)
    ++ " \x7d"

/-- A truth value. -/
def truth (b : Bool) : String := if b then "true" else "false"

end CanTransport.Text
