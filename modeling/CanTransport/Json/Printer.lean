import CanTransport.Text.Digits
import CanTransport.Value.Basic
/-!
# Writing JSON

On one line, or with one entry on each line and two spaces for each level.
-/

namespace CanTransport.Json

def escapeChar (c : Char) : List Char :=
  match c with
  | '\"' => ['\\', '\"']
  | '\\' => ['\\', '\\']
  | '\n' => ['\\', 'n']
  | '\r' => ['\\', 'r']
  | '\t' => ['\\', 't']
  | '\x08' => ['\\', 'b']
  | '\x0c' => ['\\', 'f']
  | c => if c.toNat < 0x20 then '\\' :: 'u' :: Text.fixedDigits 16 Text.lowerDigit 4 c.toNat else [c]

def string (s : String) : String :=
  String.ofList ('\"' :: s.toList.flatMap escapeChar ++ ['\"'])

def number (n : Int) : String :=
  match n with
  | .ofNat k => Text.decimal k
  | .negSucc k => "-" ++ Text.decimal (k + 1)

mutual
/-- A value on one line. -/
def compact : Value → String
  | .null => "null"
  | .bool b => if b then "true" else "false"
  | .int n => number n
  | .real text => text
  | .str s => string s
  | .list items => "[" ++ ",".intercalate (compactItems items) ++ "]"
  | .map fields => "\x7b" ++ ",".intercalate (compactFields fields) ++ "\x7d"

def compactItems : List Value → List String
  | [] => []
  | v :: rest => compact v :: compactItems rest

def compactFields : List (String × Value) → List String
  | [] => []
  | (key, v) :: rest => (string key ++ ":" ++ compact v) :: compactFields rest
end

/-- Joins entries that stand on lines of their own between brackets. -/
def layOut (opening closing : String) (level : Nat) (entries : List String) : String :=
  let blank := fun n => String.ofList (List.replicate (2 * n) ' ')
  if entries = [] then opening ++ closing
  else opening ++ "\n" ++ ",\n".intercalate (entries.map (blank (level + 1) ++ ·))
    ++ "\n" ++ blank level ++ closing

mutual
/-- A value with one entry on each line. -/
def pretty (level : Nat) : Value → String
  | .null => "null"
  | .bool b => if b then "true" else "false"
  | .int n => number n
  | .real text => text
  | .str s => string s
  | .list items => layOut "[" "]" level (prettyItems (level + 1) items)
  | .map fields => layOut "\x7b" "\x7d" level (prettyFields (level + 1) fields)

def prettyItems (level : Nat) : List Value → List String
  | [] => []
  | v :: rest => pretty level v :: prettyItems level rest

def prettyFields (level : Nat) : List (String × Value) → List String
  | [] => []
  | (key, v) :: rest => (string key ++ ": " ++ pretty level v) :: prettyFields level rest
end

end CanTransport.Json
