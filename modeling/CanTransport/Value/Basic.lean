/-!
# Values

The tree that JSON, YAML, TOML and environment variables are notations for, and in which
configurations, frames and statistics are exchanged.
-/

namespace CanTransport

/-- A tree of settings. Numbers that are not whole, or do not fit 64 bits, keep only their text. -/
inductive Value where
  | null
  | bool (b : Bool)
  | int (n : Int)
  | real (text : String)
  | str (s : String)
  | list (items : List Value)
  | map (fields : List (String × Value))
deriving Repr, BEq, Inhabited

namespace Value

/-- Entry of a key in a list of fields. -/
def find? (key : String) : List (String × Value) → Option Value
  | [] => none
  | (k, v) :: rest => if k = key then some v else find? key rest

/-- Sets the entry of a key, in its old place or behind all others. -/
def put (key : String) (value : Value) : List (String × Value) → List (String × Value)
  | [] => [(key, value)]
  | (k, v) :: rest => if k = key then (key, value) :: rest else (k, v) :: put key value rest

/-- Entry of a key, if the value is a map. -/
def get? (key : String) : Value → Option Value
  | .map fields => find? key fields
  | _ => none

/-- A whole number from zero to `limit`. -/
def nat? (limit : Nat) : Value → Option Nat
  | .int n => if 0 ≤ n ∧ n ≤ limit then some n.toNat else none
  | _ => none

def bool? : Value → Option Bool
  | .bool b => some b
  | _ => none

def str? : Value → Option String
  | .str s => some s
  | _ => none

def list? : Value → Option (List Value)
  | .list items => some items
  | _ => none

def ofNat (n : Nat) : Value := .int n

/-- Whether a whole number fits the unsigned or the signed 64-bit range. -/
def fits64 (n : Int) : Bool := -0x8000000000000000 ≤ n && n < 0x10000000000000000

/-- The entries of a structure with the given fields: by key from a map, in order from a list;
a list that is too long is refused when `exact` is set. -/
def fields? (names : List String) (exact : Bool) : Value → Option (List (Option Value))
  | .map entries => some (names.map fun name => find? name entries)
  | .list items =>
    if exact && items.length > names.length then none
    else some ((List.range names.length).map fun i => items[i]?)
  | _ => none

end Value

end CanTransport
