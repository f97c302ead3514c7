import CanTransport.Env.Value
/-!
# Settings from environment variables

Variables whose names begin with a prefix, in either case, set values. The rest of the name is the
path of the value: its parts are separated by double underscores, or by points.
-/

namespace CanTransport.Env

/-- An ASCII letter in lower case. -/
def lower (c : Char) : Char := if 'A' ≤ c ∧ c ≤ 'Z' then Char.ofNat (c.toNat + 32) else c

/-- A text with a point for every two underscores. -/
def markPaths : List Char → List Char
  | '_' :: '_' :: rest => '.' :: markPaths rest
  | c :: rest => c :: markPaths rest
  | [] => []

/-- The parts of a text between points. -/
def splitPath : List Char → List (List Char)
  | [] => [[]]
  | c :: rest =>
    if c = '.' then [] :: splitPath rest
    else
      match splitPath rest with
      | [] => [[c]]
      | part :: parts => (c :: part) :: parts

/-- The path of a variable's name, if it begins with a prefix in lower case. -/
def path? (start : String) (name : String) : Option (List String) :=
  let lowered := name.toList.map lower
  if start.toList.isPrefixOf lowered then
    let parts := splitPath (trim (markPaths (lowered.drop start.length)))
    if parts.any List.isEmpty then none else some (parts.map String.ofList)
  else none

/-- A value inside maps along a path. -/
def nest : List String → Value → Value
  | [], v => v
  | key :: path, v => .map [(key, nest path v)]

end CanTransport.Env
