import CanTransport.Json.Printer
/-!
# Printing YAML

Maps take one line for each entry; maps inside are indented by two blanks. Anything else is written
on the line of its key.
-/

namespace CanTransport.Yaml

mutual

/-- The lines of one entry. -/
def entryLines (indent : Nat) (key : String) : Value → List String
  | .map [] => [String.ofList (List.replicate indent ' ') ++ key ++ ": \x7b\x7d"]
  | .map (entry :: entries) =>
    (String.ofList (List.replicate indent ' ') ++ key ++ ":")
      :: mapLines (indent + 2) (entry :: entries)
  | v => [String.ofList (List.replicate indent ' ') ++ key ++ ": " ++ Json.compact v]

/-- The lines of the entries of a map. -/
def mapLines (indent : Nat) : List (String × Value) → List String
  | [] => []
  | (key, v) :: rest => entryLines indent key v ++ mapLines indent rest

end

/-- The text of a map. -/
def print (entries : List (String × Value)) : String :=
  String.join ((mapLines 0 entries).map (· ++ "\n"))

end CanTransport.Yaml
