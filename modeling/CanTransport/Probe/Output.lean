import CanTransport.Json.Printer
import CanTransport.Reception.Stats
/-!
# Output of the probe

Coloured words, counters, and reports of errors with their causes.
-/

namespace CanTransport.Probe

inductive Style where
  | green
  | cyan
  | yellow
  | red
  | bold
deriving DecidableEq, Repr

def Style.code : Style → String
  | green => "32"
  | cyan => "36"
  | yellow => "33"
  | red => "31"
  | bold => "1"

/-- A word in a style, if styles are wanted. -/
def styled (colors : Bool) (style : Style) (word : String) : String :=
  if colors then "\x1b[" ++ style.code ++ "m" ++ word ++ "\x1b[0m" else word

/-- Whether styles are wanted: output is no terminal, so they have to be forced. -/
def wantsColors (noColor : Bool) (environment : List (String × String)) : Bool :=
  !noColor && (environment.lookup "CLICOLOR_FORCE").any (· != "0")

/-- The counters for a reader. -/
def statsText (colors : Bool) (s : Stats) : String :=
  let count (n : UInt64) : String := Text.decimal n.toNat
  "\n" ++ styled colors .bold "Statistics" ++ "\n"
    ++ "  received        " ++ count s.received ++ "\n"
    ++ "  sent            " ++ count s.sent ++ "\n"
    ++ "  dropped         "
    ++ (if s.dropped > 0 then styled colors .yellow (count s.dropped) else "0") ++ "\n"
    ++ (if s.errors > 0 then
      "  receive errors  " ++ styled colors .red (count s.errors) ++ "\n" else "")

/-- The counters for a program. -/
def statsJson (s : Stats) : String := Json.pretty 0 s.toValue ++ "\n"

/-- A text whose further lines are indented. -/
def indented (blank : String) (text : String) : String :=
  ("\n" ++ blank).intercalate (text.splitOn "\n")

/-- A number of up to five places, the blanks in front. -/
def padded (n : Nat) : String :=
  let digits := Text.decimal n
  String.ofList (List.replicate (5 - digits.length) ' ') ++ digits

/-- Causes with their numbers. -/
def numbered : Nat → List String → String
  | _, [] => ""
  | n, cause :: rest =>
    "\n" ++ padded n ++ ": " ++ indented "       " cause ++ numbered (n + 1) rest

/-- The report of an error and its causes. -/
def report : List String → String
  | [] => ""
  | [message] => "Error: " ++ message ++ "\n"
  | [message, cause] =>
    "Error: " ++ message ++ "\n\nCaused by:\n    " ++ indented "    " cause ++ "\n"
  | message :: causes =>
    "Error: " ++ message ++ "\n\nCaused by:" ++ numbered 0 causes ++ "\n"

end CanTransport.Probe
