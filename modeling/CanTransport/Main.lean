import CanTransport.Probe.Run
/-!
# The probe as a program

Reads the arguments, the environment and the configuration file, and prints what the run leaves
behind.
-/

namespace CanTransport.Probe

/-- The name and the value of a variable. -/
def setting? (entry : String) : Option (String × String) :=
  match entry.splitOn "=" with
  | name :: part :: parts => some (name, "=".intercalate (part :: parts))
  | _ => none

/-- The environment of the process; empty where it cannot be read. -/
def environment : IO (List (String × String)) := do
  match ← (IO.FS.readFile "/proc/self/environ").toBaseIO with
  | .ok text => return (text.splitOn "\x00").filterMap setting?
  | .error _ => return []

/-- The content of a file, if it can be read. -/
def content? (path : String) : IO (Option String) := do
  match ← (IO.FS.readFile path).toBaseIO with
  | .ok text => return some text
  | .error _ => return none

/-- Runs a command line. -/
def perform (args : List String) : IO Result := do
  let settings ← environment
  match Invocation.ofArguments settings args with
  | .error refusal => return .refused refusal
  | .ok invocation =>
    let content ← match invocation.configPath with
      | none => pure none
      | some path => content? path
    return invocation.run settings content {}

end CanTransport.Probe

def main (args : List String) : IO UInt32 := do
  let result ← CanTransport.Probe.perform args
  IO.print result.stdout
  IO.eprint result.stderr
  return UInt32.ofNat result.code
