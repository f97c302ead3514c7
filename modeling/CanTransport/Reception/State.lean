import CanTransport.Text.Quoted
import CanTransport.Value.Basic
/-!
# Reception state

What a transport publishes about its reception task.
-/

namespace CanTransport

inductive ReceptionState where
  /-- Never connected. -/
  | idle
  | running
  /-- The task returned because it was told to. -/
  | stopped
  /-- The task returned because of an error, whose text is kept. -/
  | failed (reason : String)
deriving DecidableEq, Repr, Inhabited

namespace ReceptionState

def isRunning : ReceptionState → Bool
  | .running => true
  | _ => false

/-- Whether the task behind the state has returned. -/
def isTerminal : ReceptionState → Bool
  | .stopped | .failed _ => true
  | _ => false

def describe : ReceptionState → String
  | .idle => "Idle"
  | .running => "Running"
  | .stopped => "Stopped"
  | .failed reason => "Failed(" ++ Text.quoted reason ++ ")"

def toValue : ReceptionState → Value
  | .failed reason => .map [("Failed", .str reason)]
  | state => .str state.describe

/-- The state without a reason that has the given name. -/
def ofName? : String → Option ReceptionState
  | "Idle" => some .idle
  | "Running" => some .running
  | "Stopped" => some .stopped
  | _ => none

/-- A state is its name, or a map from its name to what it carries. -/
def ofValue? : Value → Option ReceptionState
  | .str name => ofName? name
  | .map [("Failed", .str reason)] => some (.failed reason)
  | .map [(name, .null)] => ofName? name
  | _ => none

end ReceptionState

end CanTransport
