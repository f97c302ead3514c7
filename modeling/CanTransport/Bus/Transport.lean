/-!
# Transports

The five ways in which a bus receives.
-/

namespace CanTransport

inductive Transport where
  /-- One blocking receive call for each record. -/
  | blocking
  /-- Waits for a readable socket and for cancellation at once. -/
  | cancellable
  /-- Takes several records in one call. -/
  | batched
  /-- Sweeps the slots of a mapped ring. -/
  | ring
  /-- A queue inside the process. -/
  | virtual
deriving DecidableEq, Repr, Inhabited

namespace Transport

def name : Transport → String
  | blocking => "socketcan-blocking"
  | cancellable => "socketcan"
  | batched => "socketcan-batch"
  | ring => "socketcan-ring"
  | virtual => "virtual"

def all : List Transport := [virtual, blocking, cancellable, batched, ring]

/-- Whether reception has a thread of its own. -/
def isThreaded : Transport → Bool
  | blocking | batched => true
  | _ => false

end Transport

end CanTransport
