import CanTransport.Reception.Basic
/-!
# Following a bus

What wakes a dump, one thing after the other, and what it prints: every frame on a line, up to a
limit that is looked at behind each line, until reception fails.
-/

namespace CanTransport.Probe

/-- What wakes a dump. -/
inductive Wake where
  | frame (frame : Frame)
  | state (state : ReceptionState)
  /-- Nobody is left to publish states. -/
  | closed
  | shutdown
deriving DecidableEq, Repr

/-- How a dump ends. -/
inductive Ending where
  | done
  | failed (reason : String)
  /-- It still waits. -/
  | pending
deriving DecidableEq, Repr

/-- The frames that are printed, and the end, when `printed` frames have been printed before. -/
def follow (limit : Option Nat) : Nat → List Wake → List Frame × Ending
  | _, [] => ([], .pending)
  | printed, .frame frame :: rest =>
    if limit.any (· ≤ printed + 1) then ([frame], .done)
    else
      let (frames, ending) := follow limit (printed + 1) rest
      (frame :: frames, ending)
  | _, .state (.failed reason) :: _ => ([], .failed reason)
  | printed, .state _ :: rest => follow limit printed rest
  | _, .closed :: _ => ([], .done)
  | _, .shutdown :: _ => ([], .done)

/-- What a bus has for a dump: the frames handed to its listener, then the state it is in. -/
def wakes (r : Reception) : List Wake :=
  (r.deliveries.map fun d => .frame d.frame) ++ [.state r.state]

end CanTransport.Probe
