import CanTransport.Frame.Wire
import CanTransport.Reception.State
import CanTransport.Reception.Stats
/-!
# Reception

What a bus shares with its reception task: the listener, the counters, and the state that the task
publishes.
-/

namespace CanTransport

/-- The one to whom frames are handed. -/
structure Listener where
  /-- The log in which it records frames; without one it ignores them. -/
  log : Option String := none
  /-- The call, counted from one, that it does not survive. -/
  failsAt : Option Nat := none
  /-- Calls so far. -/
  calls : Nat := 0
deriving DecidableEq, Repr, Inhabited

/-- One call of a listener. -/
structure Delivery where
  /-- Which subscription the listener belongs to. -/
  subscription : Nat
  log : Option String
  frame : Frame
  /-- Whether the call returned. -/
  returned : Bool
deriving DecidableEq, Repr

structure Reception where
  listener : Listener := {}
  /-- Number of the listener's subscription; zero is the initial one. -/
  subscription : Nat := 0
  stats : Stats := {}
  /-- States published, the latest first. -/
  published : List ReceptionState := [.idle]
  /-- Calls of listeners, in order. -/
  deliveries : List Delivery := []
deriving DecidableEq, Repr, Inhabited

namespace Reception

def state (r : Reception) : ReceptionState := r.published.headD .idle

def publish (state : ReceptionState) (r : Reception) : Reception :=
  { r with published := state :: r.published }

/-- Installs a listener in place of the last one. -/
def subscribe (listener : Listener) (r : Reception) : Reception :=
  { r with listener := listener, subscription := r.subscription + 1 }

def count (change : Stats → Stats) (r : Reception) : Reception :=
  { r with stats := change r.stats }

/-- Counts a frame and hands it to the listener. -/
def deliver (frame : Frame) (r : Reception) : Bool × Reception :=
  let calls := r.listener.calls + 1
  let returned := r.listener.failsAt != some calls
  (returned, { r with
    stats := r.stats.countReceived
    listener := { r.listener with calls := calls }
    deliveries := r.deliveries ++ [{
      subscription := r.subscription, log := r.listener.log, frame := frame,
      returned := returned }] })

/-- Hands on a record, or drops it if it is no frame. Tells whether the listener returned. -/
def deliverWire (raw : Wire) (r : Reception) : Bool × Reception :=
  match Frame.ofWire raw with
  | .ok frame => r.deliver frame
  | .error _ => (true, r.count (Stats.countDropped 1))

/-- Publishes how a reception task ended. -/
def finish (outcome : Except Error Unit) (r : Reception) : Reception :=
  match outcome with
  | .ok () => r.publish .stopped
  | .error e => r.publish (.failed e.text)

end Reception

end CanTransport
