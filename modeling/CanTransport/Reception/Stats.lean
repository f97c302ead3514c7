import CanTransport.Text.Quoted
import CanTransport.Value.Basic
/-!
# Statistics

Four counters of 64 bits for each bus, which wrap.
-/

namespace CanTransport

structure Stats where
  /-- Frames that were accepted for transmission. -/
  sent : UInt64 := 0
  /-- Frames handed to the listener. -/
  received : UInt64 := 0
  /-- Records that were no frames, and frames lost on the way to this bus. -/
  dropped : UInt64 := 0
  /-- Receive calls that failed otherwise than by a timeout. -/
  errors : UInt64 := 0
deriving DecidableEq, Repr, Inhabited

namespace Stats

def countSent (s : Stats) : Stats := { s with sent := s.sent + 1 }
def countReceived (s : Stats) : Stats := { s with received := s.received + 1 }
def countDropped (n : Nat) (s : Stats) : Stats := { s with dropped := s.dropped + UInt64.ofNat n }
def countError (s : Stats) : Stats := { s with errors := s.errors + 1 }

/-- The counters by name. -/
def fields (s : Stats) : List (String × UInt64) := [
  ("frames_sent", s.sent),
  ("frames_received", s.received),
  ("frames_dropped", s.dropped),
  ("receive_errors", s.errors)]

def describe (s : Stats) : String :=
  Text.record "BusStats" (s.fields.map fun (name, n) => (name, Text.decimal n.toNat))

def toValue (s : Stats) : Value :=
  .map (s.fields.map fun (name, n) => (name, .ofNat n.toNat))

/-- All four counters are required. -/
def ofValue? (v : Value) : Option Stats :=
  let count := Value.nat? 0xFFFFFFFFFFFFFFFF
  match v.fields? ["frames_sent", "frames_received", "frames_dropped", "receive_errors"] true with
  | some [some sent, some received, some dropped, some errors] => do
    return {
      sent := UInt64.ofNat (← count sent)
      received := UInt64.ofNat (← count received)
      dropped := UInt64.ofNat (← count dropped)
      errors := UInt64.ofNat (← count errors) }
  | _ => none

end Stats

end CanTransport
