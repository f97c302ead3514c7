import CanTransport.Ring.Slot
/-!
# Sweeps

A sweep walks over the reader's slots in ring order from a cursor, until it meets a slot of the
other side or has gone round once. At each slot it looks, hands on the packet, gives the slot back,
and moves on; the other side may fill slots between any two of these.
-/

namespace CanTransport

/-- A sweep on its way. -/
structure Sweep where
  cursor : Nat
  /-- Slots passed. -/
  consumed : Nat := 0
  /-- Whether one of them said that packets were lost. -/
  losing : Bool := false
deriving DecidableEq, Repr, Inhabited

namespace Sweep

/-- Where the slot under the cursor starts. -/
def base (g : Geometry) (s : Sweep) : Nat := g.offset s.cursor

/-- The packet under the cursor, or nothing if the sweep is over. -/
def look (g : Geometry) (m : Memory) (s : Sweep) : Option (Option Slot.Packet × Sweep) :=
  if s.consumed < g.slotCount then
    let status := Slot.status m (s.base g)
    if Slot.hasBit status Slot.userBit then
      some (Slot.packet? m g.slotSize (s.base g),
        { s with losing := s.losing || Slot.hasBit status Slot.losingBit })
    else none
  else none

/-- Gives the slot under the cursor back. -/
def release (g : Geometry) (m : Memory) (s : Sweep) : Memory := Slot.setStatus m (s.base g) 0

def advance (g : Geometry) (s : Sweep) : Sweep :=
  { s with cursor := (s.cursor + 1) % g.slotCount, consumed := s.consumed + 1 }

/-- Whether the sweep went round, so that more may be waiting. -/
def isRevolution (g : Geometry) (s : Sweep) : Bool := s.consumed == g.slotCount

/-- At most `steps` slots of a sweep without interference: the packets, the memory and the sweep
afterwards. -/
def run (g : Geometry) : Nat → Memory → Sweep → List (Option Slot.Packet) × Memory × Sweep
  | 0, m, s => ([], m, s)
  | steps + 1, m, s =>
    match s.look g m with
    | none => ([], m, s)
    | some (packet, s) =>
      let (packets, m, s) := run g steps (s.release g m) (s.advance g)
      (packet :: packets, m, s)

end Sweep

/-- A whole sweep without interference. -/
def sweep (g : Geometry) (m : Memory) (cursor : Nat) : List (Option Slot.Packet) × Memory × Sweep :=
  Sweep.run g g.slotCount m { cursor }

end CanTransport
