import CanTransport.Frame.Wire
import CanTransport.Kernel.Memory
import CanTransport.Ring.Geometry
/-!
# Ring slots

A slot starts with a status word, which says who owns it. Behind it lie, among fields that nobody
reads, the length and the place of the packet and the kind of its sender.
-/

namespace CanTransport

namespace Slot

/-- Status bit of a slot that belongs to the reader. -/
def userBit : Nat := 1
/-- Status bit of a slot before which packets were lost. -/
def losingBit : Nat := 4

/-- Places of the fields, counted from the start of the slot. -/
def lengthField : Nat := 8
def placeField : Nat := 12
def kindField : Nat := 42

/-- Kind of the copy of a packet that this machine sends. -/
def outgoing : UInt8 := 4

/-- What lies in a slot with a header in bounds. -/
inductive Packet where
  /-- A whole record and the kind of its sender. -/
  | record (raw : Wire) (kind : UInt8)
  /-- A packet of another length. -/
  | unsupported (length : Nat)
deriving DecidableEq, Repr

/-- Sixteen bytes of memory. -/
def wireAt (m : Memory) (address : Nat) : Wire := Vector.ofFn fun i => m.read (address + i)

/-- The packet of the slot of `size` bytes at `base`, unless its header points outside. -/
def packet? (m : Memory) (size base : Nat) : Option Packet :=
  let length := m.readNumber (base + lengthField) 4
  let place := m.readNumber (base + placeField) 2
  if place < kindField ∨ place + length > size then none
  else if length ≠ wireSize then some (.unsupported length)
  else some (.record (wireAt m (base + place)) (m.read (base + kindField)))

def status (m : Memory) (base : Nat) : Nat := m.readNumber base 4

def setStatus (m : Memory) (base status : Nat) : Memory := m.writeNumber base 4 status

/-- Whether a status has a bit; `bit` is a power of two. -/
def hasBit (status bit : Nat) : Bool := status / bit % 2 == 1

/-- What the other side puts into a slot. -/
structure Content where
  data : List UInt8
  status : Nat := 1
  length : Nat := 16
  place : Nat := 66
  kind : UInt8 := 1
deriving Repr

/-- Fills the slot of `size` bytes at `base`; the status comes last. Data that do not fit are left
out. -/
def fill (m : Memory) (size base : Nat) (c : Content) : Memory :=
  let m := m.writeNumber (base + lengthField) 4 c.length
  let m := m.writeNumber (base + placeField) 2 c.place
  let m := m.write (base + kindField) c.kind
  let m := if c.place + c.data.length ≤ size then m.writeBytes (base + c.place) c.data else m
  setStatus m base c.status

end Slot

end CanTransport
