import CanTransport.Config.Basic
import CanTransport.Error
/-!
# Ring geometry

A region of memory is cut into blocks and each block into slots. Slots are numbered through the
region, and the numbers go round.
-/

namespace CanTransport

structure Geometry where
  blockSize : Nat
  slotSize : Nat
  slotsPerBlock : Nat
  slotCount : Nat
deriving DecidableEq, Repr, Inhabited

namespace Geometry

/-- The part of a slot in front of every packet: header and link address. -/
def headerSize : Nat := 32

/-- The geometry of a configuration over a region of `length` bytes. -/
def ofConfig (ring : RingConfig) (length : Nat) : Except Error Geometry :=
  if ring.frameSize.toNat < headerSize + 16 ∨ ring.framesPerBlock = 0
      ∨ length < ring.regionSize.toNat then
    .error (.config ("ring geometry does not fit a region of " ++ Text.decimal length ++ " bytes"))
  else .ok {
    blockSize := ring.blockSize.toNat
    slotSize := ring.frameSize.toNat
    slotsPerBlock := ring.framesPerBlock.toNat
    slotCount := ring.frameCount.toNat }

/-- The geometry of a configuration over the `length` bytes from an address on. Status words lie
on multiples of four bytes. -/
def ofRegion (base length : Nat) (ring : RingConfig) : Except Error Geometry :=
  if base = 0 then .error (.config "ring region base is null")
  else if base % 4 ≠ 0 then .error (.config "ring region is not 4-byte aligned")
  else ofConfig ring length

/-- Where a slot starts. -/
def offset (g : Geometry) (index : Nat) : Nat :=
  let index := index % g.slotCount
  index / g.slotsPerBlock * g.blockSize + index % g.slotsPerBlock * g.slotSize

end Geometry

/-- The numbers with which a ring is requested; each has 32 bits. -/
structure RingRequest where
  blockSize : UInt32
  blockCount : UInt32
  slotSize : UInt32
  slotCount : UInt32
deriving DecidableEq, Repr

/-- A number as a field of a ring request. -/
def RingRequest.field (name : String) (n : UInt64) : Except Error UInt32 :=
  if n.toNat < 0x100000000 then .ok (UInt32.ofNat n.toNat)
  else .error (.config ("ring." ++ name ++ " " ++ Text.decimal n.toNat ++ " is too large"))

def RingConfig.request (ring : RingConfig) : Except Error RingRequest := do
  return {
    blockSize := ← RingRequest.field "block_size" ring.blockSize
    blockCount := ← RingRequest.field "block_count" ring.blockCount
    slotSize := ← RingRequest.field "frame_size" ring.frameSize
    slotCount := ← RingRequest.field "frame_count" ring.frameCount }

end CanTransport
