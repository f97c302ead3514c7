import CanTransport.Error
import CanTransport.Text.Quoted
/-!
# Configuration

The settings of a bus, what is derived from them, and the conditions under which a bus can be made
with them. All numbers are words of 64 bits; what is derived from them wraps.
-/

namespace CanTransport

/-- Settings of batched reception. -/
structure BatchConfig where
  /-- Most records of one receive call. -/
  size : UInt64 := 64
  timeoutMs : UInt64 := 10
deriving DecidableEq, Repr, Inhabited

/-- Settings of reception through a mapped ring. -/
structure RingConfig where
  blockSize : UInt64 := 4096
  blockCount : UInt64 := 64
  /-- Bytes of one slot. -/
  frameSize : UInt64 := 128
  /-- Pause between two sweeps of a drained ring. -/
  pollIntervalMs : UInt64 := 10
deriving DecidableEq, Repr, Inhabited

/-- Settings of a bus. -/
structure BusConfig where
  readTimeoutMs : UInt64 := 100
  /-- Deliver the frames that a bus sends to its own listener. -/
  receiveOwnMessages : Bool := false
  /-- Let other sockets of this machine receive what a bus sends. -/
  loopback : Bool := true
  batch : BatchConfig := {}
  ring : RingConfig := {}
  /-- Frames that a virtual channel holds for a slow receiver. -/
  listenerCapacity : UInt64 := 1024
deriving DecidableEq, Repr, Inhabited

/-- Bytes of a memory page. -/
def pageSize : UInt64 := 4096
/-- Least bytes of a slot: both headers and one record. -/
def minSlotSize : UInt64 := 96
/-- Slot sizes are multiples of this. -/
def slotAlignment : UInt64 := 16
/-- Most records of one receive call. -/
def maxBatchSize : UInt64 := 1024

namespace RingConfig

def framesPerBlock (r : RingConfig) : UInt64 := r.blockSize / r.frameSize
def frameCount (r : RingConfig) : UInt64 := r.framesPerBlock * r.blockCount
def regionSize (r : RingConfig) : UInt64 := r.blockSize * r.blockCount

end RingConfig

/-- Why no bus can be made with a configuration. -/
inductive ConfigFault where
  | readTimeout
  | batchSize (size : UInt64)
  | batchTimeout
  | listenerCapacity
  | blockSize (size : UInt64)
  | blockCount
  | slotSize (size : UInt64)
  | slotsPerBlock (slotSize blockSize : UInt64)
  | pollInterval
deriving DecidableEq, Repr

def ConfigFault.text : ConfigFault → String
  | .readTimeout => "read_timeout_ms must be greater than zero"
  | .batchSize n => "batch.size " ++ Text.decimal n.toNat ++ " must be within 1..=1024"
  | .batchTimeout => "batch.timeout_ms must be greater than zero"
  | .listenerCapacity => "listener_capacity must be greater than zero"
  | .blockSize n => "ring.block_size " ++ Text.decimal n.toNat
      ++ " must be a non-zero multiple of the page size 4096"
  | .blockCount => "ring.block_count must be greater than zero"
  | .slotSize n => "ring.frame_size " ++ Text.decimal n.toNat
      ++ " must be a multiple of 16 and at least 96"
  | .slotsPerBlock n block => "ring.frame_size " ++ Text.decimal n.toNat
      ++ " must divide ring.block_size " ++ Text.decimal block.toNat
  | .pollInterval => "ring.poll_interval_ms must be greater than zero"

def RingConfig.validate (r : RingConfig) : Except ConfigFault Unit :=
  if r.blockSize = 0 ∨ r.blockSize % pageSize ≠ 0 then .error (.blockSize r.blockSize)
  else if r.blockCount = 0 then .error .blockCount
  else if r.frameSize < minSlotSize ∨ r.frameSize % slotAlignment ≠ 0 then
    .error (.slotSize r.frameSize)
  else if r.blockSize % r.frameSize ≠ 0 then .error (.slotsPerBlock r.frameSize r.blockSize)
  else if r.pollIntervalMs = 0 then .error .pollInterval
  else .ok ()

/-- The first condition that a configuration violates. -/
def BusConfig.validate (c : BusConfig) : Except ConfigFault Unit :=
  if c.readTimeoutMs = 0 then .error .readTimeout
  else if c.batch.size = 0 ∨ c.batch.size > maxBatchSize then .error (.batchSize c.batch.size)
  else if c.batch.timeoutMs = 0 then .error .batchTimeout
  else if c.listenerCapacity = 0 then .error .listenerCapacity
  else c.ring.validate

/-- Validation with the error that users see. -/
def BusConfig.check (c : BusConfig) : Except Error Unit :=
  c.validate.mapError fun fault => .config fault.text

def BatchConfig.describe (b : BatchConfig) : String :=
  Text.record "BatchConfig" [
    ("size", Text.decimal b.size.toNat),
    ("timeout_ms", Text.decimal b.timeoutMs.toNat)]

def RingConfig.describe (r : RingConfig) : String :=
  Text.record "RingConfig" [
    ("block_size", Text.decimal r.blockSize.toNat),
    ("block_count", Text.decimal r.blockCount.toNat),
    ("frame_size", Text.decimal r.frameSize.toNat),
    ("poll_interval_ms", Text.decimal r.pollIntervalMs.toNat)]

def BusConfig.describe (c : BusConfig) : String :=
  Text.record "BusConfig" [
    ("read_timeout_ms", Text.decimal c.readTimeoutMs.toNat),
    ("receive_own_messages", Text.truth c.receiveOwnMessages),
    ("loopback", Text.truth c.loopback),
    ("batch", c.batch.describe),
    ("ring", c.ring.describe),
    ("listener_capacity", Text.decimal c.listenerCapacity.toNat)]

end CanTransport
