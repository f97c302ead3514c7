import CanTransport.Config.Basic
import CanTransport.Value.Basic
/-!
# Configurations as values

Every setting is optional and has its default. Unknown keys do not matter; a list gives the
settings of a structure in their order.
-/

namespace CanTransport

namespace BatchConfig

def toValue (b : BatchConfig) : Value :=
  .map [("size", .ofNat b.size.toNat), ("timeout_ms", .ofNat b.timeoutMs.toNat)]

end BatchConfig

namespace RingConfig

def toValue (r : RingConfig) : Value :=
  .map [
    ("block_size", .ofNat r.blockSize.toNat),
    ("block_count", .ofNat r.blockCount.toNat),
    ("frame_size", .ofNat r.frameSize.toNat),
    ("poll_interval_ms", .ofNat r.pollIntervalMs.toNat)]

end RingConfig

namespace BusConfig

/-- The settings by name. -/
def fields (c : BusConfig) : List (String × Value) := [
  ("read_timeout_ms", .ofNat c.readTimeoutMs.toNat),
  ("receive_own_messages", .bool c.receiveOwnMessages),
  ("loopback", .bool c.loopback),
  ("batch", c.batch.toValue),
  ("ring", c.ring.toValue),
  ("listener_capacity", .ofNat c.listenerCapacity.toNat)]

def toValue (c : BusConfig) : Value := .map c.fields

end BusConfig

namespace Value

/-- A word of 64 bits. -/
def word? (v : Value) : Option UInt64 := (v.nat? 0xFFFFFFFFFFFFFFFF).map UInt64.ofNat

/-- An optional setting: its default if it is not given. -/
def setting {α : Type} (read? : Value → Option α) (default : α) : Option Value → Option α
  | none => some default
  | some v => read? v

end Value

/-- Reads a structure from its fields; `exact` refuses lists that are too long. -/
def BatchConfig.ofValue? (exact : Bool) (v : Value) : Option BatchConfig :=
  let d : BatchConfig := {}
  match v.fields? ["size", "timeout_ms"] exact with
  | some [size, timeout] => do
    return {
      size := ← Value.setting Value.word? d.size size
      timeoutMs := ← Value.setting Value.word? d.timeoutMs timeout }
  | _ => none

def RingConfig.ofValue? (exact : Bool) (v : Value) : Option RingConfig :=
  let d : RingConfig := {}
  match v.fields? ["block_size", "block_count", "frame_size", "poll_interval_ms"] exact with
  | some [blockSize, blockCount, frameSize, pollInterval] => do
    return {
      blockSize := ← Value.setting Value.word? d.blockSize blockSize
      blockCount := ← Value.setting Value.word? d.blockCount blockCount
      frameSize := ← Value.setting Value.word? d.frameSize frameSize
      pollIntervalMs := ← Value.setting Value.word? d.pollIntervalMs pollInterval }
  | _ => none

def BusConfig.ofValue? (exact : Bool) (v : Value) : Option BusConfig :=
  let d : BusConfig := {}
  match v.fields? ["read_timeout_ms", "receive_own_messages", "loopback", "batch", "ring",
      "listener_capacity"] exact with
  | some [readTimeout, receiveOwn, loopback, batch, ring, capacity] => do
    return {
      readTimeoutMs := ← Value.setting Value.word? d.readTimeoutMs readTimeout
      receiveOwnMessages := ← Value.setting Value.bool? d.receiveOwnMessages receiveOwn
      loopback := ← Value.setting Value.bool? d.loopback loopback
      batch := ← Value.setting (BatchConfig.ofValue? exact) d.batch batch
      ring := ← Value.setting (RingConfig.ofValue? exact) d.ring ring
      listenerCapacity := ← Value.setting Value.word? d.listenerCapacity capacity }
  | _ => none

end CanTransport
