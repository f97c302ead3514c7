import CanTransport.Frame.Basic
import CanTransport.Value.Basic
/-!
# Frames as values

A frame is exchanged as a structure of its four stored fields, all of them required. A length
above eight is refused after everything else has been read.
-/

namespace CanTransport.Frame

/-- The value of a frame. -/
def toValue (frame : Frame) : Value :=
  .map [
    ("id", .ofNat frame.rawId.toNat),
    ("flags", .ofNat frame.flags.toNat),
    ("dlc", .ofNat frame.dlc),
    ("data", .list (frame.rawData.toList.map fun b => .ofNat b.toNat))]

/-- Why a value is not a frame. -/
inductive ValueFault where
  /-- A field is missing or has the wrong type. -/
  | shape
  | parts (fault : FrameFault)
deriving DecidableEq, Repr

/-- A list of exactly eight bytes. -/
def rawDataOf? (v : Value) : Option (Vector UInt8 8) := do
  let bytes ← (← v.list?).mapM fun item => (item.nat? 255).map UInt8.ofNat
  if h : bytes.toArray.size = 8 then some ⟨bytes.toArray, h⟩ else none

/-- The four fields of a value. -/
def fieldsOf? (v : Value) : Option (UInt32 × UInt8 × Nat × Vector UInt8 8) :=
  match v.fields? ["id", "flags", "dlc", "data"] true with
  | some [some id, some flags, some dlc, some data] => do
    let id ← id.nat? 0xFFFFFFFF
    let flags ← flags.nat? 255
    let dlc ← dlc.nat? 255
    let data ← rawDataOf? data
    return (UInt32.ofNat id, UInt8.ofNat flags, dlc, data)
  | _ => none

/-- The frame of a value. -/
def ofValue (v : Value) : Except ValueFault Frame :=
  match fieldsOf? v with
  | none => .error .shape
  | some (id, flags, dlc, data) => (ofFields id flags dlc data).mapError .parts

end CanTransport.Frame
