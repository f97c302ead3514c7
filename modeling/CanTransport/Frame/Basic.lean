import CanTransport.Error
import CanTransport.Text.Quoted
/-!
# CAN frames

One classic CAN 2.0 message. The identifier word carries 29 identifier bits and the three format
bits; at most eight data bytes count, the others are kept but mean nothing.
-/

namespace CanTransport

/-- The extended-format bit of an identifier word. -/
def extendedBit : UInt32 := 0x80000000
/-- The remote-request bit of an identifier word. -/
def remoteBit : UInt32 := 0x40000000
/-- The error-message bit of an identifier word. -/
def errorBit : UInt32 := 0x20000000
/-- The identifier bits of a standard frame. -/
def standardMask : UInt32 := 0x000007FF
/-- The identifier bits of an extended frame. -/
def extendedMask : UInt32 := 0x1FFFFFFF
/-- Most data bytes of a classic frame. -/
def maxDataLength : Nat := 8

/-- One CAN message. -/
structure Frame where
  rawId : UInt32
  flags : UInt8
  dlc : Nat
  rawData : Vector UInt8 8
  dlc_le : dlc ≤ 8
deriving DecidableEq, Repr

/-- Why the parts of a frame do not make a frame. -/
inductive FrameFault where
  | standardRange (id : UInt32)
  | extendedRange (id : UInt32)
  | remoteLength (dlc : Nat)
  | dataLength (bytes : Nat)
  | dlcRange (dlc : Nat)
deriving DecidableEq, Repr

def FrameFault.text : FrameFault → String
  | .standardRange id => "CAN ID 0x" ++ Text.upperHex id.toNat ++ " exceeds 29 bits"
  | .extendedRange id => "Extended CAN ID 0x" ++ Text.upperHex id.toNat ++ " exceeds 29 bits"
  | .remoteLength dlc => "RTR length " ++ Text.decimal dlc ++ " exceeds 8"
  | .dataLength n => "CAN 2.0 data must be <= 8 bytes, got " ++ Text.decimal n
  | .dlcRange dlc => "DLC " ++ Text.decimal dlc ++ " exceeds 8"

def FrameFault.toError (fault : FrameFault) : Error := .invalidFrame fault.text

namespace Frame

/-- The first eight of some bytes, zeros behind them. -/
def padded (data : List UInt8) : Vector UInt8 8 := Vector.ofFn fun i => data.getD i 0

/-- A frame from an identifier word with its format bits, flags and data. -/
def ofRaw (rawId : UInt32) (flags : UInt8) (data : List UInt8) : Except FrameFault Frame :=
  if h : data.length ≤ 8 then .ok ⟨rawId, flags, data.length, padded data, h⟩
  else .error (.dataLength data.length)

/-- A frame from all of its stored fields. -/
def ofFields (rawId : UInt32) (flags : UInt8) (dlc : Nat) (rawData : Vector UInt8 8) :
    Except FrameFault Frame :=
  if h : dlc ≤ 8 then .ok ⟨rawId, flags, dlc, rawData, h⟩ else .error (.dlcRange dlc)

/-- A data frame; an identifier of more than eleven bits makes it extended. -/
def new (id : UInt32) (data : List UInt8) : Except FrameFault Frame :=
  if id > extendedMask then .error (.standardRange id)
  else ofRaw (if id > standardMask then id ||| extendedBit else id) 0 data

/-- A data frame in extended format. -/
def extended (id : UInt32) (data : List UInt8) : Except FrameFault Frame :=
  if id > extendedMask then .error (.extendedRange id)
  else ofRaw (id ||| extendedBit) 0 data

/-- The request that another node send `dlc` bytes. -/
def remote (id : UInt32) (dlc : Nat) : Except FrameFault Frame :=
  if h : dlc ≤ 8 then
    (new id []).map fun frame =>
      { frame with rawId := frame.rawId ||| remoteBit, dlc := dlc, dlc_le := h }
  else .error (.remoteLength dlc)

/-- The same frame with other flags. -/
def withFlags (frame : Frame) (flags : UInt8) : Frame := { frame with flags := flags }

def isExtended (frame : Frame) : Bool := frame.rawId &&& extendedBit != 0
def isRemote (frame : Frame) : Bool := frame.rawId &&& remoteBit != 0
def isError (frame : Frame) : Bool := frame.rawId &&& errorBit != 0

/-- The identifier without format bits. -/
def id (frame : Frame) : UInt32 :=
  frame.rawId &&& (if frame.isExtended then extendedMask else standardMask)

/-- The data bytes that count. -/
def data (frame : Frame) : List UInt8 := frame.rawData.toList.take frame.dlc

/-- The fields of a frame by name. -/
def describe (frame : Frame) : String :=
  Text.record "Frame" [
    ("id", "0x" ++ Text.upperHex frame.id.toNat),
    ("extended", Text.truth frame.isExtended),
    ("remote", Text.truth frame.isRemote),
    ("flags", Text.decimal frame.flags.toNat),
    ("dlc", Text.decimal frame.dlc),
    ("data", Text.bracketed (frame.data.map fun b => Text.decimal b.toNat))]

end Frame

end CanTransport
