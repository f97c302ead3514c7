import CanTransport.Frame.Basic
/-!
# Wire layout

The sixteen bytes in which a frame crosses every transport: the identifier word, least byte first,
the length, the flags, two zero bytes, the eight data bytes. Reading ignores bytes 6 and 7.
-/

namespace CanTransport

/-- Bytes of one record. -/
def wireSize : Nat := 16

/-- One record. -/
abbrev Wire := Vector UInt8 16

namespace Frame

/-- Byte `i` of a word, the least first. -/
def byteOf (word : UInt32) (i : Nat) : UInt8 := UInt8.ofNat (word.toNat >>> (8 * i) % 256)

/-- The word whose bytes, least first, are given. -/
def wordOf (b₀ b₁ b₂ b₃ : UInt8) : UInt32 :=
  UInt32.ofNat (b₀.toNat + 256 * (b₁.toNat + 256 * (b₂.toNat + 256 * b₃.toNat)))

/-- The record of a frame. -/
def encode (frame : Frame) : Wire :=
  let d := frame.rawData
  #v[byteOf frame.rawId 0, byteOf frame.rawId 1, byteOf frame.rawId 2, byteOf frame.rawId 3,
    UInt8.ofNat frame.dlc, frame.flags, 0, 0,
    d[0], d[1], d[2], d[3], d[4], d[5], d[6], d[7]]

/-- The frame of a record. -/
def ofWire (w : Wire) : Except FrameFault Frame :=
  ofFields (wordOf w[0] w[1] w[2] w[3]) w[5] w[4].toNat
    #v[w[8], w[9], w[10], w[11], w[12], w[13], w[14], w[15]]

/-- Reads exactly one record: another length is a transport fault, a length byte above eight a
bad frame. -/
def decode (bytes : List UInt8) : Except Error Frame :=
  if h : bytes.toArray.size = 16 then (ofWire ⟨bytes.toArray, h⟩).mapError FrameFault.toError
  else .error (.shortRead bytes.length wireSize)

/-- Writes the record over the front of a buffer; one that cannot hold it stays as it is. -/
def overwrite (frame : Frame) : ExceptT Error (StateM (List UInt8)) Unit := do
  let buffer ← get
  if buffer.length < wireSize then
    throw (.invalidFrame ("wire buffer of " ++ Text.decimal buffer.length
      ++ " bytes cannot hold a 16-byte frame"))
  set (frame.encode.toList ++ buffer.drop wireSize)

/-- A buffer with the record at its front. -/
def encodeInto (frame : Frame) (buffer : List UInt8) : Except Error (List UInt8) :=
  match frame.overwrite.run buffer with
  | (.ok (), written) => .ok written
  | (.error e, _) => .error e

end Frame

end CanTransport
