import CanTransport.Frame.Basic
/-!
# Frames as text

The notation of candump: an identifier of three digits, or eight for extended format, a `#`, and
the data in hexadecimal pairs or `R` with the length of a remote request. The reader also takes
other digit counts (more than three characters mean extended format), either case, dots between
digits and a plus sign in front of a number.
-/

namespace CanTransport.Frame

/-- The text of a frame. -/
def chars (frame : Frame) : List Char :=
  Text.fixedDigits 16 Text.upperDigit (if frame.isExtended then 8 else 3) frame.id.toNat
    ++ '#' :: if frame.isRemote then 'R' :: (Text.decimal frame.dlc).toList
      else Text.upperBytes frame.data

def text (frame : Frame) : String := String.ofList frame.chars

/-- Why a text is not a frame. -/
inductive TextFault where
  | noSeparator (text : List Char)
  | identifier (part : List Char)
  | standardRange (part : List Char)
  | remoteLength (part : List Char)
  | dataPairs (part : List Char)
  | data (part : List Char)
  | parts (fault : FrameFault)
deriving DecidableEq, Repr

def TextFault.text : TextFault → String
  | .noSeparator t => "missing '#' in " ++ Text.quoted (String.ofList t)
  | .identifier t => "bad identifier " ++ Text.quoted (String.ofList t)
  | .standardRange t => "standard identifier " ++ Text.quoted (String.ofList t)
      ++ " exceeds 0x7FF; use 8 digits for extended"
  | .remoteLength t => "bad remote length " ++ Text.quoted (String.ofList t)
  | .dataPairs t => "data must be pairs of hex digits: " ++ Text.quoted (String.ofList t)
  | .data t => "bad data " ++ Text.quoted (String.ofList t)
  | .parts fault => fault.text

/-- What stands before and after the first `#`. -/
def splitAtHash? : List Char → Option (List Char × List Char)
  | [] => none
  | '#' :: rest => some ([], rest)
  | c :: rest => (splitAtHash? rest).map fun (before, after) => (c :: before, after)

/-- The length of a remote request; nothing stands for zero. -/
def remoteLength? (part : List Char) : Option Nat :=
  if part = [] then some 0 else Text.readUnsigned? 10 255 part

/-- Bytes of two characters each. -/
def pairs? : List Char → Option (List UInt8)
  | [] => some []
  | [_] => none
  | a :: b :: rest => do
    let byte ← Text.readUnsigned? 16 255 [a, b]
    return UInt8.ofNat byte :: (← pairs? rest)

/-- The frame behind an identifier that has been read. -/
def ofParts (id : UInt32) (isExtended : Bool) (payload : List Char) : Except TextFault Frame :=
  match payload with
  | 'R' :: length =>
    match remoteLength? length with
    | none => .error (.remoteLength length)
    | some dlc =>
      if isExtended then
        ((extended id []).bind fun base => ofFields (base.rawId ||| remoteBit) 0 dlc (padded []))
          |>.mapError .parts
      else (remote id dlc).mapError .parts
  | payload =>
    let digits := payload.filter (· ≠ '.')
    if digits.any (fun c => 128 ≤ c.toNat) || digits.length % 2 ≠ 0 then .error (.dataPairs payload)
    else
      match pairs? digits with
      | none => .error (.data payload)
      | some data => (if isExtended then extended id data else new id data).mapError .parts

/-- Reads the text of a frame. -/
def ofChars (s : List Char) : Except TextFault Frame :=
  match splitAtHash? s with
  | none => .error (.noSeparator s)
  | some (idPart, payload) =>
    match Text.readUnsigned? 16 0xFFFFFFFF idPart with
    | none => .error (.identifier idPart)
    | some n =>
      -- digits and the sign take one byte each, so characters count bytes
      let isExtended := idPart.length > 3
      if !isExtended && n > 0x7FF then .error (.standardRange idPart)
      else ofParts (UInt32.ofNat n) isExtended payload

def ofText (s : String) : Except Error Frame :=
  (ofChars s.toList).mapError fun fault => .invalidFrame fault.text

end CanTransport.Frame
