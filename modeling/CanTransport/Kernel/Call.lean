import CanTransport.Text.Digits
/-!
# Calls

What a program asks of the operating system, as it is recorded. A call has a name, under which it
can be made to fail, and a line in the record; releasing a resource cannot fail, and giving back a
mapping leaves no line.
-/

namespace CanTransport

/-- Number of a socket; no number is used twice. -/
abbrev Descriptor := Nat

inductive Call where
  | createCan
  | bindCan (index : UInt32)
  | loopback (on : Bool)
  | receiveOwn (on : Bool)
  | receiveTimeout (ms : Nat)
  | filter (rules : Nat)
  | createPacket
  | packetVersion (version : Nat)
  | receiveRing (blockSize blocks slotSize slots : Nat)
  | map (bytes : Nat)
  | bindPacket (index : UInt32)
  | statistics
  | unmap (socket : Descriptor)
  | closeCan (socket : Descriptor)
  | closePacket (socket : Descriptor)
deriving DecidableEq, Repr

namespace Call

def name : Call → String
  | createCan => "socket can"
  | bindCan _ => "bind can"
  | loopback _ => "loopback"
  | receiveOwn _ => "recv_own"
  | receiveTimeout _ => "rcvtimeo"
  | filter _ => "filter"
  | createPacket => "socket packet"
  | packetVersion _ => "packet_version"
  | receiveRing .. => "rx_ring"
  | map _ => "mmap"
  | bindPacket _ => "bind packet"
  | statistics => "statistics"
  | unmap _ => "munmap"
  | closeCan _ => "close can"
  | closePacket _ => "close packet"

/-- An interface index as the signed number that a link address holds. -/
def signedIndex (index : UInt32) : String :=
  if index.toNat < 0x80000000 then Text.decimal index.toNat
  else "-" ++ Text.decimal (0x100000000 - index.toNat)

/-- What follows the name in the record. -/
def arguments : Call → List String
  | bindCan index | bindPacket index => [signedIndex index]
  | loopback on | receiveOwn on => [if on then "1" else "0"]
  | receiveTimeout n | filter n | packetVersion n | map n => [Text.decimal n]
  | receiveRing blockSize blocks slotSize slots =>
    [blockSize, blocks, slotSize, slots].map Text.decimal
  | _ => []

def line? : Call → Option String
  | unmap _ => none
  | call => some (" ".intercalate (call.name :: call.arguments))

end Call

end CanTransport
