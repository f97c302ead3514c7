import Std.Data.TreeMap
/-!
# Memory

A region of bytes shared between two parties. Whatever was not written is zero; a write outside
the region does nothing. Numbers lie with their least byte first.
-/

namespace CanTransport

structure Memory where
  size : Nat
  written : Std.TreeMap Nat UInt8 := {}
deriving Inhabited

namespace Memory

def read (m : Memory) (address : Nat) : UInt8 := m.written.getD address 0

def write (m : Memory) (address : Nat) (byte : UInt8) : Memory :=
  if address < m.size then { m with written := m.written.insert address byte } else m

/-- `count` bytes from `address` on. -/
def readBytes (m : Memory) (address : Nat) : Nat → List UInt8
  | 0 => []
  | count + 1 => m.read address :: m.readBytes (address + 1) count

def writeBytes (m : Memory) (address : Nat) : List UInt8 → Memory
  | [] => m
  | byte :: bytes => (m.write address byte).writeBytes (address + 1) bytes

/-- The number in `width` bytes from `address` on. -/
def readNumber (m : Memory) (address : Nat) : Nat → Nat
  | 0 => 0
  | width + 1 => (m.read address).toNat + 256 * m.readNumber (address + 1) width

def writeNumber (m : Memory) (address : Nat) : Nat → Nat → Memory
  | 0, _ => m
  | width + 1, n =>
    (m.write address (UInt8.ofNat (n % 256))).writeNumber (address + 1) width (n / 256)

end Memory

end CanTransport
