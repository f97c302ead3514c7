import CanTransport.Kernel.Basic
import CanTransport.Ring.Sweep
/-!
# The other side of the kernel

What happens on the interfaces: arrivals in the queues of raw sockets and in the slots of rings,
failures and results to come, and what has been called and sent.
-/

namespace CanTransport.Kernel

/-- Whether a raw socket hears what happens on an interface. -/
def hears (index : Option UInt32) (raw : RawSocket) : Bool :=
  raw.receives && index.isSome && raw.interface == index

/-- Lets things arrive at every socket that hears the interface; returns their number. -/
def arrive (channel : String) (arrivals : List Arrival) : StateM Kernel Nat := fun k =>
  let index := k.interfaceIndex? channel
  ((k.raws.filter fun (_, raw) => hears index raw).length,
    { k with raws := k.raws.map fun (fd, raw) =>
        (fd, if hears index raw then { raw with arrivals := raw.arrivals ++ arrivals } else raw) })

/-- The geometry of slots of `slotSize` bytes in blocks of `blockSize` bytes, of any number. -/
def openGeometry (blockSize slotSize : Nat) : Geometry :=
  { blockSize := blockSize, slotSize := slotSize, slotsPerBlock := blockSize / slotSize
    slotCount := 0 }

/-- Whether a packet socket is bound to an interface. -/
def isBoundTo (index : Option UInt32) (packet : PacketSocket) : Bool :=
  index.isSome && packet.interface == index

/-- Fills slots of every ring on an interface; returns their number. -/
def fillSlots (channel : String) (blockSize slotSize : Nat) (slots : List (Nat × Slot.Content)) :
    StateM Kernel Nat := fun k =>
  let index := k.interfaceIndex? channel
  let g := openGeometry blockSize slotSize
  let fill := fun m (slot : Nat × Slot.Content) => Slot.fill m slotSize (g.offset slot.1) slot.2
  ((k.packets.filter fun (_, packet) => isBoundTo index packet).length,
    { k with packets := k.packets.map fun (fd, packet) =>
        (fd, if isBoundTo index packet then
          { packet with memory := slots.foldl fill packet.memory } else packet) })

/-- The slots of each ring on an interface that are not the kernel's, with their status. -/
def filledSlots (k : Kernel) (channel : String) (blockSize slotSize count : Nat) :
    List (List (Nat × Nat)) :=
  let index := k.interfaceIndex? channel
  let g := openGeometry blockSize slotSize
  (k.packets.filter fun (_, packet) => isBoundTo index packet).map fun (_, packet) =>
    ((List.range count).map fun slot => (slot, Slot.status packet.memory (g.offset slot))).filter
      fun (_, status) => status != 0

/-- Lets the next call of a name fail. -/
def addFault (name : String) (number : Errno) : StateM Kernel Unit :=
  modify fun k => { k with faults := k.faults ++ [(name, number)] }

/-- Prepares the results of sends to come. -/
def addReplies (replies : List Reply) : StateM Kernel Unit :=
  modify fun k => { k with replies := k.replies ++ replies }

/-- Prepares the answer of a statistics call to come. -/
def addDrops (n : Nat) : StateM Kernel Unit := modify fun k => { k with drops := k.drops ++ [n] }

/-- The lines of the calls so far, which are forgotten. -/
def takeTrace : StateM Kernel (List String) := fun k =>
  (k.trace.filterMap Call.line?, { k with trace := [] })

/-- What has been sent so far, which is forgotten. -/
def takeSent : StateM Kernel (List (UInt32 × Wire)) := fun k => (k.sent, { k with sent := [] })

end CanTransport.Kernel
