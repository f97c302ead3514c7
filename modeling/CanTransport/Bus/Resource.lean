import CanTransport.Bus.Transport
import CanTransport.CanSocket
import CanTransport.Ring.Geometry
/-!
# Resources of a connection

What a transport holds of the operating system: a raw CAN socket, and for the ring transport a
packet socket with its mapped region. They are acquired together or not at all.
-/

namespace CanTransport

structure Resource where
  socket : CanSocket
  /-- The packet socket and the geometry of its region. -/
  ring : Option (Descriptor × Geometry) := none
deriving DecidableEq, Repr, Inhabited

namespace Resource

/-- The number under which a resource is known. -/
def key (r : Resource) : Descriptor := r.socket.descriptor

/-- A packet socket's index; a link address holds it as a signed number. -/
def linkIndex (index : UInt32) : Except Error UInt32 :=
  if index.toNat < 0x80000000 then .ok index
  else .error (.config ("interface index " ++ Text.decimal index.toNat ++ " out of range"))

/-- The socket that sends for a ring; it receives nothing. -/
def acquireSender (channel : String) (c : BusConfig) : Kernel.Op Error CanSocket := do
  let sender ← CanSocket.acquireWith channel c.loopback c.receiveOwnMessages c.readTimeoutMs
  sender.disableReception.orRelease sender.release
  return sender

/-- What remains to be done once the ring of a packet socket is mapped at an address. -/
def acquireOnMapped (channel : String) (c : BusConfig) (index : UInt32) (packet : Descriptor)
    (base : Nat) : Kernel.Op Error Resource := do
  let geometry ← liftM (Geometry.ofRegion base c.ring.regionSize.toNat c.ring)
  let link ← liftM (linkIndex index)
  (Kernel.bindPacket packet link).orError (.resource .bindPacket)
  let sender ← acquireSender channel c
  return { socket := sender, ring := some (packet, geometry) }

/-- What remains to be done once a packet socket exists. -/
def acquireOnPacket (channel : String) (c : BusConfig) (index : UInt32) (packet : Descriptor) :
    Kernel.Op Error Resource := do
  (Kernel.perform (.packetVersion 1)).orError (.resource .setPacketVersion)
  let request ← liftM c.ring.request
  (Kernel.requestRing packet request.blockSize.toNat request.blockCount.toNat
    request.slotSize.toNat request.slotCount.toNat).orError (.resource .setReceiveRing)
  let base ← (Kernel.map packet c.ring.regionSize.toNat).orError (.resource .mapRing)
  (acquireOnMapped channel c index packet base).orRelease (Kernel.unmap packet)

def acquireRing (channel : String) (c : BusConfig) : Kernel.Op Error Resource := do
  let index ← lookUp channel
  let packet ← Kernel.createPacket.orError (.resource .createPacket)
  (acquireOnPacket channel c index packet).orRelease (Kernel.closePacket packet)

/-- Acquires what a connection of a transport needs. -/
def acquire (transport : Transport) (channel : String) (c : BusConfig) :
    Kernel.Op Error Resource :=
  match transport with
  | .ring => acquireRing channel c
  | .batched => do
    let socket ← CanSocket.acquireWith channel c.loopback c.receiveOwnMessages c.batch.timeoutMs
    return { socket }
  | _ => do
    let socket ← CanSocket.acquireWith channel c.loopback c.receiveOwnMessages c.readTimeoutMs
    return { socket }

/-- Gives everything back; a region is unmapped before its socket is closed. -/
def release (r : Resource) : StateM Kernel Unit := do
  if let some (packet, _) := r.ring then
    Kernel.unmap packet
    Kernel.closePacket packet
  r.socket.release

end Resource

end CanTransport
