import CanTransport.Kernel.Basic
import CanTransport.Text.Quoted
/-!
# Raw CAN sockets

One socket bound to one interface, and whole records through it. Closing marks the socket for every
holder; the system's socket goes when it is released.
-/

namespace CanTransport

namespace Kernel.Op

/-- Gives the failed calls of an operation their place among the errors. -/
def orError {α : Type} (wrap : Failure → Error) (op : Kernel.Op Errno α) : Kernel.Op Error α :=
  ExceptT.adapt (fun number => wrap (.os number)) op

/-- Releases what was acquired before an operation that fails. -/
def orRelease {ε α : Type} (op : Kernel.Op ε α) (release : StateM Kernel Unit) : Kernel.Op ε α :=
  tryCatch op fun e => do
    release
    throw e

end Kernel.Op

/-- The index of an interface of a system. -/
def interfaceIndex (name : String) (k : Kernel := {}) : Except Error UInt32 :=
  if name.toList.contains '\x00' then
    .error (.config ("invalid interface name: " ++ Text.quoted name))
  else
    match k.interfaceIndex? name with
    | some index => .ok index
    | none => .error (.interfaceNotFound name (.os .noDevice))

/-- The index of an interface that is still there. -/
def lookUp (name : String) : Kernel.Op Error UInt32 := do
  let index ← liftM (interfaceIndex name (← get))
  Kernel.lookUp.orError (.interfaceNotFound name)
  return index

structure CanSocket where
  descriptor : Descriptor
  interface : String
  closed : Bool := false
deriving DecidableEq, Repr, Inhabited

namespace CanSocket

/-- Creates a socket and binds it to an interface. -/
def acquire (interface : String) : Kernel.Op Error CanSocket := do
  let index ← lookUp interface
  let fd ← (Kernel.createRaw).orError (.resource .openCan)
  ((Kernel.bindRaw fd index).orError (.resource .openCan)).orRelease (Kernel.closeRaw fd)
  return { descriptor := fd, interface }

/-- Lets go of the system's socket. -/
def release (s : CanSocket) : StateM Kernel Unit := Kernel.closeRaw s.descriptor

/-- Marks the socket closed for every holder. -/
def close (s : CanSocket) : CanSocket := { s with closed := true }

def setLoopback (_s : CanSocket) (on : Bool) : Kernel.Op Error Unit :=
  (Kernel.perform (.loopback on)).orError (.resource .setLoopback)

def setReceiveOwn (_s : CanSocket) (on : Bool) : Kernel.Op Error Unit :=
  (Kernel.perform (.receiveOwn on)).orError (.resource .setReceiveOwn)

def setReadTimeout (_s : CanSocket) (ms : UInt64) : Kernel.Op Error Unit :=
  (Kernel.perform (.receiveTimeout ms.toNat)).orError (.resource .setReceiveTimeout)

/-- Makes the socket one that only sends. -/
def disableReception (s : CanSocket) : Kernel.Op Error Unit :=
  (Kernel.setFilters s.descriptor 0).orError (.resource .setFilter)

/-- What a receive call on a closed socket reports. -/
def closedFailure : Failure := .custom .notConnected "CAN socket closed"

/-- One receive call, whatever became of the socket since it was found open. -/
def awaitRecord (s : CanSocket) : Kernel.Op Failure (List UInt8) :=
  ExceptT.adapt Failure.os (Kernel.receive s.descriptor)

/-- Receives one record of any length. -/
def receive (s : CanSocket) : Kernel.Op Failure (List UInt8) :=
  if s.closed then throw closedFailure else s.awaitRecord

/-- Receives exactly one record. -/
def readWire (s : CanSocket) : Kernel.Op Error Wire := do
  let bytes ← ExceptT.adapt Error.io s.receive
  if h : bytes.toArray.size = 16 then return ⟨bytes.toArray, h⟩
  else throw (.shortRead bytes.length wireSize)

/-- Sends exactly one record. -/
def writeWire (s : CanSocket) (raw : Wire) : Kernel.Op Error Unit := do
  if s.closed then throw .notConnected
  let n ← (Kernel.send s.descriptor raw).orError .io
  if n ≠ wireSize then throw (.shortWrite n wireSize)

def writeFrame (s : CanSocket) (frame : Frame) : Kernel.Op Error Unit := s.writeWire frame.encode

/-- The socket with the options that all transports share. -/
def acquireWith (interface : String) (loopback receiveOwn : Bool) (readTimeoutMs : UInt64) :
    Kernel.Op Error CanSocket := do
  let socket ← acquire interface
  let options : Kernel.Op Error Unit := do
    socket.setLoopback loopback
    socket.setReceiveOwn receiveOwn
    socket.setReadTimeout readTimeoutMs
  options.orRelease socket.release
  return socket

/-- The fields of a socket by name; its number is left out. -/
def describe (s : CanSocket) (number : String) : String :=
  Text.record "CanSocket" [
    ("interface", Text.quoted s.interface),
    ("fd", number),
    ("closed", Text.truth s.closed)]

end CanSocket

end CanTransport
