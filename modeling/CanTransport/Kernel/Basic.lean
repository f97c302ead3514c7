import CanTransport.Error
import CanTransport.Frame.Wire
import CanTransport.Kernel.Call
import CanTransport.Kernel.Memory
/-!
# The operating system as a state

Sockets and what waits in them, scripted failures and results, and a record of all calls. A raw
CAN socket has a queue of arrivals; a packet socket has a region of memory that is shared with its
owner. Nothing that is sent comes back.
-/

namespace CanTransport

/-- What a raw CAN socket finds next in its queue. -/
inductive Arrival where
  | record (bytes : List UInt8)
  | failure (number : Errno)
  | endOfStream
deriving DecidableEq, Repr, Inhabited

/-- A scripted result of a send. -/
inductive Reply where
  | accepted (bytes : Nat)
  | refused (number : Errno)
deriving DecidableEq, Repr, Inhabited

structure RawSocket where
  interface : Option UInt32 := none
  /-- Whether any filter lets frames in. -/
  receives : Bool := true
  arrivals : List Arrival := []
  /-- Whether its readiness can be waited for. -/
  pollable : Bool := true
deriving Inhabited

structure PacketSocket where
  interface : Option UInt32 := none
  memory : Memory := ⟨0, {}⟩
deriving Inhabited

structure Kernel where
  /-- The next socket's number. -/
  next : Descriptor := 0
  raws : List (Descriptor × RawSocket) := []
  packets : List (Descriptor × PacketSocket) := []
  /-- The packet sockets whose memory is mapped; a mapping does not end with its socket. -/
  mappings : List Descriptor := []
  /-- What every raw socket finds in its queue once it is bound. -/
  greeting : List Arrival := []
  /-- Failures of the next calls of a name. -/
  faults : List (String × Errno) := []
  /-- Answers of the next lookups of interfaces: the error number of one that fails. -/
  lookups : List (Option Errno) := []
  /-- Results of the next sends. -/
  replies : List Reply := []
  /-- Answers of the next statistics calls. -/
  drops : List Nat := []
  /-- Records accepted for transmission, with their interface. -/
  sent : List (UInt32 × Wire) := []
  trace : List Call := []
  /-- Interfaces by name. -/
  interfaces : List (String × UInt32) :=
    [("lo", 1), ("can0", 2), ("can1", 3), ("vcan0", 4), ("canbig", 0x80000000)]
deriving Inhabited

namespace Kernel

/-- A call that may fail; the state it leaves behind counts either way. -/
abbrev Op (ε : Type) := ExceptT ε (StateM Kernel)

/-- The interface that carries no CAN traffic. -/
def localInterface : UInt32 := 1

def interfaceIndex? (k : Kernel) (name : String) : Option UInt32 := k.interfaces.lookup name

/-- Looks up an interface that may have gone in the meantime. -/
def lookUp : Op Errno Unit := do
  let k ← get
  match k.lookups with
  | [] => return
  | answer :: rest =>
    set { k with lookups := rest }
    match answer with
    | none => return
    | some number => throw number

/-- The first failure waiting under a name, and the others. -/
def takeFault (name : String) :
    List (String × Errno) → Option (Errno × List (String × Errno))
  | [] => none
  | (n, number) :: rest =>
    if n = name then some (number, rest)
    else (takeFault name rest).map fun (found, others) => (found, (n, number) :: others)

def record (call : Call) : StateM Kernel Unit :=
  modify fun k => { k with trace := k.trace ++ [call] }

/-- Records a call, which fails if a failure waits under its name. -/
def perform (call : Call) : Op Errno Unit := do
  record call
  match takeFault call.name (← get).faults with
  | none => return
  | some (number, others) =>
    modify fun k => { k with faults := others }
    throw number

/-- Applies a change to the entry of a socket. -/
def update {σ : Type} (fd : Descriptor) (change : σ → σ) :
    List (Descriptor × σ) → List (Descriptor × σ)
  | [] => []
  | (n, s) :: rest => if n = fd then (n, change s) :: rest else (n, s) :: update fd change rest

def changeRaw (fd : Descriptor) (change : RawSocket → RawSocket) : StateM Kernel Unit :=
  modify fun k => { k with raws := update fd change k.raws }

def changePacket (fd : Descriptor) (change : PacketSocket → PacketSocket) : StateM Kernel Unit :=
  modify fun k => { k with packets := update fd change k.packets }

/-- The name of the failure that makes the next raw socket one that cannot be waited for. -/
def unpollable : String := "epoll"

def createRaw : Op Errno Descriptor := do
  perform .createCan
  let k ← get
  let (pollable, faults) := match takeFault unpollable k.faults with
    | none => (true, k.faults)
    | some (_, others) => (false, others)
  set { k with
    next := k.next + 1
    raws := k.raws ++ [(k.next, { pollable := pollable : RawSocket })]
    faults }
  return k.next

def bindRaw (fd : Descriptor) (index : UInt32) : Op Errno Unit := do
  perform (.bindCan index)
  if index = localInterface then throw .noDevice
  let greeting := (← get).greeting
  changeRaw fd fun s =>
    { s with interface := some index, arrivals := s.arrivals ++ greeting }

/-- Installs a list of filters; an empty one lets nothing in. -/
def setFilters (fd : Descriptor) (rules : Nat) : Op Errno Unit := do
  perform (.filter rules)
  changeRaw fd fun s => { s with receives := rules != 0 }

def closeRaw (fd : Descriptor) : StateM Kernel Unit := do
  record (.closeCan fd)
  modify fun k => { k with raws := k.raws.filter (·.1 != fd) }

def isPollable (k : Kernel) (fd : Descriptor) : Bool :=
  ((k.raws.lookup fd).map RawSocket.pollable).getD false

/-- What waits in the queue of a raw socket. -/
def arrivals (k : Kernel) (fd : Descriptor) : List Arrival :=
  ((k.raws.lookup fd).map RawSocket.arrivals).getD []

/-- The part of a record that fits the receiver's buffer. -/
def truncated (bytes : List UInt8) : List UInt8 := bytes.take wireSize

/-- Takes one arrival; an empty queue reports a timeout. -/
def receive (fd : Descriptor) : Op Errno (List UInt8) := do
  match (← get).arrivals fd with
  | [] => throw .tryAgain
  | arrival :: rest =>
    changeRaw fd fun s => { s with arrivals := rest }
    match arrival with
    | .record bytes => return truncated bytes
    | .failure number => throw number
    | .endOfStream => return []

/-- The records at the front of a queue, at most `limit`, and what is behind them. -/
def frontRecords : Nat → List Arrival → List (List UInt8) × List Arrival
  | limit + 1, .record bytes :: rest =>
    let (records, behind) := frontRecords limit rest
    (truncated bytes :: records, behind)
  | _, arrivals => ([], arrivals)

/-- Takes several records in one call. Anything else than a record ends the call, and is taken
only if it comes first. -/
def receiveMany (fd : Descriptor) (limit : Nat) : Op Errno (List (List UInt8)) := do
  match (← get).arrivals fd with
  | [] => throw .tryAgain
  | .failure number :: rest =>
    changeRaw fd fun s => { s with arrivals := rest }
    throw number
  | .endOfStream :: rest =>
    changeRaw fd fun s => { s with arrivals := rest }
    return []
  | arrivals =>
    let (records, behind) := frontRecords limit arrivals
    changeRaw fd fun s => { s with arrivals := behind }
    return records

/-- Hands over a record; returns the number of bytes accepted. -/
def send (fd : Descriptor) (raw : Wire) : Op Errno Nat := do
  let k ← get
  match k.replies with
  | .accepted n :: rest =>
    set { k with replies := rest }
    return n
  | .refused number :: rest =>
    set { k with replies := rest }
    throw number
  | [] =>
    let interface := ((k.raws.lookup fd).bind RawSocket.interface).getD 0
    set { k with sent := k.sent ++ [(interface, raw)] }
    return wireSize

def createPacket : Op Errno Descriptor := do
  perform .createPacket
  let k ← get
  set { k with next := k.next + 1, packets := k.packets ++ [(k.next, ({} : PacketSocket))] }
  return k.next

/-- Requests a ring of slots in `blocks` blocks. -/
def requestRing (fd : Descriptor) (blockSize blocks slotSize slots : Nat) : Op Errno Unit := do
  perform (.receiveRing blockSize blocks slotSize slots)
  changePacket fd fun s => { s with memory := ⟨blockSize * blocks, {}⟩ }

/-- Where the memory of a packet socket is mapped: on pages, and never at zero. -/
def mappingBase (fd : Descriptor) : Nat := 0x1000 * (fd + 1)

/-- Maps the memory of a packet socket; returns its address. -/
def map (fd : Descriptor) (bytes : Nat) : Op Errno Nat := do
  perform (.map bytes)
  modify fun k => { k with mappings := k.mappings ++ [fd] }
  return mappingBase fd

def unmap (fd : Descriptor) : StateM Kernel Unit := do
  record (.unmap fd)
  modify fun k => { k with mappings := k.mappings.filter (· != fd) }

def bindPacket (fd : Descriptor) (index : UInt32) : Op Errno Unit := do
  perform (.bindPacket index)
  if index = localInterface then throw .noDevice
  changePacket fd fun s => { s with interface := some index }

def closePacket (fd : Descriptor) : StateM Kernel Unit := do
  record (.closePacket fd)
  modify fun k => { k with packets := k.packets.filter (·.1 != fd) }

/-- Packets dropped since the last call. -/
def statistics : Op Errno Nat := do
  perform .statistics
  let k ← get
  match k.drops with
  | [] => return 0
  | n :: rest =>
    set { k with drops := rest }
    return n

/-- The memory of a packet socket. -/
def memory (k : Kernel) (fd : Descriptor) : Memory :=
  ((k.packets.lookup fd).map PacketSocket.memory).getD ⟨0, {}⟩

def setMemory (fd : Descriptor) (m : Memory) : StateM Kernel Unit :=
  changePacket fd fun s => { s with memory := m }

end Kernel

end CanTransport
