import CanTransport.Bus.Resource
import CanTransport.Reception.Basic
import CanTransport.Ring.Echoes
import CanTransport.Ring.Sweep
import CanTransport.Virtual.Hub
/-!
# Buses

The state of one bus with everything that is under way on it: its reception tasks, each at some
stage of its loop, and the operations of its callers, each with the actions it still has to perform.
All five transports share this state; they differ in the actions.
-/

namespace CanTransport

/-- Number of a reception task of a bus. -/
abbrev ReceiverId := Nat

/-- Number of an operation on a bus. -/
abbrev OperationId := Nat

/-- Where a reception task is. -/
inductive Stage where
  /-- About to look whether it shall stop. -/
  | top
  /-- About to ask the socket. -/
  | receiving
  /-- Has records that it received and did not hand on yet. -/
  | holding (records : List (List UInt8))
  /-- About to look at the slot under the cursor. -/
  | looking (sweep : Sweep)
  /-- About to give that slot back. -/
  | releasing (sweep : Sweep)
  /-- About to move the cursor. -/
  | advancing (sweep : Sweep)
  /-- Has ended a sweep. -/
  | swept (sweep : Sweep)
  /-- Sleeps until a time; of two sleepers the one that came first wakes first. -/
  | sleeping (deadline order : Nat)
  /-- The loop has returned. -/
  | returned (outcome : Except Error Unit)
  /-- The outcome has been published. -/
  | published
  /-- The task is gone; `died` if the listener did not return. -/
  | exited (died : Bool)
deriving Repr, Inhabited

structure Receiver where
  id : ReceiverId
  /-- The resource that the task reads. -/
  handle : Option Descriptor := none
  /-- Messages of the virtual queue that were read or missed. -/
  position : Nat := 0
  /-- The slot of the ring that comes next. -/
  cursor : Nat := 0
  cancelled : Bool := false
  stage : Stage := .top
deriving Repr, Inhabited

namespace Receiver

def hasExited (t : Receiver) : Bool :=
  match t.stage with
  | .exited _ => true
  | _ => false

/-- The task at another stage; one that left its loop has let go of its resource. -/
def goTo (t : Receiver) (stage : Stage) : Receiver :=
  match stage with
  | .returned _ | .published | .exited _ => { t with stage := stage, handle := none }
  | _ => { t with stage := stage }

end Receiver

/-- What a caller asks for. -/
inductive Request where
  | connect
  | disconnect
  | send (frame : Frame)
deriving DecidableEq, Repr

/-- One action of an operation; nothing of another operation or task comes between its parts. -/
inductive Action where
  /-- Waits for the connection lock, and decides what has to be done. -/
  | enter
  | leave
  /-- Cancels the task of the connection that was taken. -/
  | cancel
  /-- Waits until that task has exited. -/
  | join
  /-- Takes the published handle away from senders. -/
  | unpublish
  /-- Marks the socket at hand closed. -/
  | closeSocket
  /-- Lets go of the resource at hand. -/
  | letGo
  | clearEchoes
  /-- Ends the operation if the task died. -/
  | check
  /-- Acquires a resource, or takes the idle one. -/
  | acquire
  /-- Registers the socket at hand for readiness. -/
  | register
  /-- Takes a position in the virtual queue. -/
  | listen
  /-- Starts a reception task. -/
  | spawn
  /-- Gives the resource at hand to senders. -/
  | publish
  /-- Stores the connection. -/
  | store
  | raiseFlag
  | lowerFlag
  | dropIdle
  /-- Takes the published handle for a send. -/
  | borrow
  /-- Checks that the virtual bus is connected. -/
  | checkFlag
  /-- Remembers the record to be sent. -/
  | remember
  | write
  /-- Forgets a record that was not sent. -/
  | forget
  /-- Puts the record into the virtual queue. -/
  | transmit
  | countSent
deriving DecidableEq, Repr

/-- An operation under way. -/
structure Operation where
  id : OperationId
  request : Request
  /-- Actions to be performed, in order. -/
  todo : List Action
  /-- The resource at hand. -/
  handle : Option Descriptor := none
  /-- The task of the connection that was taken, or that is being made. -/
  receiver : Option ReceiverId := none
  /-- The position of a new receiver. -/
  position : Nat := 0
  /-- The error that the operation will report. -/
  failure : Option Error := none
deriving Repr

/-- A stored connection. -/
structure Connection where
  receiver : ReceiverId
  /-- The socket, if it has to be marked closed before the task is joined. -/
  socket : Option Descriptor := none
deriving DecidableEq, Repr, Inhabited

structure Bus where
  transport : Transport
  channel : String
  config : BusConfig
  /-- The bus's number among virtual buses. -/
  origin : Nat := 0
  /-- The virtual channel's queue. -/
  queue : QueueId := 0
  /-- Whether the bus still exists; its tasks may outlive it. -/
  alive : Bool := true
  reception : Reception := {}
  echoes : Echoes
  resources : List Resource := []
  /-- The resource waiting for the next connection of a ring. -/
  idle : Option Descriptor := none
  /-- The resource that senders find. -/
  published : Option Descriptor := none
  /-- Whether a virtual bus accepts sends. -/
  flag : Bool := false
  connection : Option Connection := none
  /-- The operation that holds the connection lock. -/
  lock : Option OperationId := none
  operations : List Operation := []
  receivers : List Receiver := []
  /-- The next task's or operation's number. -/
  next : Nat := 0
deriving Repr

/-- What buses share. -/
structure Medium where
  kernel : Kernel := {}
  hub : Hub := {}
  /-- Milliseconds since the start. -/
  now : Nat := 0
  /-- Sleeps that began so far. -/
  sleeps : Nat := 0
deriving Inhabited

/-- A bus and what it works on. -/
structure Site where
  bus : Bus
  medium : Medium

namespace Bus

def isConnected (b : Bus) : Bool :=
  match b.transport with
  | .virtual => b.flag
  | _ => b.published.isSome

def resource? (b : Bus) (key : Descriptor) : Option Resource :=
  b.resources.find? (·.key == key)

def receiver? (b : Bus) (id : ReceiverId) : Option Receiver := b.receivers.find? (·.id == id)

/-- Whether anything on the bus still refers to a resource. -/
def holds (b : Bus) (key : Descriptor) : Bool :=
  b.idle == some key || b.published == some key
    || (b.connection.bind Connection.socket) == some key
    || b.receivers.any (·.handle == some key)
    || b.operations.any (·.handle == some key)

def setReceiver (b : Bus) (t : Receiver) : Bus :=
  { b with receivers := b.receivers.map fun other => if other.id = t.id then t else other }

def setOperation (b : Bus) (o : Operation) : Bus :=
  { b with operations := b.operations.map fun other => if other.id = o.id then o else other }

/-- Marks the socket of a resource closed. -/
def closeSocket (b : Bus) (key : Descriptor) : Bus :=
  { b with resources := b.resources.map fun r =>
      if r.key = key then { r with socket := r.socket.close } else r }

/-- The fields of a bus by name; the number of a virtual bus is left to the reader. -/
def describe (b : Bus) (number : String) : String :=
  let channel := ("channel", Text.quoted b.channel)
  let connected := ("connected", Text.truth b.isConnected)
  match b.transport with
  | .blocking => Text.record "BlockingCanBus" [channel, connected]
  | .cancellable => Text.record "SocketCanBus" [channel, connected]
  | .batched => Text.record "BatchedCanBus"
      [channel, ("batch_size", Text.decimal b.config.batch.size.toNat), connected]
  | .ring => Text.record "RingCanBus" [channel, ("ring", b.config.ring.describe), connected]
  | .virtual => Text.record "VirtualBus" [("id", number), channel, connected]

end Bus

namespace Site

/-- Runs a kernel operation. -/
def onKernel {α : Type} (s : Site) (op : StateM Kernel α) : α × Site :=
  let (a, kernel) := op.run s.medium.kernel
  (a, { s with medium := { s.medium with kernel := kernel } })

def setBus (s : Site) (bus : Bus) : Site := { s with bus := bus }

def setHub (s : Site) (hub : Hub) : Site := { s with medium := { s.medium with hub := hub } }

/-- Changes what the bus shares with its reception task. -/
def onReception (s : Site) (change : Reception → Reception) : Site :=
  { s with bus := { s.bus with reception := change s.bus.reception } }

def count (s : Site) (change : Stats → Stats) : Site := s.onReception (Reception.count change)

/-- Gives back some resources. -/
def releaseAll (s : Site) : List Resource → Site
  | [] => s
  | r :: rest => (s.onKernel r.release).2.releaseAll rest

/-- Gives back every resource that nothing on the bus refers to. -/
def collect (s : Site) : Site :=
  let (kept, unheld) := s.bus.resources.partition fun r => s.bus.holds r.key
  if unheld.isEmpty then s else (s.setBus { s.bus with resources := kept }).releaseAll unheld

end Site

end CanTransport
