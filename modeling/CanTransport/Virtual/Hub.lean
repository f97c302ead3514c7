import CanTransport.Frame.Wire
/-!
# Virtual channels

Queues inside the process, one for each channel name in use. A queue holds its latest messages for
every receiver; a receiver that falls further behind learns how many it missed. The hub does not
keep a queue alive: it goes with the last handle to it.
-/

namespace CanTransport

/-- A record and the bus that sent it. -/
structure Envelope where
  origin : Nat
  raw : Wire
deriving DecidableEq, Repr, Inhabited

/-- Number of a queue; no number is used twice. -/
abbrev QueueId := Nat

structure Queue where
  /-- Messages that a receiver may be behind. -/
  capacity : Nat
  /-- Buses that hold the queue. -/
  handles : Nat := 1
  /-- All messages, of which the last `capacity` can still be read. -/
  sent : Array Envelope := #[]
deriving Repr, Inhabited

namespace Queue

/-- The least power of two that is not below `n`, searched from `power` in `fuel` doublings. -/
def powerFrom (n : Nat) : Nat → Nat → Nat
  | 0, power => power
  | fuel + 1, power => if n ≤ power then power else powerFrom n fuel (2 * power)

/-- A queue for at least `capacity` messages. -/
def ofCapacity (capacity : Nat) : Queue := { capacity := powerFrom capacity 64 1 }

/-- What a receiver gets. -/
inductive Receipt where
  | message (envelope : Envelope)
  /-- So many messages were overwritten before they were read. -/
  | missed (count : Nat)
  /-- All has been read and nobody is left to send more. -/
  | closed
  /-- All has been read. -/
  | nothing
deriving DecidableEq, Repr

/-- What a receiver that has passed `position` messages gets, and its position afterwards. -/
def receive (q : Queue) (position : Nat) : Receipt × Nat :=
  if q.capacity < q.sent.size - position then
    (.missed (q.sent.size - q.capacity - position), q.sent.size - q.capacity)
  else
    match q.sent[position]? with
    | some envelope => (.message envelope, position + 1)
    | none => (if q.handles = 0 then .closed else .nothing, position)

end Queue

structure Hub where
  next : QueueId := 0
  /-- The next bus's number. -/
  nextOrigin : Nat := 1
  queues : List (QueueId × Queue) := []
  /-- The queue of each name. -/
  entries : List (String × QueueId) := []
deriving Repr, Inhabited

namespace Hub

def queue? (h : Hub) (id : QueueId) : Option Queue := h.queues.lookup id

def update (id : QueueId) (change : Queue → Queue) :
    List (QueueId × Queue) → List (QueueId × Queue)
  | [] => []
  | (n, q) :: rest => if n = id then (n, change q) :: rest else (n, q) :: update id change rest

def change (h : Hub) (id : QueueId) (f : Queue → Queue) : Hub :=
  { h with queues := update id f h.queues }

def handles (h : Hub) (id : QueueId) : Nat := ((h.queue? id).map Queue.handles).getD 0

/-- The queue of a name, if anybody holds it. -/
def live? (h : Hub) (name : String) : Option QueueId :=
  (h.entries.lookup name).filter fun id => 0 < h.handles id

/-- Takes a handle to the queue of a name. A new queue is made if nobody holds one; entries of dead
queues go on that occasion. -/
def attach (h : Hub) (name : String) (capacity : Nat) : QueueId × Hub :=
  match h.live? name with
  | some id => (id, h.change id fun q => { q with handles := q.handles + 1 })
  | none =>
    (h.next, { h with
      next := h.next + 1
      queues := h.queues ++ [(h.next, Queue.ofCapacity capacity)]
      entries := h.entries.filter (fun (_, id) => 0 < h.handles id) ++ [(name, h.next)] })

/-- First half of giving a handle back: the name's entry goes with the last handle. -/
def forget (h : Hub) (name : String) (id : QueueId) : Hub :=
  if h.entries.lookup name = some id ∧ h.handles id = 1 then
    { h with entries := h.entries.filter fun (n, _) => n ≠ name }
  else h

/-- Second half: the handle itself. -/
def detach (h : Hub) (id : QueueId) : Hub :=
  h.change id fun q => { q with handles := q.handles - 1 }

/-- Sends to every receiver of a queue, also if there is none. -/
def send (h : Hub) (id : QueueId) (envelope : Envelope) : Hub :=
  h.change id fun q => { q with sent := q.sent.push envelope }

/-- What a receiver that has passed `position` messages gets. -/
def receive (h : Hub) (id : QueueId) (position : Nat) : Queue.Receipt × Nat :=
  match h.queue? id with
  | some q => q.receive position
  | none => (.closed, position)

/-- The position of a new receiver. -/
def tail (h : Hub) (id : QueueId) : Nat := ((h.queue? id).map (·.sent.size)).getD 0

end Hub

end CanTransport
