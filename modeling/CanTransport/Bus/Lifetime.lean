import CanTransport.Bus.Basic
/-!
# Making and dropping buses

A bus is made with a valid configuration only. The socket transports look their interface up, the
ring acquires its resource at once, and a virtual bus takes a handle to its channel's queue. A bus
that is dropped lets go of everything but leaves its reception task running.
-/

namespace CanTransport

/-- An operation on what buses share, which may fail. -/
abbrev Medium.Op := ExceptT Error (StateM Medium)

/-- A kernel operation on what buses share. -/
def Kernel.Op.onMedium {α : Type} (op : Kernel.Op Error α) : Medium.Op α := fun m =>
  let (result, kernel) := op.run m.kernel
  (result, { m with kernel := kernel })

namespace Bus

/-- A bus that was never connected. -/
def fresh (transport : Transport) (channel : String) (c : BusConfig) : Bus :=
  { transport := transport, channel := channel, config := c, echoes := Echoes.ofConfig c }

/-- Takes a number and a handle to the queue of a virtual channel. -/
def attach (channel : String) (c : BusConfig) : Medium.Op Bus := do
  let m ← get
  let (queue, hub) := m.hub.attach channel c.listenerCapacity.toNat
  let origin := hub.nextOrigin
  set { m with hub := { hub with nextOrigin := origin + 1 } }
  return { fresh .virtual channel c with origin := origin, queue := queue }

/-- Makes a bus. -/
def make (transport : Transport) (channel : String) (c : BusConfig) : Medium.Op Bus := do
  liftM c.check
  match transport with
  | .virtual =>
    if channel.isEmpty then throw (.config "virtual channel name cannot be empty")
    attach channel c
  | .ring =>
    let resource ← (Resource.acquireRing channel c).onMedium
    return { fresh .ring channel c with resources := [resource], idle := some resource.key }
  | _ =>
    let _ ← (lookUp channel).onMedium
    return fresh transport channel c

end Bus

namespace Site

/-- First half of a drop: the hub forgets a channel whose last bus goes. -/
def forgetChannel (s : Site) : Site :=
  match s.bus.transport with
  | .virtual => s.setHub (s.medium.hub.forget s.bus.channel s.bus.queue)
  | _ => s

/-- Second half of a drop: the bus lets go of everything. -/
def letGo (s : Site) : Site :=
  let b := s.bus
  let s := s.setBus { b with
    alive := false, flag := false, idle := none, published := none, connection := none }
  let s := match b.transport with
    | .virtual => s.setHub (s.medium.hub.detach b.queue)
    | _ => s
  s.collect

/-- Drops the bus. -/
def drop (s : Site) : Site := s.forgetChannel.letGo

end Site

end CanTransport
