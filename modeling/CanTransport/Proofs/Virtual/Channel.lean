import CanTransport.Proofs.Virtual.Beside
import CanTransport.Proofs.Virtual.Listening
/-!
# Buses on one channel

Any number of virtual buses on one channel, made at any time, with their callers and their reception
tasks in any order of actions. What they put into the queue is kept in one list; of every connection
it is kept where it began to listen, what the queue gave it, and what was handed to the listener.
-/

namespace CanTransport

/-- The frame that a request is to send. -/
def Request.frame? : Request → Option Frame
  | .send frame => some frame
  | _ => none

/-- Whether a bus has no connection and no connect or disconnect is under way on it. -/
def Bus.isAway (b : Bus) : Bool := b.lock.isNone && b.connection.isNone

/-- What the queue gives with the next action of a task. -/
def Site.receipts (s : Site) (id : ReceiverId) : List Queue.Receipt :=
  match s.bus.receiver? id with
  | some r => r.receipts s
  | none => []

/-- A bus on a channel, and what is remembered of its connections. -/
structure Peer where
  bus : Bus
  died : Bool := false
  refused : Bool := false
  /-- How much had been said when the bus took its last position. -/
  since : Nat := 0
  attended : List Attendance := []

namespace Peer

def site (p : Peer) (m : Medium) : Site := ⟨p.bus, m⟩

def life (p : Peer) (m : Medium) : Life where
  site := p.site m
  died := p.died
  refused := p.refused

/-- How much had been said when the bus took its last position, `now` being said before the event. -/
def listenedAt (p : Peer) (m : Medium) (now : Nat) : Life.Event → Nat
  | .act id => if ((p.site m).acting? id .listen).isSome then now else p.since
  | _ => p.since

/-- The connections after an event that led to a state of the bus. -/
def attending (p : Peer) (m : Medium) (b : Bus) : Life.Event → List Attendance
  | .act id =>
    if ((p.site m).acting? id .spawn).isSome then
      p.attended ++ [{ task := p.bus.next, since := p.since }]
    else p.attended
  | .run id => p.attended.map fun a =>
    if a.task = id then a.heard ((p.site m).receipts id) p.bus.reception b.reception else a
  | _ => p.attended

/-- What the bus puts into the queue with an event, being the one with a number. -/
def saying (p : Peer) (i : Nat) (m : Medium) (absent : List Nat) : Life.Event → List Said
  | .act id =>
    (((p.site m).acting? id .transmit).bind fun o => o.request.frame?).toList.map fun frame =>
      { sender := i, call := id, origin := p.bus.origin, frame := frame, absent := absent }
  | _ => []

/-- The bus after an event. -/
def after (p : Peer) (m : Medium) (now : Nat) (event : Life.Event) : Peer :=
  let w := (p.life m).after event
  { bus := w.site.bus
    died := w.died
    refused := w.refused
    since := p.listenedAt m now event
    attended := p.attending m w.site.bus event }

end Peer

/-- The buses on a channel, what they share with all others, and what was put into the queue. -/
structure Channel where
  name : String
  queue : QueueId
  medium : Medium
  peers : List Peer := []
  said : List Said := []

namespace Channel

inductive Event where
  /-- Another bus is made on the channel. -/
  | join (config : BusConfig)
  /-- Something happens on a bus of the channel. -/
  | on (peer : Nat) (event : Life.Event)
  /-- Something happens that is no action of these buses. -/
  | outside
deriving DecidableEq

/-- The buses that are not connected. -/
def absent (c : Channel) : List Nat :=
  (List.range c.peers.length).filter fun i => c.peers[i]?.any fun p => p.bus.isAway

/-- What an event makes of the channel, where outside nothing happens. -/
def after (c : Channel) : Event → Channel
  | .join config =>
    match (Bus.make .virtual c.name config).run c.medium with
    | (.ok bus, medium) => { c with medium := medium, peers := c.peers ++ [{ bus := bus }] }
    | (.error _, medium) => { c with medium := medium }
  | .on i event =>
    match c.peers[i]? with
    | none => c
    | some p => { c with
        medium := ((p.life c.medium).after event).site.medium
        peers := c.peers.set i (p.after c.medium c.said.length event)
        said := c.said ++ p.saying i c.medium c.absent event }
  | .outside => c

/-- Whatever happens next, on the channel or elsewhere. What others do leaves the channel its queue and
what was sent through it; how much of that the queue keeps for those who are behind may change. -/
inductive Step : Event → Channel → Channel → Prop where
  | own {c : Channel} {event : Event} (hown : event ≠ .outside) : Step event c (c.after event)
  | outside {c : Channel} {medium : Medium}
      (hspares : Kernel.Spares (fun _ => False) c.medium.kernel medium.kernel)
      (helsewhere : Hub.Elsewhere c.name c.queue c.medium.hub medium.hub) :
      Step .outside c { c with medium := medium }

/-- Any number of steps. -/
inductive Run (c : Channel) : Channel → Prop where
  | refl : Run c c
  | step {c' c'' : Channel} {event : Event} (hrun : Run c c') (hstep : Step event c' c'') :
      Run c c''

/-- The steps of some events, one after the other. -/
def replay (c : Channel) (events : List Event) : Channel := events.foldl after c

theorem run_replay (c : Channel) {events : List Event} (h : ∀ event ∈ events, event ≠ .outside) :
    Run c (c.replay events) := by
  have hall : ∀ c', Run c c' → Run c (c'.replay events) := by
    induction events with
    | nil => exact fun c' hrun => hrun
    | cons event rest ih =>
      rw [List.forall_mem_cons] at h
      exact fun c' hrun => ih h.2 _ (.step hrun (.own h.1))
  exact hall c .refl

/-- A channel whose first bus was just made. -/
def opened (name : String) (b : Bus) (m : Medium) : Channel where
  name := name
  queue := b.queue
  medium := m
  peers := [{ bus := b }]

theorem mem_absent {c : Channel} {i : Nat} {p : Peer} (hpeer : c.peers[i]? = some p)
    (h : i ∈ c.absent) : p.bus.isAway = true := by
  rw [absent, List.mem_filter, hpeer] at h
  exact h.2

end Channel

end CanTransport
