import CanTransport.Bus.Basic
/-!
# Reception

The reception loops of the five transports, one action at a time. Sockets are read record by
record, or several at once; a ring is swept slot by slot; a virtual queue is read message by
message. Every loop looks at its stop signal only at the top: the threads of blocking reads at the
closed mark of their socket, the others at their cancellation.
-/

namespace CanTransport

namespace Receiver

/-- What a failed receive call leads to: whether it counts as an error, and where the loop goes.
Timeouts pass unnoticed and interrupted calls are counted; anything else is fatal. -/
def afterFailure (f : Failure) : Bool × Stage :=
  if f.isTransient then (f.kind == .interrupted, .top) else (true, .returned (.error (.io f)))

/-- What a batched receive call without any record means. -/
def emptyBatch : Failure := .custom .unexpectedEnd "batch receive returned no frames"

/-- The resource that a reception task reads. -/
def resource? (s : Site) (r : Receiver) : Option Resource := r.handle.bind s.bus.resource?

/-- What waits in the queue of the task's socket. -/
def arrivals (s : Site) (r : Receiver) : List Arrival :=
  ((r.resource? s).map fun resource => s.medium.kernel.arrivals resource.key).getD []

def isClosed (s : Site) (r : Receiver) : Bool :=
  ((r.resource? s).map fun resource => resource.socket.closed).getD true

/-- Asks the virtual queue. -/
def ask (s : Site) (r : Receiver) : Site × Receiver :=
  match s.medium.hub.receive s.bus.queue r.position with
  | (.message envelope, position) =>
    let r := { r with position := position }
    if envelope.origin = s.bus.origin ∧ s.bus.config.receiveOwnMessages = false then (s, r)
    else (s, r.goTo (.holding [envelope.raw.toList]))
  | (.missed count, position) =>
    (s.count (Stats.countDropped count), { r with position := position })
  | (.closed, _) => (s, r.goTo (.returned (.error .notConnected)))
  | (.nothing, _) => (s, r)

/-- The top of the loop. -/
def atTop (s : Site) (r : Receiver) : Site × Receiver :=
  match s.bus.transport with
  | .blocking =>
    if r.isClosed s then (s, r.goTo (.returned (.ok ()))) else (s, r.goTo .receiving)
  | .cancellable =>
    if r.cancelled then (s, r.goTo (.returned (.ok ())))
    else if (r.arrivals s).isEmpty then (s, r)
    else (s, r.goTo .receiving)
  | .batched =>
    if r.cancelled then (s, r.goTo (.returned (.ok ()))) else (s, r.goTo .receiving)
  | .ring =>
    if r.cancelled then (s, r.goTo (.returned (.ok ())))
    else (s, r.goTo (.looking { cursor := r.cursor }))
  | .virtual =>
    if r.cancelled then (s, r.goTo (.returned (.ok ()))) else r.ask s

/-- A failed receive call; after the close of a blocking socket every failure means its end. -/
def fail (s : Site) (r : Receiver) (f : Failure) : Site × Receiver :=
  if s.bus.transport = .blocking ∧ r.isClosed s then (s, r.goTo (.returned (.ok ())))
  else
    let (counts, stage) := afterFailure f
    (if counts then s.count Stats.countError else s, r.goTo stage)

/-- One receive call. A blocking read has looked at the closed mark before, so that a close in the
meantime does not keep it from a record. -/
def receive (s : Site) (r : Receiver) : Site × Receiver :=
  match r.resource? s with
  | none => (s, r.goTo (.returned (.ok ())))
  | some resource =>
    if s.bus.transport = .batched then
      let call : Kernel.Op Failure (List (List UInt8)) :=
        if resource.socket.closed then throw CanSocket.closedFailure
        else ExceptT.adapt Failure.os (Kernel.receiveMany resource.key s.bus.config.batch.size.toNat)
      match s.onKernel call.run with
      | (.ok [], s) =>
        (s.count Stats.countError, r.goTo (.returned (.error (.io emptyBatch))))
      | (.ok records, s) => (s, r.goTo (.holding records))
      | (.error f, s) => r.fail s f
    else
      let call := if s.bus.transport = .blocking then resource.socket.awaitRecord
        else resource.socket.receive
      match s.onKernel call.run with
      | (.ok bytes, s) => (s, r.goTo (.holding [bytes]))
      | (.error f, s) => r.fail s f

/-- Hands one record on. A task whose listener does not return is gone. -/
def handOn (s : Site) (r : Receiver) (raw : Wire) (next : Stage) : Site × Receiver :=
  let (returned, reception) := s.bus.reception.deliverWire raw
  (s.setBus { s.bus with reception := reception },
    r.goTo (if returned then next else .exited true))

/-- Handles the first of the records at hand. One that is not a whole record is fatal. -/
def handleRecord (s : Site) (r : Receiver) (bytes : List UInt8) (rest : List (List UInt8)) :
    Site × Receiver :=
  if h : bytes.toArray.size = 16 then
    r.handOn s ⟨bytes.toArray, h⟩ (if rest.isEmpty then .top else .holding rest)
  else
    (s.count Stats.countError, r.goTo (.returned (.error (.shortRead bytes.length wireSize))))

/-- Looks at the slot under the cursor and handles its packet. -/
def look (s : Site) (r : Receiver) (g : Geometry) (m : Memory) (sweep : Sweep) : Site × Receiver :=
  match sweep.look g m with
  | none => (s, r.goTo (.swept sweep))
  | some (packet, sweep) =>
    let (verdict, echoes) := s.bus.echoes.judge packet
    let s := s.setBus { s.bus with echoes := echoes }
    match verdict with
    | .outgoing | .echo => (s, r.goTo (.releasing sweep))
    | .unusable => (s.count (Stats.countDropped 1), r.goTo (.releasing sweep))
    | .arrival raw => r.handOn s raw (.releasing sweep)

/-- Asks how many packets the ring lost, and counts them; an answer may fail to come. -/
def countLost (s : Site) : Site :=
  match s.onKernel Kernel.statistics.run with
  | (.ok n, s) => s.count (Stats.countDropped n)
  | (.error _, s) => s

/-- The end of a sweep: another one at once if it went round, otherwise a pause. -/
def endSweep (s : Site) (r : Receiver) (g : Geometry) (sweep : Sweep) : Site × Receiver :=
  let s := if sweep.losing then countLost s else s
  let r := { r with cursor := sweep.cursor }
  if sweep.isRevolution g then (s, r.goTo .top)
  else
    let m := s.medium
    ({ s with medium := { m with sleeps := m.sleeps + 1 } },
      r.goTo (.sleeping (m.now + s.bus.config.ring.pollIntervalMs.toNat) m.sleeps))

/-- One action on the ring. -/
def onRing (s : Site) (r : Receiver)
    (action : Descriptor → Geometry → Memory → Site × Receiver) : Site × Receiver :=
  match (r.resource? s).bind Resource.ring with
  | none => (s, r.goTo (.returned (.ok ())))
  | some (packet, g) => action packet g (s.medium.kernel.memory packet)

/-- One action of a reception task. -/
def step (s : Site) (r : Receiver) : Site × Receiver :=
  match r.stage with
  | .top => r.atTop s
  | .receiving => r.receive s
  | .holding [] => (s, r.goTo .top)
  | .holding (bytes :: rest) => r.handleRecord s bytes rest
  | .looking sweep => r.onRing s fun _ g m => r.look s g m sweep
  | .releasing sweep => r.onRing s fun packet g m =>
    ((s.onKernel (Kernel.setMemory packet (sweep.release g m))).2, r.goTo (.advancing sweep))
  | .advancing sweep => r.onRing s fun _ g _ => (s, r.goTo (.looking (sweep.advance g)))
  | .swept sweep => r.onRing s fun _ g _ => r.endSweep s g sweep
  | .sleeping deadline _ =>
    if r.cancelled then (s, r.goTo (.returned (.ok ())))
    else if deadline ≤ s.medium.now then (s, r.goTo .top)
    else (s, r)
  | .returned outcome => (s.onReception (Reception.finish outcome), r.goTo .published)
  | .published => (s, r.goTo (.exited false))
  | .exited _ => (s, r)

/-- Whether the next action changes anything. -/
def isReady (s : Site) (r : Receiver) : Bool :=
  match r.stage with
  | .top =>
    match s.bus.transport with
    | .cancellable => r.cancelled || !(r.arrivals s).isEmpty
    | .virtual => r.cancelled || (s.medium.hub.receive s.bus.queue r.position).1 != .nothing
    | _ => true
  | .receiving =>
    match s.bus.transport with
    | .blocking => r.isClosed s || !(r.arrivals s).isEmpty
    | .batched => r.cancelled || !(r.arrivals s).isEmpty
    | _ => true
  | .sleeping deadline _ => r.cancelled || deadline ≤ s.medium.now
  | .exited _ => false
  | _ => true

end Receiver

namespace Site

/-- One action of the reception task with a number. -/
def run (s : Site) (id : ReceiverId) : Site :=
  match s.bus.receiver? id with
  | none => s
  | some r =>
    let (s, r) := r.step s
    (s.setBus (s.bus.setReceiver r)).collect

end Site

end CanTransport
