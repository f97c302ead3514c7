import CanTransport.Bus.Receiver
/-!
# Operations

Connecting, disconnecting and sending, as the actions that callers perform. One lock lets only one
connect or disconnect at a time beyond its entrance; sends do not take it. A connect finds the task
of the last connection still running, and does nothing, or takes that connection down first.
-/

namespace CanTransport

namespace Transport

/-- The actions that take a connection down. The threads of blocking reads end once their socket is
closed; the other tasks are cancelled, and what they read is given up only after they exited. -/
def teardown : Transport → Bool → List Action
  | blocking, _ => [.unpublish, .closeSocket, .join, .letGo, .check]
  | cancellable, _ | batched, _ => [.cancel, .join, .unpublish, .closeSocket, .letGo, .check]
  | ring, _ => [.cancel, .join, .unpublish, .letGo, .clearEchoes, .check]
  | virtual, reconnecting =>
    (if reconnecting then [] else [.lowerFlag]) ++ [.cancel, .join, .check]

/-- The actions that make a connection. -/
def setup : Transport → List Action
  | cancellable => [.acquire, .register, .spawn, .publish, .store]
  | virtual => [.listen, .spawn, .store, .raiseFlag]
  | _ => [.acquire, .spawn, .publish, .store]

/-- The actions of a send. -/
def transmission : Transport → List Action
  | ring => [.borrow, .remember, .write, .countSent]
  | virtual => [.checkFlag, .transmit, .countSent]
  | _ => [.borrow, .write, .countSent]

end Transport

namespace Request

/-- What is to be done at first. -/
def start (transport : Transport) : Request → List Action
  | connect | disconnect => [.enter]
  | send _ => transport.transmission

/-- What is to be done after the last connection is down. -/
def remainder (transport : Transport) : Request → List Action
  | connect => transport.setup ++ [.leave]
  | disconnect => if transport = .ring then [.dropIdle, .leave] else [.leave]
  | send _ => []

/-- What is to be done after a failure. -/
def cleanup (transport : Transport) : Request → List Action
  | connect | disconnect => [.letGo, .leave]
  | send _ => if transport = .ring then [.forget] else []

/-- The record that a send hands over. -/
def wire? : Request → Option Wire
  | send frame => some frame.encode
  | _ => none

end Request

namespace Operation

/-- Gives an operation up. -/
def giveUp (o : Operation) (e : Error) (todo : List Action) : Operation :=
  { o with failure := some e, todo := todo }

/-- The entrance of connect and disconnect. -/
def enter (s : Site) (o : Operation) : Option (Site × Operation) :=
  let b := s.bus
  if b.lock.isSome then none
  else
    let b := { b with lock := some o.id }
    match b.connection with
    | none => some (s.setBus b, { o with todo := o.request.remainder b.transport })
    | some c =>
      let running := match b.receiver? c.receiver with
        | some r => !r.hasExited
        | none => false
      let reconnecting := o.request = .connect
      if reconnecting && running then some (s.setBus b, { o with todo := [.leave] })
      else
        some (s.setBus { b with connection := none }, { o with
          receiver := some c.receiver
          handle := c.socket
          todo := b.transport.teardown reconnecting ++ o.request.remainder b.transport })

/-- Waits for the task of the connection that was taken. -/
def join (s : Site) (o : Operation) : Option (Site × Operation) :=
  match o.receiver.bind s.bus.receiver? with
  | none => some (s, o)
  | some r =>
    match r.stage with
    | .exited died =>
      let s := s.setBus { s.bus with receivers := s.bus.receivers.filter (·.id != r.id) }
      let failure := if died then some (.taskJoin "the listener died") else o.failure
      some (s, { o with receiver := none, failure := failure })
    | _ => none

/-- Acquires a resource, or takes the idle one. -/
def acquire (s : Site) (o : Operation) : Site × Operation :=
  let b := s.bus
  match b.idle with
  | some key => (s.setBus { b with idle := none }, { o with handle := some key })
  | none =>
    match s.onKernel (Resource.acquire b.transport b.channel b.config).run with
    | (.ok resource, s) =>
      (s.setBus { s.bus with resources := s.bus.resources ++ [resource] },
        { o with handle := some resource.key })
    | (.error e, s) => (s, o.giveUp e (o.request.cleanup b.transport))

/-- Registers the socket at hand for readiness. -/
def register (s : Site) (o : Operation) : Operation :=
  if o.handle.any s.medium.kernel.isPollable then o
  else o.giveUp (.resource .registerCan (.os .notPermitted)) (o.request.cleanup s.bus.transport)

/-- Starts a reception task. -/
def spawn (s : Site) (o : Operation) : Site × Operation :=
  let s := s.onReception (Reception.publish .running)
  let b := s.bus
  let r : Receiver := { id := b.next, handle := o.handle, position := o.position }
  (s.setBus { b with receivers := b.receivers ++ [r], next := b.next + 1 },
    { o with receiver := some r.id })

/-- Sends the record through the socket at hand. -/
def write (s : Site) (o : Operation) : Site × Operation :=
  match o.handle.bind s.bus.resource?, o.request.wire? with
  | some resource, some raw =>
    match s.onKernel (resource.socket.writeWire raw).run with
    | (.ok (), s) => (s, o)
    | (.error e, s) => (s, o.giveUp e (o.request.cleanup s.bus.transport))
  | _, _ => (s, o.giveUp .notConnected [])

/-- Performs an action, unless it has to wait. -/
def perform (s : Site) (o : Operation) : Action → Option (Site × Operation)
  | .enter => o.enter s
  | .leave => some (s.setBus { s.bus with lock := none }, o)
  | .cancel =>
    match o.receiver.bind s.bus.receiver? with
    | none => some (s, o)
    | some r => some (s.setBus (s.bus.setReceiver { r with cancelled := true }), o)
  | .join => o.join s
  | .unpublish =>
    some (s.setBus { s.bus with published := none },
      { o with handle := s.bus.published <|> o.handle })
  | .closeSocket =>
    match o.handle with
    | none => some (s, o)
    | some key => some (s.setBus (s.bus.closeSocket key), o)
  | .letGo => some (s, { o with handle := none })
  | .clearEchoes => some (s.setBus { s.bus with echoes := s.bus.echoes.clear }, o)
  | .check => some (s, if o.failure.isSome then { o with todo := [.leave] } else o)
  | .acquire => some (o.acquire s)
  | .register => some (s, o.register s)
  | .listen => some (s, { o with position := s.medium.hub.tail s.bus.queue })
  | .spawn => some (o.spawn s)
  | .publish => some (s.setBus { s.bus with published := o.handle }, o)
  | .store =>
    let socket := if s.bus.transport = .blocking then o.handle else none
    let connection := o.receiver.map fun id => { receiver := id, socket := socket }
    some (s.setBus { s.bus with connection := connection }, { o with handle := none })
  | .raiseFlag => some (s.setBus { s.bus with flag := true }, o)
  | .lowerFlag => some (s.setBus { s.bus with flag := false }, o)
  | .dropIdle => some (s.setBus { s.bus with idle := none }, o)
  | .borrow =>
    match s.bus.published with
    | none => some (s, o.giveUp .notConnected [])
    | some key => some (s, { o with handle := some key })
  | .checkFlag => some (s, if s.bus.flag then o else o.giveUp .notConnected [])
  | .remember =>
    match o.request.wire? with
    | none => some (s, o)
    | some raw => some (s.setBus { s.bus with echoes := s.bus.echoes.record raw }, o)
  | .write => some (o.write s)
  | .forget =>
    match o.request.wire? with
    | none => some (s, o)
    | some raw => some (s.setBus { s.bus with echoes := s.bus.echoes.forget raw }, o)
  | .transmit =>
    match o.request.wire? with
    | none => some (s, o)
    | some raw =>
      some (s.setHub (s.medium.hub.send s.bus.queue { origin := s.bus.origin, raw := raw }), o)
  | .countSent => some (s.count Stats.countSent, o)

/-- What an operation without anything left to do reports. -/
def outcome (o : Operation) : Except Error Unit :=
  match o.failure with
  | none => .ok ()
  | some e => .error e

end Operation

/-- What became of an operation after an action. -/
inductive Progress where
  | waits
  | goesOn
  | ends (outcome : Except Error Unit)
deriving Repr

namespace Site

/-- Begins an operation; returns its number. -/
def start (s : Site) (request : Request) : OperationId × Site :=
  let b := s.bus
  let o : Operation := { id := b.next, request := request, todo := request.start b.transport }
  (b.next, s.setBus { b with operations := b.operations ++ [o], next := b.next + 1 })

/-- Removes an operation that has ended. -/
def finish (s : Site) (o : Operation) : Site :=
  (s.setBus { s.bus with operations := s.bus.operations.filter (·.id != o.id) }).collect

/-- One action of the operation with a number. -/
def advance (s : Site) (id : OperationId) : Progress × Site :=
  match s.bus.operations.find? (·.id == id) with
  | none => (.ends (.ok ()), s)
  | some o =>
    match o.todo with
    | [] => (.ends o.outcome, s.finish o)
    | action :: rest =>
      match { o with todo := rest }.perform s action with
      | none => (.waits, s)
      | some (s, o) => (.goesOn, (s.setBus (s.bus.setOperation o)).collect)

end Site

end CanTransport
