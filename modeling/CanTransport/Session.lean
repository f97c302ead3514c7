import CanTransport.Bus.Lifetime
import CanTransport.Bus.Run
/-!
# Sessions

Named buses on one medium with a clock of their own. Threads run whenever there is something for
them to do; the other reception tasks run while the clock moves, while arrivals are awaited, and
while an operation waits for one of them.
-/

namespace CanTransport

/-- A bus with its name. -/
structure Member where
  name : String
  bus : Bus
  /-- Deliveries that were reported. -/
  shown : Nat := 0

structure Session where
  medium : Medium := {}
  members : List Member := []

/-- What is seen of a bus. -/
structure Snapshot where
  state : ReceptionState
  /-- Deliveries to logging listeners since the last snapshot. -/
  received : List (String × Frame)
  /-- Whether the bus is connected, and its counters, while it exists. -/
  live : Option (Bool × Stats)

namespace Session

def find? (s : Session) (name : String) : Option Member :=
  s.members.find? (·.name == name)

/-- Applies an operation to the members with a name. -/
def visit {α : Type} (s : Session) (name : String) (default : α) (f : Site → α × Site) :
    α × Session :=
  let visitOne := fun (acc : (α × Medium) × List Member) (m : Member) =>
    let ((result, medium), members) := acc
    if m.name = name then
      let (result, site) := f { bus := m.bus, medium := medium }
      ((result, site.medium), members ++ [{ m with bus := site.bus }])
    else ((result, medium), members ++ [m])
  let ((result, medium), members) := s.members.foldl visitOne ((default, s.medium), [])
  (result, { medium := medium, members := members })

/-- Applies a change to every bus in turn. -/
def forEach (s : Session) (f : Site → Site) : Session :=
  let visitOne := fun (acc : Medium × List Member) (m : Member) =>
    let site := f { bus := m.bus, medium := acc.1 }
    (site.medium, acc.2 ++ [{ m with bus := site.bus }])
  let (medium, members) := s.members.foldl visitOne (s.medium, [])
  { medium := medium, members := members }

/-- Runs the threads until they wait. -/
def runThreads (s : Session) : Session :=
  s.forEach (Site.runAll fun site _ => site.bus.transport.isThreaded)

/-- Runs every reception task until it waits. -/
def runAll (s : Session) : Session := s.forEach (Site.runAll fun _ _ => true)

/-- Runs the reception tasks that can go on without news from a socket. -/
def runAwake (s : Session) : Session :=
  s.forEach (Site.runAll fun site r =>
    site.bus.transport != .cancellable || r.cancelled || match r.stage with
      | .top => false
      | _ => true)

/-- Adds a bus. -/
def add (s : Session) (name : String) (make : Medium.Op Bus) : Except Error Bus × Session :=
  let (result, medium) := make.run s.medium
  let s := { s with medium := medium }
  match result with
  | .ok bus => (.ok bus, { s with members := s.members ++ [{ name := name, bus := bus }] })
  | .error e => (.error e, s)

/-- Performs an operation that was begun; while it waits, other tasks run. -/
def complete (name : String) (id : OperationId) : Nat → Session → Except Error Unit × Session
  | 0, s => (.error .notConnected, s)
  | fuel + 1, s =>
    match s.visit name (.ends (.error .notConnected)) (Site.advanceFar id Site.actions) with
    | (.ends outcome, s) => (outcome, s)
    | (_, s) => complete name id fuel s.runAwake

/-- Performs an operation. -/
def request (s : Session) (name : String) (r : Request) : Except Error Unit × Session :=
  let (id, s) := s.visit name 0 fun site => site.start r
  let (outcome, s) := complete name id 4 s
  (outcome, s.runThreads)

/-- Sends a frame several times, until one send fails. -/
def sendTimes (name : String) (frame : Frame) : Nat → Session → Except Error Unit × Session
  | 0, s => (.ok (), s)
  | times + 1, s =>
    match s.request name (.send frame) with
    | (.ok (), s) => sendTimes name frame times s
    | failed => failed

def subscribe (s : Session) (name : String) (listener : Listener) : Session :=
  (s.visit name () fun site => ((), site.onReception (Reception.subscribe listener))).2

/-- Drops a bus. -/
def drop (s : Session) (name : String) : Session :=
  (s.visit name () fun site => ((), site.drop)).2.runThreads

/-- The sleepers of a bus: deadline, order, member, task. -/
def sleepers (m : Member) : List (Nat × Nat × String × ReceiverId) :=
  m.bus.receivers.filterMap fun r =>
    match r.stage with
    | .sleeping deadline order => some (deadline, order, m.name, r.id)
    | _ => none

/-- The sleeper that wakes first. -/
def firstSleeper (s : Session) : Option (Nat × Nat × String × ReceiverId) :=
  (s.members.flatMap sleepers).foldl (fun best candidate =>
    match best with
    | none => some candidate
    | some (deadline, order, _, _) =>
      if candidate.1 < deadline ∨ (candidate.1 = deadline ∧ candidate.2.1 < order)
      then some candidate else best) none

def setNow (s : Session) (now : Nat) : Session :=
  { s with medium := { s.medium with now := now } }

/-- Wakes the sleepers whose time comes until `target`, one after the other. -/
def wakeUntil (target : Nat) : Nat → Session → Session
  | 0, s => s
  | fuel + 1, s =>
    match s.firstSleeper with
    | some (deadline, _, name, id) =>
      if deadline ≤ target then
        let s := s.setNow (max s.medium.now deadline)
        wakeUntil target fuel
          (s.visit name () fun site => ((), site.runToRest id site.work)).2
      else s
    | none => s

/-- Whether a thread is reading. -/
def hasThread (s : Session) : Bool :=
  s.members.any fun m => m.bus.transport.isThreaded && m.bus.receivers.any (!·.hasExited)

/-- Lets the tasks run, moves the clock, and lets them run again. The clock stands still while a
thread is reading. -/
def settle (s : Session) (ms : Nat) : Session :=
  let s := s.runAll
  let target := if s.hasThread then s.medium.now else s.medium.now + ms
  let fuel := (ms + 1) * total (s.members.map fun m => m.bus.receivers.length)
  ((wakeUntil target fuel s).setNow target).runAll

/-- Applies a kernel operation. -/
def onKernel {α : Type} (s : Session) (op : StateM Kernel α) : α × Session :=
  let (a, kernel) := op.run s.medium.kernel
  (a, { s with medium := { s.medium with kernel := kernel } })

/-- What is seen of a member now; its deliveries count as reported. -/
def snapshotOf (m : Member) : Snapshot × Member :=
  let deliveries := m.bus.reception.deliveries
  let received := (deliveries.drop m.shown).filterMap fun d =>
    if d.returned then d.log.map fun log => (log, d.frame) else none
  ({ state := m.bus.reception.state
     received := received
     live := if m.bus.alive then some (m.bus.isConnected, m.bus.reception.stats) else none },
    { m with shown := deliveries.length })

/-- What is seen of a bus. -/
def snapshot (s : Session) (name : String) : Option Snapshot × Session :=
  let seen := (s.find? name).map fun m => (snapshotOf m).1
  (seen, { s with members := s.members.map fun m =>
    if m.name = name then (snapshotOf m).2 else m })

/-- What is seen of every bus. -/
def snapshots (s : Session) : List (String × Snapshot) × Session :=
  (s.members.map fun m => (m.name, (snapshotOf m).1),
    { s with members := s.members.map fun m => (snapshotOf m).2 })

end Session

end CanTransport
