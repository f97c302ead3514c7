import CanTransport.Bus.Operation
/-!
# Running one bus

Reception tasks and operations, run as far as they go without anything else happening.
-/

namespace CanTransport

/-- The sum of a list of numbers. -/
def total (numbers : List Nat) : Nat := numbers.foldr (· + ·) 0

namespace Site

/-- More actions than any reception task can perform before it waits. -/
def work (s : Site) : Nat :=
  let waiting := total (s.medium.kernel.raws.map fun (_, raw) => raw.arrivals.length)
  let messages := total (s.medium.hub.queues.map fun (_, q) => q.sent.size)
  let slots := total (s.bus.resources.map fun r => (r.ring.map fun (_, g) => g.slotCount).getD 0)
  16 + 4 * waiting + 4 * messages + 8 * slots

/-- Runs a reception task until it waits, for at most `fuel` actions. -/
def runToRest (id : ReceiverId) : Nat → Site → Site
  | 0, s => s
  | fuel + 1, s =>
    match s.bus.receiver? id with
    | none => s
    | some r => if r.isReady s then runToRest id fuel (s.run id) else s

/-- Runs the reception tasks of a kind until they wait. -/
def runAll (kind : Site → Receiver → Bool) (s : Site) : Site :=
  s.bus.receivers.foldl (fun s r =>
    if kind s r then runToRest r.id s.work s else s) s

/-- Performs an operation up to its end, or until it has to wait. -/
def advanceFar (id : OperationId) : Nat → Site → Progress × Site
  | 0, s => (.waits, s)
  | fuel + 1, s =>
    match s.advance id with
    | (.goesOn, s) => advanceFar id fuel s
    | (progress, s) => (progress, s)

/-- More actions than any operation has. -/
def actions : Nat := 32

end Site

end CanTransport
