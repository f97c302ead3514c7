import CanTransport.Config.Basic
import CanTransport.Frame.Wire
import CanTransport.Ring.Slot
/-!
# Own echoes

What a bus sends arrives again like anything else on its ring. The records that were sent lately
are kept in order; an arrival that equals one of them is taken for its echo, and everything sent
before it is given up.
-/

namespace CanTransport

structure Echoes where
  /-- Whether echoes arrive and have to be held back. -/
  enabled : Bool
  /-- Records sent whose echo has not arrived, the oldest first. -/
  pending : List Wire := []
deriving DecidableEq, Repr, Inhabited

namespace Echoes

/-- Most records that are remembered. -/
def capacity : Nat := 1024

def ofConfig (c : BusConfig) : Echoes := { enabled := c.loopback && !c.receiveOwnMessages }

/-- Remembers a record; with a full memory the oldest goes. -/
def record (e : Echoes) (raw : Wire) : Echoes :=
  if !e.enabled then e
  else
    let kept := if e.pending.length = capacity then e.pending.drop 1 else e.pending
    { e with pending := kept ++ [raw] }

/-- A list without the last occurrence of an item. -/
def eraseLast (raw : Wire) (pending : List Wire) : List Wire := (pending.reverse.erase raw).reverse

/-- Forgets the latest of the records equal to one that was not sent after all. -/
def forget (e : Echoes) (raw : Wire) : Echoes :=
  if !e.enabled then e else { e with pending := eraseLast raw e.pending }

/-- What lies behind the first occurrence of an item. -/
def after? (raw : Wire) : List Wire → Option (List Wire)
  | [] => none
  | sent :: rest => if sent = raw then some rest else after? raw rest

/-- Whether an arrival is an own echo; if it is, it and all older records are given up. -/
def take (e : Echoes) (raw : Wire) : Bool × Echoes :=
  if !e.enabled then (false, e)
  else
    match after? raw e.pending with
    | some rest => (true, { e with pending := rest })
    | none => (false, e)

def clear (e : Echoes) : Echoes := { e with pending := [] }

end Echoes

/-- What becomes of a packet in the ring. -/
inductive Verdict where
  /-- The copy of a packet on its way out. -/
  | outgoing
  /-- The echo of an own send. -/
  | echo
  /-- No record. -/
  | unusable
  | arrival (raw : Wire)
deriving DecidableEq, Repr

/-- Judges a packet by its kind and by the records sent lately. -/
def Echoes.judge (e : Echoes) : Option Slot.Packet → Verdict × Echoes
  | some (.record raw kind) =>
    if kind = Slot.outgoing then (.outgoing, e)
    else
      match e.take raw with
      | (true, e) => (.echo, e)
      | (false, e) => (.arrival raw, e)
  | some (.unsupported _) => (.unusable, e)
  | none => (.unusable, e)

end CanTransport
