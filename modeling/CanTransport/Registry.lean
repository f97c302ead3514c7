import CanTransport.Bus.Lifetime
/-!
# Registry

Constructors of buses by name. A name is registered with the constructor that was given last;
names are kept in order.
-/

namespace CanTransport

/-- Makes a bus on a channel with a configuration. -/
abbrev Constructor := String → BusConfig → Medium.Op Bus

structure Registry where
  /-- Constructors by name, in the order of the names. -/
  entries : List (String × Constructor) := []

namespace Registry

/-- Puts an entry in its place in order; it replaces an entry of its name. -/
def insert {α : Type} (name : String) (value : α) : List (String × α) → List (String × α)
  | [] => [(name, value)]
  | (n, v) :: rest =>
    if name = n then (name, value) :: rest
    else if name < n then (name, value) :: (n, v) :: rest
    else (n, v) :: insert name value rest

def register (r : Registry) (name : String) (constructor : Constructor) : Registry :=
  { r with entries := insert name constructor r.entries }

/-- Registers every transport under its name. -/
def registerDefaults (r : Registry) : Registry :=
  Transport.all.foldl (fun r t => r.register t.name (Bus.make t)) r

def withDefaults : Registry := registerDefaults {}

def find? (r : Registry) (name : String) : Option Constructor := r.entries.lookup name

def contains (r : Registry) (name : String) : Bool := (r.find? name).isSome

def names (r : Registry) : List String := r.entries.map (·.1)

/-- Makes a bus of a named transport. The configuration is checked before the name. -/
def createWith (r : Registry) (name channel : String) (c : BusConfig) : Medium.Op Bus := do
  liftM c.check
  match r.find? name with
  | none => throw (.unknownTransport name)
  | some constructor => constructor channel c

def create (r : Registry) (name channel : String) : Medium.Op Bus := r.createWith name channel {}

def describe (r : Registry) : String :=
  Text.record "BusRegistry" [("transports", Text.bracketed (r.names.map Text.quoted))]

end Registry

end CanTransport
