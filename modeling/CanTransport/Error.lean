import CanTransport.Failure
/-!
# Errors of the transport layer

One type for everything that configuration, frames, the registry and the transports refuse, with
the text shown to a user.
-/

namespace CanTransport

/-- Steps of acquiring operating-system resources that can be refused. -/
inductive Acquisition where
  | openCan
  | setLoopback
  | setReceiveOwn
  | setReceiveTimeout
  | setFilter
  | registerCan
  | createPacket
  | setPacketVersion
  | setReceiveRing
  | mapRing
  | bindPacket
deriving DecidableEq, Repr, Inhabited

def Acquisition.text : Acquisition → String
  | .openCan => "open CAN socket"
  | .setLoopback => "set CAN_RAW_LOOPBACK"
  | .setReceiveOwn => "set CAN_RAW_RECV_OWN_MSGS"
  | .setReceiveTimeout => "set SO_RCVTIMEO"
  | .setFilter => "set CAN_RAW_FILTER"
  | .registerCan => "register CAN socket"
  | .createPacket => "create packet socket"
  | .setPacketVersion => "set PACKET_VERSION"
  | .setReceiveRing => "set PACKET_RX_RING"
  | .mapRing => "map packet ring"
  | .bindPacket => "bind packet socket"

inductive Error where
  /-- A setting that cannot be used. -/
  | config (reason : String)
  /-- A transport name that nobody registered. -/
  | unknownTransport (name : String)
  /-- A network interface that does not exist. -/
  | interfaceNotFound (name : String) (cause : Failure)
  /-- A resource that could not be acquired. -/
  | resource (step : Acquisition) (cause : Failure)
  /-- A failed call on an acquired resource. -/
  | io (cause : Failure)
  /-- A record of which only a part was accepted. -/
  | shortWrite (written expected : Nat)
  /-- A record that is not one whole frame. -/
  | shortRead (read expected : Nat)
  /-- Contents outside the limits of CAN 2.0. -/
  | invalidFrame (reason : String)
  /-- An operation that needs a connection. -/
  | notConnected
  /-- A reception task that died instead of returning. -/
  | taskJoin (reason : String)
deriving DecidableEq, Repr, Inhabited

namespace Error

def text : Error → String
  | .config reason => "Configuration error: " ++ reason
  | .unknownTransport name => "No such transport: " ++ name
  | .interfaceNotFound name _ => "Interface not found: " ++ name
  | .resource step cause => "Failed to " ++ step.text ++ ": " ++ cause.text
  | .io cause => "IO error: " ++ cause.text
  | .shortWrite n expected =>
    "Short write: " ++ Text.decimal n ++ " of " ++ Text.decimal expected ++ " bytes"
  | .shortRead n expected =>
    "Short read: " ++ Text.decimal n ++ " of " ++ Text.decimal expected ++ " bytes"
  | .invalidFrame reason => "Invalid frame: " ++ reason
  | .notConnected => "Not connected"
  | .taskJoin reason => "Reception task failed: " ++ reason

/-- The failure behind an error. -/
def cause? : Error → Option Failure
  | .interfaceNotFound _ cause | .resource _ cause | .io cause => some cause
  | _ => none

/-- Errors that no retry mends. -/
def isConfig : Error → Bool
  | .config _ | .unknownTransport _ | .interfaceNotFound .. => true
  | _ => false

/-- Errors after which a receiver goes on. -/
def isTransient : Error → Bool
  | .io cause => cause.isTransient
  | _ => false

/-- An error and every failure behind it, as texts. -/
def chain (e : Error) : List String :=
  e.text :: e.cause?.toList.map Failure.text

end Error

end CanTransport
