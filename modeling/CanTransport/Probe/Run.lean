import CanTransport.Config.Load
import CanTransport.Probe.Arguments
import CanTransport.Probe.Dump
import CanTransport.Probe.Output
import CanTransport.Registry
import CanTransport.Session
import CanTransport.Yaml.Printer
/-!
# The probe

Lists transports, prints the configuration, dumps what a channel receives and sends frames, each as
a function from an invocation to what is printed.
-/

namespace CanTransport.Probe

/-- What a run leaves behind. -/
structure Result where
  code : Nat := 0
  stdout : String := ""
  stderr : String := ""
deriving DecidableEq, Repr

/-- A run that ends with an error, given by its message and its causes. -/
def Result.failed (stdout : String) (chain : List String) : Result :=
  { code := 1, stdout := stdout, stderr := report chain }

/-- A run that ends with the outcome of an operation. -/
def Result.ofOutcome (stdout : String) : Except Error Unit → Result
  | .ok () => { stdout := stdout }
  | .error e => .failed stdout e.chain

/-- What a refused command line leads to. -/
def Result.refused : Refusal → Result
  | .usage => { code := 2 }
  | .help => { stdout := "Usage: canprobe [OPTIONS] <COMMAND>\n" }
  | .version => { stdout := "canprobe 0.1.0\n" }

/-- The name of the only bus of a run. -/
def probed : String := "probed"

def listing (colors : Bool) (transport : String) (names : List String) : String :=
  String.join (names.map fun name =>
    styled colors .green (if name = transport then "*" else " ") ++ " " ++ name ++ "\n")

/-- The state of the bus of a run. -/
def reception (s : Session) : Reception :=
  ((s.find? probed).map fun m => m.bus.reception).getD {}

/-- What a dump prints and how it ends. -/
def dump (limit : Option Nat) (s : Session) : Except Error (List Frame × Ending) × Session :=
  let s := s.subscribe probed { log := some probed }
  match s.request probed .connect with
  | (.error e, s) => (.error e, s)
  | (.ok (), s) =>
    let s := s.runAll
    (.ok (follow limit 0 (wakes (reception s))), s)

/-- A dump with the counters behind it. -/
def runDump (colors : Bool) (channel : String) (limit : Option Nat) (json : Bool) (s : Session) :
    Result :=
  let (result, s) := dump limit s
  let lines := match result with
    | .ok (frames, _) => String.join (frames.map fun frame =>
        "  " ++ styled colors .cyan channel ++ "  " ++ frame.text ++ "\n")
    | .error _ => ""
  match s.request probed .disconnect with
  | (.error e, _) => .failed lines e.chain
  | (.ok (), s) =>
    let stats := (reception s).stats
    let stdout := lines ++ (if json then statsJson stats else statsText colors stats)
    match result with
    | .error e => .failed stdout e.chain
    | .ok (_, .failed reason) => .failed stdout ["Reception stopped: " ++ reason]
    | .ok _ => { stdout := stdout }

/-- Sends a frame a number of times with pauses between, until one send fails. -/
def sendAll (frame : Frame) (interval : Nat) : Nat → Session → Except Error Unit × Session
  | 0, s => (.ok (), s)
  | times + 1, s =>
    match s.request probed (.send frame) with
    | (.error e, s) => (.error e, s)
    | (.ok (), s) =>
      let s := if 0 < times ∧ 0 < interval then s.settle interval else s
      sendAll frame interval times s

/-- A send between connecting and disconnecting; an error of the disconnect goes first. -/
def runSend (colors : Bool) (channel : String) (frame : Frame) (times interval : Nat)
    (s : Session) : Result :=
  match s.request probed .connect with
  | (.error e, _) => .failed "" e.chain
  | (.ok (), s) =>
    let (sent, s) := sendAll frame interval times s
    let stdout := match sent with
      | .ok () => styled colors .green "sent" ++ " " ++ frame.text ++ " x" ++ Text.decimal times
          ++ " on " ++ channel ++ "\n"
      | .error _ => ""
    match s.request probed .disconnect with
    | (.error e, _) => .failed stdout e.chain
    | (.ok (), _) =>
      match sent with
      | .error e => .failed stdout (("Failed to send " ++ frame.text) :: e.chain)
      | .ok () => { stdout := stdout }

namespace Invocation

/-- Runs a command on a bus of the transport and channel that were chosen. -/
def onBus (i : Invocation) (c : BusConfig) (s : Session) (command : Session → Result) : Result :=
  match s.add probed (Registry.withDefaults.createWith i.transport i.channel c) with
  | (.error e, _) =>
    .failed "" (("Cannot open " ++ i.transport ++ " on " ++ i.channel) :: e.chain)
  | (.ok _, s) => command s

/-- Runs a command with the content of the configuration file, if there is one. -/
def run (i : Invocation) (environment : List (String × String)) (content : Option String)
    (s : Session) : Result :=
  let file := i.configPath.map fun path => { path := path, content := content : SourceFile }
  let colors := wantsColors i.noColor environment
  match BusConfig.load file environment with
  | .error fault => .failed "" ("Failed to load bus config" :: fault.toError.chain)
  | .ok c =>
    match i.command with
    | .list => { stdout := listing colors i.transport Registry.withDefaults.names }
    | .config => { stdout := Yaml.print c.fields }
    | .dump limit json => i.onBus c s (runDump colors i.channel limit json)
    | .send frame times interval => i.onBus c s (runSend colors i.channel frame times interval)

end Invocation

end CanTransport.Probe
