import CanTransport.Frame.Candump
/-!
# Command lines of the probe

A command line is a command with options before and behind it. Options of the whole tool may stand
at either place; behind the command they win. An option has a long name, perhaps a letter, and
perhaps a value; letters may stand together, and the value of the last one right behind it.
-/

namespace CanTransport.Probe

/-- The options of all commands. -/
inductive Switch where
  | transport
  | channel
  | config
  | verbose
  | noColor
  | help
  | version
  | count
  | json
  | repeat_
  | interval
deriving DecidableEq, Repr

namespace Switch

def long : Switch → String
  | transport => "transport"
  | channel => "channel"
  | config => "config"
  | verbose => "verbose"
  | noColor => "no-color"
  | help => "help"
  | version => "version"
  | count => "count"
  | json => "json"
  | repeat_ => "repeat"
  | interval => "interval-ms"

def letter? : Switch → Option Char
  | transport => some 't'
  | channel => some 'c'
  | verbose => some 'v'
  | help => some 'h'
  | version => some 'V'
  | count => some 'n'
  | repeat_ => some 'r'
  | _ => none

def takesValue : Switch → Bool
  | transport | channel | config | count | repeat_ | interval => true
  | _ => false

/-- Options that may stand anywhere. -/
def everywhere : List Switch := [transport, channel, config, verbose, noColor, help]

end Switch

/-- The part of a command line that is being read. -/
inductive Level where
  /-- In front of the command. -/
  | tool
  | list
  | config
  | dump
  | send
deriving DecidableEq, Repr

namespace Level

def switches : Level → List Switch
  | tool => .version :: Switch.everywhere
  | list | config => Switch.everywhere
  | dump => Switch.everywhere ++ [.count, .json]
  | send => Switch.everywhere ++ [.repeat_, .interval]

def ofName? : String → Option Level
  | "list" => some list
  | "config" => some config
  | "dump" => some dump
  | "send" => some send
  | _ => none

def longSwitch? (level : Level) (name : List Char) : Option Switch :=
  level.switches.find? fun s => s.long.toList == name

def letterSwitch? (level : Level) (letter : Char) : Option Switch :=
  level.switches.find? fun s => s.letter? == some letter

end Level

/-- Why a command line is no order to do something. -/
inductive Refusal where
  | usage
  | help
  | version
deriving DecidableEq, Repr

/-- An option that was read, with its value; flags have an empty one. -/
abbrev Given := List (Switch × String)

/-- What was read at a level. -/
structure Part where
  level : Level
  given : Given := []
  frame : Option Frame := none

/-- A whole number with a sign, which must lie between zero and `limit`. -/
def signedNumber? (limit : Nat) (cs : List Char) : Option Nat :=
  match cs with
  | '-' :: digits =>
    if digits.isEmpty then none else (Text.digitsValue? 10 0 digits).filter (· = 0)
  | cs => Text.readUnsigned? 10 limit cs

/-- Whether an option can have a value. -/
def accepts (s : Switch) (value : String) : Bool :=
  match s with
  | .config => !value.isEmpty
  | .count | .interval => (Text.readUnsigned? 10 0xFFFFFFFFFFFFFFFF value.toList).isSome
  | .repeat_ => (signedNumber? 0xFFFFFFFF value.toList).isSome
  | _ => true

/-- Adds an option; no option may be given twice at a level. -/
def Part.add (p : Part) (s : Switch) (value : String) : Except Refusal Part :=
  match s with
  | .help => .error .help
  | .version => .error .version
  | s =>
    if (p.given.lookup s).isSome || !accepts s value then .error .usage
    else .ok { p with given := p.given ++ [(s, value)] }

/-- Adds an argument that is no option: the frame of a send. -/
def Part.addArgument (p : Part) (arg : String) : Except Refusal Part :=
  match p.level, p.frame with
  | .send, none =>
    match Frame.ofText arg with
    | .ok frame => .ok { p with frame := some frame }
    | .error _ => .error .usage
  | _, _ => .error .usage

/-- Whether an argument begins an option. -/
def isOption (arg : String) : Bool :=
  match arg.toList with
  | '-' :: _ :: _ => true
  | _ => false

/-- Letters that stand together: the part with them, and the option that still needs a value. -/
def letters (p : Part) : List Char → Except Refusal (Part × Option Switch)
  | [] => .ok (p, none)
  | letter :: rest =>
    match p.level.letterSwitch? letter with
    | none => .error .usage
    | some s =>
      if s.takesValue then
        match rest with
        | [] => .ok (p, some s)
        | '=' :: value => (p.add s (String.ofList value)).map (·, none)
        | value => (p.add s (String.ofList value)).map (·, none)
      else do
        let p ← p.add s ""
        letters p rest

/-- A long option: the part with it, or the option that still needs a value. -/
def longOption (p : Part) (body : List Char) : Except Refusal (Part × Option Switch) :=
  let name := body.takeWhile (· != '=')
  match p.level.longSwitch? name, body.dropWhile (· != '=') with
  | none, _ => .error .usage
  | some s, [] => if s.takesValue then .ok (p, some s) else (p.add s "").map (·, none)
  | some s, _ :: value =>
    if s.takesValue then (p.add s (String.ofList value)).map (·, none) else .error .usage

/-- What the arguments of a level lead to: the parts read, the command's part last. After a double
dash nothing is an option or a command. -/
def read (p : Part) (waiting : Option Switch) (plain : Bool) (done : List Part) :
    List String → Except Refusal (List Part)
  | [] => if waiting.isSome then .error .usage else .ok (done ++ [p])
  | arg :: rest =>
    match waiting with
    | some s =>
      if isOption arg then .error .usage
      else do read (← p.add s arg) none plain done rest
    | none =>
      if plain then do read (← p.addArgument arg) none true done rest
      else if arg = "--" then read p none true done rest
      else if isOption arg then do
        let (p, waiting) ← match arg.toList with
          | '-' :: '-' :: body => longOption p body
          | body => letters p (body.drop 1)
        read p waiting false done rest
      else
        match p.level with
        | .tool =>
          match Level.ofName? arg with
          | some level => read { level := level } none false (done ++ [p]) rest
          | none => .error (if arg = "help" then .help else .usage)
        | _ => do read (← p.addArgument arg) none false done rest

inductive Command where
  | list
  | config
  | dump (limit : Option Nat) (json : Bool)
  | send (frame : Frame) (times interval : Nat)
deriving Repr

/-- What a command line asks for. -/
structure Invocation where
  command : Command
  transport : String
  channel : String
  configPath : Option String
  noColor : Bool
deriving Repr

/-- The value of an option of the whole tool; behind the command it wins. -/
def chosen (tool command : Part) (s : Switch) : Option String :=
  (command.given.lookup s).or (tool.given.lookup s)

/-- A number given as an option. -/
def Part.number? (p : Part) (s : Switch) : Option Nat :=
  (p.given.lookup s).bind fun value => signedNumber? 0xFFFFFFFFFFFFFFFF value.toList

def Part.command? (p : Part) : Option Command :=
  match p.level with
  | .tool => none
  | .list => some .list
  | .config => some .config
  | .dump => some (.dump (p.number? .count) (p.given.lookup .json).isSome)
  | .send => p.frame.map fun frame =>
      .send frame ((p.number? .repeat_).getD 1) ((p.number? .interval).getD 0)

namespace Invocation

/-- Reads a command line; environment variables stand for options that are not given. -/
def ofArguments (environment : List (String × String)) (args : List String) :
    Except Refusal Invocation := do
  match ← read { level := .tool } none false [] args with
  | [tool, part] =>
    match part.command? with
    | none => .error .usage
    | some command => return {
        command := command
        transport := ((chosen tool part .transport).or
          (environment.lookup "CANPROBE_TRANSPORT")).getD "socketcan"
        channel := ((chosen tool part .channel).or
          (environment.lookup "CANPROBE_CHANNEL")).getD "can0"
        configPath := chosen tool part .config
        noColor := (chosen tool part .noColor).isSome }
  | _ => .error .usage

end Invocation

end CanTransport.Probe
