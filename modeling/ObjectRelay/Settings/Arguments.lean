import ObjectRelay.Settings.Basic
import ObjectRelay.Text.Digits

namespace ObjectRelay

structure Arguments where
  settingsPath : String := "bm-node.toml"
  port? : Option UInt16 := none
  bind? : Option String := none
  connect : List String := []
  sync? : Option String := none
  syncTimeout? : Option UInt64 := none
  threads? : Option UInt64 := none
  noBootstrap : Bool := false
  writesSettings : Bool := false
  logLevel : String := "info"
deriving DecidableEq

inductive Switch where
  | config
  | port
  | bind
  | connect
  | sync
  | syncTimeout
  | threads
  | noBootstrap
  | initConfig
  | logLevel
  | help
  | version
deriving DecidableEq

inductive UsageError where
  | unknownArgument
  | missingValue
  | badValue
  | needlessValue
  | repeated
  | helpWanted
  | versionWanted
deriving DecidableEq

def UsageError.message : UsageError → String
  | unknownArgument => "unexpected argument found"
  | missingValue => "a value is required but none was supplied"
  | badValue => "invalid value"
  | needlessValue => "unexpected value found; no more were expected"
  | repeated => "the argument cannot be used multiple times"
  | helpWanted =>
      "Usage: bm-node [-c FILE] [-p PORT] [--bind IP] [--connect HOST:PORT]...\n" ++
      "  [--sync HOST:PORT] [--sync-timeout SECONDS] [--pow-threads COUNT]\n" ++
      "  [--no-bootstrap] [--init-config] [--log-level LEVEL]"
  | versionWanted => "bm-node 0.1.0"

namespace Switch

def all : List Switch :=
  [config, port, bind, connect, sync, syncTimeout, threads, noBootstrap,
    initConfig, logLevel, help, version]

def name : Switch → String
  | config => "config"
  | port => "port"
  | bind => "bind"
  | connect => "connect"
  | sync => "sync"
  | syncTimeout => "sync-timeout"
  | threads => "pow-threads"
  | noBootstrap => "no-bootstrap"
  | initConfig => "init-config"
  | logLevel => "log-level"
  | help => "help"
  | version => "version"

def letter? : Switch → Option Char
  | config => some 'c'
  | port => some 'p'
  | help => some 'h'
  | version => some 'V'
  | _ => none

def ofName? (name : String) : Option Switch :=
  all.find? (·.name = name)

def ofLetter? (letter : Char) : Option Switch :=
  all.find? (·.letter? = some letter)

def takesValue : Switch → Bool
  | noBootstrap | initConfig | help | version => false
  | _ => true

end Switch

namespace Arguments

def number? (bound : Nat) (text : List Char) : Option Nat :=
  let digits := match text with
    | '+' :: rest => rest
    | _ => text
  let value := Text.digitsValue 10 digits
  if digits.isEmpty ∨ !digits.all (Text.isDigit 10) ∨
    bound ≤ value then none else some value

/-- A port may carry either sign, and so zero a minus. -/
def portNumber? (text : String) : Option UInt16 :=
  match text.toList with
  | '-' :: '+' :: _ => none
  | '-' :: rest => (number? 1 rest).map UInt16.ofNat
  | text => (number? UInt16.size text).map UInt16.ofNat

def word? (text : String) : Option UInt64 :=
  (number? UInt64.size text.toList).map UInt64.ofNat

def putNumber (put : α → Arguments) (value? : Option α) :
    Except UsageError Arguments :=
  match value? with
  | some value => .ok (put value)
  | none => .error .badValue

def put (arguments : Arguments) (switch : Switch) (text : String) :
    Except UsageError Arguments :=
  match switch with
  | .config =>
      if text.isEmpty then .error .missingValue
      else .ok { arguments with settingsPath := text }
  | .port =>
      putNumber (fun value => { arguments with port? := some value })
        (portNumber? text)
  | .bind => .ok { arguments with bind? := some text }
  | .connect => .ok { arguments with connect := arguments.connect ++ [text] }
  | .sync => .ok { arguments with sync? := some text }
  | .syncTimeout =>
      putNumber (fun value => { arguments with syncTimeout? := some value })
        (word? text)
  | .threads =>
      putNumber (fun value => { arguments with threads? := some value })
        (word? text)
  | .noBootstrap => .ok { arguments with noBootstrap := true }
  | .initConfig => .ok { arguments with writesSettings := true }
  | .logLevel => .ok { arguments with logLevel := text }
  | .help => .error .helpWanted
  | .version => .error .versionWanted

end Arguments

structure ArgumentScan where
  arguments : Arguments := {}
  given : List Switch := []
  waiting? : Option (Switch × Option String) := none
  isOver : Bool := false

namespace ArgumentScan

/-- All but the peers to connect to are given once. -/
def apply (scan : ArgumentScan) (switch : Switch) (text : String) :
    Except UsageError ArgumentScan :=
  if switch ≠ .connect ∧ scan.given.contains switch then .error .repeated
  else do
    let arguments ← scan.arguments.put switch text
    return { scan with arguments := arguments, given := switch :: scan.given }

def settle (scan : ArgumentScan) : Except UsageError ArgumentScan :=
  match scan.waiting? with
  | none => .ok scan
  | some (_, none) => .error .missingValue
  | some (switch, some text) => { scan with waiting? := none }.apply switch text

def await (scan : ArgumentScan) (switch : Switch) :
    Except UsageError ArgumentScan := do
  let scan ← scan.settle
  return { scan with waiting? := some (switch, none) }

def applyNext (scan : ArgumentScan) (switch : Switch) (text : String) :
    Except UsageError ArgumentScan := do
  (← scan.settle).apply switch text

def readLong (scan : ArgumentScan) (name : String) (value? : Option String) :
    Except UsageError ArgumentScan :=
  match Switch.ofName? name, value? with
  | none, _ => .error .unknownArgument
  | some switch, some value =>
      if switch.takesValue then scan.applyNext switch value
      else .error .needlessValue
  | some switch, none =>
      if switch.takesValue then scan.await switch else scan.applyNext switch ""

/-- Letters may be run together; what follows one that takes a value is its
value. -/
def readLetters (scan : ArgumentScan) :
    List Char → Except UsageError ArgumentScan
  | [] => .ok scan
  | letter :: rest =>
      match Switch.ofLetter? letter with
      | none => .error .unknownArgument
      | some switch =>
          if switch.takesValue then
            match rest with
            | [] => scan.await switch
            | '=' :: value => scan.applyNext switch (String.ofList value)
            | _ => scan.applyNext switch (String.ofList rest)
          else do (← scan.applyNext switch "").readLetters rest

def readPlain (scan : ArgumentScan) (text : String) :
    Except UsageError ArgumentScan :=
  match scan.waiting? with
  | some (switch, none) =>
      .ok { scan with waiting? := some (switch, some text) }
  | _ => .error .unknownArgument

def step (scan : ArgumentScan) (argument : String) :
    Except UsageError ArgumentScan :=
  if scan.isOver then .error .unknownArgument
  else
    match argument.toList with
    | ['-', '-'] => .ok { scan with isOver := true }
    | '-' :: '-' :: rest =>
        let name := rest.takeWhile (· ≠ '=')
        let value? := match rest.drop name.length with
          | _ :: value => some (String.ofList value)
          | [] => none
        scan.readLong (String.ofList name) value?
    | '-' :: letter :: rest => scan.readLetters (letter :: rest)
    | _ => scan.readPlain argument

end ArgumentScan

namespace Arguments

def ofList (arguments : List String) : Except UsageError Arguments := do
  let scan ← arguments.foldlM ArgumentScan.step {}
  return (← scan.settle).arguments

end Arguments

namespace NodeSettings

/-- What the command line gives goes before what the file says. -/
def override (settings : NodeSettings) (arguments : Arguments) : NodeSettings :=
  { settings with
    network := { settings.network with
      port := arguments.port?.getD settings.network.port
      bindAddress := arguments.bind?.getD settings.network.bindAddress
      syncTimeout := arguments.syncTimeout?.getD settings.network.syncTimeout
      resolvesNames := settings.network.resolvesNames && !arguments.noBootstrap
      connect := settings.network.connect ++ arguments.connect }
    work := { settings.work with
      threads := arguments.threads?.getD settings.work.threads } }

/-- Without a file the settings are the default ones. -/
def load (format : SettingsFormat) (file? : Option String)
    (arguments : Arguments) : Except SettingsError NodeSettings := do
  let settings ← match file? with
    | some text => ofFile format text
    | none => pure {}
  let settings := settings.override arguments
  settings.check
  return settings

end NodeSettings

end ObjectRelay
