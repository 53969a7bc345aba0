import ObjectRelay.Hash.Sha512
import ObjectRelay.Service.Launch
import ObjectRelay.Service.Session
import ObjectRelay.Settings.Arguments
import ObjectRelay.Settings.File
import Std.Time.DateTime.Timestamp

namespace ObjectRelay

def instantAndClock : IO (Nat × Int64) := do
  let clock ← Std.Time.Timestamp.now
  return (← IO.monoMsNow, clock.toSecondsSinceUnixEpoch.val.toInt64)

def emit (bytes : Bytes) : IO Unit := do
  let output ← IO.getStdout
  output.write ⟨bytes.toArray⟩
  output.flush

/-- Goes on until the session has left the service. -/
partial def serve (service : Service) (id : PeerId) : IO Unit := do
  let bytes ← (← IO.getStdin).read 65536
  let (instant, clock) ← instantAndClock
  let moment : Moment := ⟨instant, clock, .none⟩
  let cleaned := { service with node := service.node.cleanup clock }
  let (answers, ticked) := cleaned.tick moment id
  let (more, served) :=
    if bytes.isEmpty then ticked.receiveEnd moment id
    else ticked.receive moment id bytes.toList
  emit (answers ++ more)
  unless served.sessions.isEmpty do serve served id

def refuse (failure : SettingsError) : IO UInt32 := do
  IO.eprintln failure.message
  return 1

def writeSettings (path : String) (settings : NodeSettings) : IO UInt32 := do
  match settings.toFile .toml with
  | .error failure => refuse failure
  | .ok text =>
      IO.FS.writeFile path text
      return 0

def serveOne (sync? : Option String) (settings : NodeSettings) : IO UInt32 := do
  let nonce := Bytes.toNat (← IO.getRandomBytes 8).toList
  match Service.launch settings .sha512 .none (UInt64.ofNat nonce) with
  | .error failure => refuse failure
  | .ok service =>
      let remote := (sync?.bind (Host.peer? .none)).getD service.settings.listen
      let mode := if sync?.isSome then Mode.sync else Mode.server
      let (instant, clock) ← instantAndClock
      let moment : Moment := ⟨instant, clock, .none⟩
      let (id, bytes, opened) := service.openSession moment mode remote
      emit bytes
      serve opened id
      return 0

/-- A settings file that cannot be read is taken for a missing one. -/
def settingsFile? (path : String) : IO (Option String) := do
  try return some (← IO.FS.readFile path)
  catch _ => return none

def run (arguments : Arguments) : IO UInt32 := do
  let file? ← settingsFile? arguments.settingsPath
  match NodeSettings.load .toml file? arguments with
  | .error failure => refuse failure
  | .ok settings =>
      if arguments.writesSettings
        then writeSettings arguments.settingsPath settings
      else serveOne arguments.sync? settings

end ObjectRelay

def main (arguments : List String) : IO UInt32 := do
  match ObjectRelay.Arguments.ofList arguments with
  | .ok arguments => ObjectRelay.run arguments
  | .error failure =>
      if failure = .helpWanted ∨ failure = .versionWanted then
        IO.println failure.message
        return 0
      else
        IO.eprintln failure.message
        return 2
