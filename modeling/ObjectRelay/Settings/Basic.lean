import ObjectRelay.Address.Host
import ObjectRelay.Work.Difficulty

namespace ObjectRelay

/-! The settings of a node, as its settings file and its command line give them.
All times are in seconds. -/

structure NetworkSettings where
  bindAddress : String := "0.0.0.0"
  port : UInt16 := Host.defaultPort
  connectionLimit : UInt64 := 150
  connectionLifetime : UInt64 := 30 * 60
  readTimeout : UInt64 := 2
  idleTimeout : UInt64 := 120
  sweepInterval : UInt64 := 30
  outboundTarget : UInt64 := 8
  streams : List UInt64 := [1]
  userAgent? : Option String := none
  knownPeers : List String := []
  connect : List String := []
  resolvesNames : Bool := true
  syncTimeout : UInt64 := 120
deriving DecidableEq

/-- No threads at all stand for one for each processor. -/
structure WorkSettings where
  trialsPerByte : UInt64 := Difficulty.networkTrialsPerByte
  extraBytes : UInt64 := Difficulty.networkExtraBytes
  threads : UInt64 := 0
deriving DecidableEq

structure InventorySettings where
  cleanupInterval : UInt64 := 5 * 60
deriving DecidableEq

structure NodeSettings where
  network : NetworkSettings := {}
  work : WorkSettings := {}
  inventory : InventorySettings := {}
deriving DecidableEq

inductive SettingsError where
  | unreadable
  | noStreams
  | zeroTimer
  | zeroCleanup
  | bindAddress (text : String)
  | unwritable (reason : String)
  | timeOverflow
deriving DecidableEq

def SettingsError.message : SettingsError → String
  | unreadable => "Failed to parse config file"
  | noStreams => "At least one stream must be configured"
  | zeroTimer => "Timer intervals must be positive"
  | zeroCleanup => "Inventory cleanup interval must be positive"
  | bindAddress text => s!"Invalid bind address {text}"
  | unwritable reason => reason
  | timeOverflow => "overflow when multiplying duration by scalar"

namespace NodeSettings

def listen (settings : NodeSettings) : Except SettingsError SocketAddress :=
  match IpAddress.ofText? settings.network.bindAddress with
  | some ip => .ok (.ofIp ip settings.network.port)
  | none => .error (.bindAddress settings.network.bindAddress)

/-- Refuses settings that no node can run with. -/
def check (settings : NodeSettings) : Except SettingsError Unit :=
  if settings.network.streams.isEmpty then .error .noStreams
  else if settings.network.readTimeout = 0 ∨
    settings.network.sweepInterval = 0 then
    .error .zeroTimer
  else if settings.inventory.cleanupInterval = 0 then .error .zeroCleanup
  else settings.listen.map fun _ => ()

def threads? (settings : NodeSettings) : Option UInt64 :=
  if settings.work.threads = 0 then none else some settings.work.threads

/-- Demands below those of the network are raised to them. -/
def difficulty (settings : NodeSettings) : Difficulty :=
  .ofDemands settings.work.trialsPerByte settings.work.extraBytes

end NodeSettings

/-- A notation that settings are kept in.  All but the notation itself holds for
every choice of it. -/
structure SettingsFormat where
  read? : String → Option NodeSettings
  print : NodeSettings → Except String String

namespace SettingsFormat

/-- Whatever is written is read back. -/
def ReadsBack (format : SettingsFormat) : Prop :=
  ∀ settings text, format.print settings = .ok text →
    format.read? text = some settings

end SettingsFormat

namespace NodeSettings

def ofFile (format : SettingsFormat) (text : String) :
    Except SettingsError NodeSettings :=
  match format.read? text with
  | some settings => .ok settings
  | none => .error .unreadable

def toFile (format : SettingsFormat) (settings : NodeSettings) :
    Except SettingsError String :=
  (format.print settings).mapError .unwritable

end NodeSettings

end ObjectRelay
