import ObjectRelay.Settings.Basic
import ObjectRelay.Settings.Field
import ObjectRelay.Toml.Document
import ObjectRelay.Toml.Printer

namespace ObjectRelay

namespace NetworkSettings

def fields : List (Field NetworkSettings) :=
  [.of .text "bind_address" (·.bindAddress) fun value s =>
    { s with bindAddress := value }, .of .word16 "port" (·.port) fun value s =>
      { s with port := value },
    .of .word64 "connection_limit" (·.connectionLimit) fun value s =>
      { s with connectionLimit := value },
    .of .word64 "connection_ttl_secs" (·.connectionLifetime) fun value s =>
      { s with connectionLifetime := value },
    .of .word64 "read_timeout_secs" (·.readTimeout) fun value s =>
      { s with readTimeout := value },
    .of .word64 "idle_timeout_secs" (·.idleTimeout) fun value s =>
      { s with idleTimeout := value },
    .of .word64 "sweep_interval_secs" (·.sweepInterval) fun value s =>
      { s with sweepInterval := value },
    .of .word64 "target_outbound" (·.outboundTarget) fun value s =>
      { s with outboundTarget := value },
    .of (.list .word64) "streams" (·.streams) fun value s =>
      { s with streams := value },
    .optional .text "user_agent" (·.userAgent?) fun value? s =>
      { s with userAgent? := value? },
    .of (.list .text) "known_peers" (·.knownPeers) fun value s =>
      { s with knownPeers := value },
    .of (.list .text) "connect" (·.connect) fun value s =>
      { s with connect := value },
    .of .flag "dns_bootstrap" (·.resolvesNames) fun value s =>
      { s with resolvesNames := value },
    .of .word64 "sync_timeout_secs" (·.syncTimeout) fun value s =>
      { s with syncTimeout := value }]

end NetworkSettings

namespace WorkSettings

def fields : List (Field WorkSettings) :=
  [.of .word64 "nonce_trials_per_byte" (·.trialsPerByte) fun value s =>
      { s with trialsPerByte := value },
    .of .word64 "extra_bytes" (·.extraBytes) fun value s =>
      { s with extraBytes := value },
    .of .word64 "threads" (·.threads) fun value s =>
      { s with threads := value }]

end WorkSettings

namespace InventorySettings

def fields : List (Field InventorySettings) :=
  [.of .word64 "cleanup_interval_secs" (·.cleanupInterval) fun value s =>
      { s with cleanupInterval := value }]

end InventorySettings

namespace NodeSettings

open Toml (Value Entries Sections)

/-- A section that is missing leaves its settings as they are. -/
def section? (fields : List (Field σ)) (settings : σ) (entries : Entries)
    (name : String) : Option σ :=
  match entries.get? name with
  | some value => Field.read? fields settings value
  | none => some settings

def ofEntries? (entries : Entries) : Option NodeSettings := do
  let network ← section? NetworkSettings.fields {} entries "network"
  let work ← section? WorkSettings.fields {} entries "pow"
  let inventory ← section? InventorySettings.fields {} entries "inventory"
  return ⟨network, work, inventory⟩

def sections (settings : NodeSettings) : Sections :=
  [("network", Field.write NetworkSettings.fields settings.network),
    ("pow", Field.write WorkSettings.fields settings.work),
    ("inventory", Field.write InventorySettings.fields settings.inventory)]

/-- Documents hold integers of 64 bits with a sign. -/
def canWrite : Value → Bool
  | .integer value => value ≤ Int64.maxValue.toInt
  | .array values => values.all fun
    | .integer value => value ≤ Int64.maxValue.toInt
    | _ => true
  | _ => true

def canPrint (settings : NodeSettings) : Bool :=
  settings.sections.all fun (_, entries) =>
    entries.all fun (_, value) => canWrite value

end NodeSettings

def SettingsFormat.toml : SettingsFormat where
  read? text := Toml.Document.read? text >>= NodeSettings.ofEntries?
  print settings :=
    if settings.canPrint then .ok settings.sections.print
    else .error "out-of-range value for u64 type"

end ObjectRelay
