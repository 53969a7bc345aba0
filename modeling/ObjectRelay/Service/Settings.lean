import ObjectRelay.Frame.Codec
import ObjectRelay.Node.Basic
import ObjectRelay.Pool
import ObjectRelay.Settings.Basic

namespace ObjectRelay

/-! What a service on the network is set to do.  All times are in
milliseconds. -/

structure ServiceSettings where
  listen : SocketAddress := .v4 (.ofNat 4 0) Host.defaultPort
  magic : Frame.Magic := Frame.networkMagic
  userAgent : String := "/bm-node:0.1.0/"
  services : UInt64 := PeerRecord.relaysObjects
  streams : List UInt64 := [1]
  pool : PoolLimits := {}
  connectTimeout : Nat := 10 * 1000
  readTimeout : Nat := 2 * 1000
  idleTimeout : Nat := 120 * 1000
  sweepInterval : Nat := 30 * 1000

namespace ServiceSettings

/-- A synchronization is over once nothing was heard for two timeouts. -/
def profile (settings : ServiceSettings) (nonce : UInt64)
    (answer? : Option (CustomMessage → Option CustomMessage)) : Profile :=
  { nonce := nonce
    streams := settings.streams
    services := settings.services
    userAgent := settings.userAgent
    answer? := answer?
    idleTimeout := settings.idleTimeout
    quietPeriod := 2 * settings.readTimeout }

/-- The seconds of two timeouts fit a word. -/
def isTimely (settings : ServiceSettings) : Bool :=
  2 * settings.readTimeout < UInt64.size * 1000

end ServiceSettings

namespace NodeSettings

def service (settings : NodeSettings) :
    Except SettingsError ServiceSettings := do
  let listen ← settings.listen
  let network := settings.network
  let defaults : ServiceSettings := {}
  return { defaults with
    listen := listen
    userAgent := network.userAgent?.getD defaults.userAgent
    streams := network.streams
    pool :=
      { connections := network.connectionLimit
        lifetime := network.connectionLifetime.toNat * 1000
        outbound := network.outboundTarget }
    readTimeout := network.readTimeout.toNat * 1000
    idleTimeout := network.idleTimeout.toNat * 1000
    sweepInterval := network.sweepInterval.toNat * 1000 }

end NodeSettings

end ObjectRelay
