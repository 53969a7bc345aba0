import ObjectRelay.Service.Basic

namespace ObjectRelay

namespace NodeSettings

/-- The peers that are known from the start, and those that the seeds stand for
if names are to be resolved, belong to the first of the streams.  Those that
cannot be understood are passed over. -/
def addressBook (settings : NodeSettings) (resolver : Resolver) : AddressBook :=
  let stream := (settings.network.streams.headD 1).toUInt32
  let known := AddressBook.addBootstrap {} stream
    (settings.network.knownPeers.filterMap (Host.peer? resolver))
  if settings.network.resolvesNames then
    known.addBootstrap stream (Host.discover resolver Host.seeds)
  else known

end NodeSettings

namespace Service

def ofSettings (settings : ServiceSettings) (engine : WorkEngine)
    (addresses : AddressBook) (nonce : UInt64)
    (answer? : Option (CustomMessage → Option CustomMessage)) : Service :=
  { settings := settings
    node :=
      { profile := settings.profile nonce answer?
        port := settings.listen.port
        engine := engine
        addresses := addresses } }

/-- The service of a node that answers no custom requests. -/
def launch (settings : NodeSettings) (hasher : Hasher) (resolver : Resolver)
    (nonce : UInt64) : Except SettingsError Service := do
  let engine : WorkEngine :=
    { hasher := hasher, difficulty := settings.difficulty }
  let service ← settings.service
  let addresses := settings.addressBook resolver
  if service.isTimely then
    return ofSettings service engine addresses nonce none
  else throw .timeOverflow

end Service

end ObjectRelay
