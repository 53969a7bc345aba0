import ObjectRelay.Address.Host
import ObjectRelay.AddressBook
import ObjectRelay.Connection.Handshake
import ObjectRelay.Frame.Codec
import ObjectRelay.Gossip.Fanout
import ObjectRelay.Work.Engine

namespace ObjectRelay

/-! The numbers that are fixed by the protocol or by the node, under the names
by which they are reported.  Times are in seconds unless the name says
otherwise. -/

def limits : List (String × Int) :=
  [("default_port", Host.defaultPort.toNat),
    ("protocol_version", protocolVersion.toInt),
    ("min_protocol_version", leastProtocolVersion.toInt),
    ("network_nonce_trials_per_byte", Difficulty.networkTrialsPerByte.toNat),
    ("network_extra_bytes", Difficulty.networkExtraBytes.toNat),
    ("node_network_service", PeerRecord.relaysObjects.toNat),
    ("hash_size", digestSize),
    ("max_object_ttl", Object.longestLifetime),
    ("object_expiry_grace", Object.expiryGrace),
    ("command_size", Command.fieldSize),
    ("header_size", Frame.headerSize),
    ("max_payload_size", Frame.largestPayload),
    ("iv_cache_ttl_ms", ({} : KnownVectors).lifetime),
    ("max_offer_fanout", Fanout.mostOffers),
    ("max_addresses_per_message", Message.mostAddresses),
    ("max_vectors_per_message", Message.mostVectors),
    ("max_user_agent_length", Greeting.longestUserAgent),
    ("max_streams_per_version", Greeting.mostStreams),
    ("max_cached_nonces", WorkEngine.mostNonces),
    ("max_workers", Search.mostWorkers),
    ("inventory_retention_grace", ({} : Inventory).retention),
    ("address_freshness", AddressBook.freshness),
    ("max_known_addresses", AddressBook.mostLearnt)]

end ObjectRelay
