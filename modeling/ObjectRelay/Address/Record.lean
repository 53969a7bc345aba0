import ObjectRelay.Address.Literal
import ObjectRelay.Wire.Reader

namespace ObjectRelay

/-! What a node tells another about a peer: where it listens, the stream and
services that it offers, and when it was last seen. -/

structure PeerRecord where
  time : UInt64
  stream : UInt32
  services : UInt64
  ip : Octets 16
  port : UInt16
deriving DecidableEq

namespace PeerRecord

def relaysObjects : UInt64 := 1

def ofSocket (address : SocketAddress) (stream : UInt32)
    (services time : UInt64) : PeerRecord :=
  match address with
  | .v4 octets port => ⟨time, stream, services, mapped octets, port⟩
  | .v6 octets port _ => ⟨time, stream, services, octets, port⟩

def socket (record : PeerRecord) : SocketAddress :=
  match unmapped? record.ip with
  | some octets => .v4 octets record.port
  | none => .v6 record.ip record.port 0

def sameEndpoint (left right : PeerRecord) : Bool :=
  left.ip = right.ip && left.port = right.port

def text (record : PeerRecord) : String :=
  s!"{record.socket.text} (stream {record.stream.toNat})"

def shortSize : Nat := 26

def fullSize : Nat := 38

def writeShort (record : PeerRecord) : Bytes :=
  Bytes.bigEndian 8 record.services.toNat ++ record.ip.bytes ++
    Bytes.bigEndian 2 record.port.toNat

def writeFull (record : PeerRecord) : Bytes :=
  Bytes.bigEndian 8 record.time.toNat ++
    Bytes.bigEndian 4 record.stream.toNat ++ record.writeShort

/-- The short layout names neither a time nor a stream. -/
def readShort : Reader PeerRecord := do
  Reader.need shortSize "network address"
  let services ← Reader.number 8 "network address"
  let ip ← Reader.octets 16 "network address"
  let port ← Reader.number 2 "network address"
  return ⟨0, 0, UInt64.ofNat services, ip, UInt16.ofNat port⟩

def readFull : Reader PeerRecord := do
  Reader.need fullSize "network address"
  let time ← Reader.number 8 "network address"
  let stream ← Reader.number 4 "network address"
  let record ← readShort
  return { record with
    time := UInt64.ofNat time, stream := UInt32.ofNat stream }

end PeerRecord

end ObjectRelay
