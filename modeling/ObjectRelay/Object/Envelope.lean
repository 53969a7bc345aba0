import ObjectRelay.Bytes.Hex
import ObjectRelay.Hash.Digest
import ObjectRelay.Object.Payload
import ObjectRelay.Wire.Varint

namespace ObjectRelay

structure Object where
  nonce? : Option (Octets 8)
  expires : Int64
  type : UInt32
  version : UInt64
  stream : UInt64
  payload : Payload
deriving DecidableEq

abbrev InventoryVector := Octets 32

namespace InventoryVector

def ofDigest (digest : Digest) : InventoryVector :=
  digest.first 32 (by decide)

def ofBytes (bytes : Bytes) : Except WireError InventoryVector :=
  match Octets.ofBytes? 32 bytes with
  | some vector => .ok vector
  | none => .error (.vectorSize bytes.length)

def text (vector : InventoryVector) : String :=
  vector.bytes.hex

/-- The first eight bytes, enough to tell vectors apart in a log. -/
def short (vector : InventoryVector) : String :=
  s!"InventoryVector({Bytes.hex (vector.bytes.take 8)})"

end InventoryVector

namespace Object

def kind? (object : Object) : Option ObjectKind :=
  ObjectKind.ofNumber? object.type

def withNonce (object : Object) (nonce : Octets 8) : Object :=
  { object with nonce? := some nonce }

/-- Everything after the nonce: what the work is done over. -/
def body (object : Object) : Bytes :=
  Bytes.bigEndian 8 object.expires.toUInt64.toNat ++
    Bytes.bigEndian 4 object.type.toNat ++
    Varint.write object.version ++ Varint.write object.stream ++
      object.payload.bytes

def bodyLength (object : Object) : Nat :=
  8 + 4 + Varint.size object.version + Varint.size object.stream +
    object.payload.length

def write (object : Object) : Except WireError Bytes :=
  match object.nonce? with
  | some nonce => .ok (nonce.bytes ++ object.body)
  | none => .error .missingNonce

def initialHash (hasher : Hasher) (object : Object) : Digest :=
  hasher.digest object.body

def vector (hasher : Hasher) (object : Object) :
    Except WireError InventoryVector :=
  object.write.map fun bytes =>
    InventoryVector.ofDigest (hasher.doubleDigest bytes)

def reader : Reader Object := do
  let nonce ← Reader.octets 8 "object nonce"
  Reader.need 12 "object header"
  let expires ← Reader.number 8 "object header"
  let type ← Reader.number 4 "object header"
  let version ← Varint.read
  let stream ← Varint.read
  let data ← Reader.all
  let type := UInt32.ofNat type
  return ⟨some nonce, (UInt64.ofNat expires).toInt64, type, version, stream,
    Payload.ofBytes type version data⟩

def read (bytes : Bytes) : Except WireError Object :=
  match reader bytes with
  | .ok object _ => .ok object
  | .error failure _ => .error failure

end Object

end ObjectRelay
