import ObjectRelay.Message.Basic
import ObjectRelay.Wire.Counted

namespace ObjectRelay

inductive MessageError where
  | wire (failure : WireError)
  | trailingBytes (count : Nat) (command : String)
  | tooManyAddresses (count : Nat)
  | tooManyVectors (count : Nat)
deriving DecidableEq

def MessageError.message : MessageError → String
  | wire failure => failure.message
  | trailingBytes count command => s!"{count} trailing bytes after {command}"
  | tooManyAddresses count => s!"Too many addresses: {count}"
  | tooManyVectors count => s!"Too many inventory vectors: {count}"

namespace Greeting

def longestUserAgent : Nat := 5000

def mostStreams : Nat := 160000

def write (greeting : Greeting) : Bytes :=
  Bytes.bigEndian 4 greeting.version.toUInt32.toNat ++
    Bytes.bigEndian 8 greeting.services.toNat ++
    Bytes.bigEndian 8 greeting.timestamp.toUInt64.toNat ++
    greeting.recipient.writeShort ++ greeting.sender.writeShort ++
    Bytes.bigEndian 8 greeting.nonce.toNat ++
    Wire.writeText greeting.userAgent ++ Wire.writeIntegers greeting.streams

def read : Reader Greeting := do
  Reader.need 20 "version header"
  let version ← Reader.number 4 "version header"
  let services ← Reader.number 8 "version header"
  let timestamp ← Reader.number 8 "version header"
  let recipient ← PeerRecord.readShort
  let sender ← PeerRecord.readShort
  let nonce ← Reader.number 8 "version nonce"
  let userAgent ← Wire.readText longestUserAgent "user agent"
  let streams ← Wire.readIntegers mostStreams "stream list"
  return ⟨(UInt32.ofNat version).toInt32, UInt64.ofNat services,
    (UInt64.ofNat timestamp).toInt64, recipient, sender, UInt64.ofNat nonce,
    userAgent, streams⟩

end Greeting

namespace CustomMessage

def longestCommand : Nat := 256

def write (message : CustomMessage) : Bytes :=
  Wire.writeText message.command ++ message.data

def read : Reader CustomMessage := do
  let command ← Wire.readText longestCommand "custom command"
  let data ← Reader.all
  return ⟨command, data⟩

end CustomMessage

namespace Message

def writeRecords (records : List PeerRecord) : Bytes :=
  Varint.write (UInt64.ofNat records.length) ++
    records.flatMap PeerRecord.writeFull

def readRecords : Reader (List PeerRecord) := do
  let count ← Varint.readAtMost mostAddresses "address count"
  Reader.many count PeerRecord.readFull

def writeVectors (vectors : List InventoryVector) : Bytes :=
  Varint.write (UInt64.ofNat vectors.length) ++ vectors.flatMap Octets.bytes

def readVectors : Reader (List InventoryVector) := do
  let count ← Varint.readAtMost mostVectors "inventory count"
  Reader.need (count * 32) "inventory vectors"
  Reader.many count (Reader.octets 32 "inventory vectors")

def write : Message → Except MessageError Bytes
  | version greeting => .ok greeting.write
  | verack => .ok []
  | addr records =>
      if mostAddresses < records.length
        then .error (.tooManyAddresses records.length)
      else .ok (writeRecords records)
  | inv vectors | getdata vectors =>
      if mostVectors < vectors.length
        then .error (.tooManyVectors vectors.length)
      else .ok (writeVectors vectors)
  | object carried => carried.write.mapError .wire
  | custom message => .ok message.write
  | unknown _ payload => .ok payload

/-- The reader of a command's payload; a command without one is kept as it
came. -/
def reader? (command : String) : Option (Reader Message) :=
  if command = "version" then some (version <$> Greeting.read)
  else if command = "verack" then some (pure verack)
  else if command = "addr" then some (addr <$> readRecords)
  else if command = "inv" then some (inv <$> readVectors)
  else if command = "getdata" then some (getdata <$> readVectors)
  else if command = "object" then some (object <$> Object.reader)
  else if command = "custom" then some (custom <$> CustomMessage.read)
  else none

def read (command : String) (payload : Bytes) : Except MessageError Message :=
  match reader? command with
  | none => .ok (unknown command payload)
  | some reader =>
      match reader payload with
      | .ok message [] => .ok message
      | .ok _ rest => .error (.trailingBytes rest.length command)
      | .error failure _ => .error (.wire failure)

end Message

end ObjectRelay
