import ObjectRelay.Text.Utf8
import ObjectRelay.Wire.Varint

namespace ObjectRelay

namespace Wire

def writeBytes (bytes : Bytes) : Bytes :=
  Varint.write (UInt64.ofNat bytes.length) ++ bytes

def readBytes (limit : Nat) (field : String) : Reader Bytes := do
  let length ← Varint.readAtMost limit field
  Reader.take length field

def writeText (text : String) : Bytes :=
  writeBytes (Utf8.encode text)

/-- Invalid text is repaired, not refused. -/
def readText (limit : Nat) (field : String) : Reader String := do
  let bytes ← readBytes limit field
  return Utf8.decode bytes

def writeIntegers (values : List UInt64) : Bytes :=
  Varint.write (UInt64.ofNat values.length) ++ values.flatMap Varint.write

def readIntegers (limit : Nat) (field : String) : Reader (List UInt64) := do
  let count ← Varint.readAtMost limit field
  Reader.many count Varint.read

end Wire

end ObjectRelay
