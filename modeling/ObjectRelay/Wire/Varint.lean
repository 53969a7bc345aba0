import ObjectRelay.Wire.Reader

namespace ObjectRelay

/-! Variable-length integers: one byte below `0xFD`, else a marker byte and the
shortest of two, four or eight bytes.  Every value has exactly one encoding. -/

namespace Varint

def size (value : UInt64) : Nat :=
  if value < 0xFD then 1
  else if value ≤ 0xFFFF then 3
  else if value ≤ 0xFFFFFFFF then 5
  else 9

def write (value : UInt64) : Bytes :=
  if value < 0xFD then [value.toUInt8]
  else if value ≤ 0xFFFF then 0xFD :: Bytes.bigEndian 2 value.toNat
  else if value ≤ 0xFFFFFFFF then 0xFE :: Bytes.bigEndian 4 value.toNat
  else 0xFF :: Bytes.bigEndian 8 value.toNat

/-- The value after a marker byte must not fit a shorter form. -/
def readWide (width least : Nat) : Reader UInt64 := do
  let value ← Reader.number width "varint"
  if value < least then throw (.nonMinimalVarint (UInt64.ofNat value))
  else return UInt64.ofNat value

def read : Reader UInt64 := do
  let marker ← Reader.number 1 "varint"
  if marker = 0xFD then readWide 2 0xFD
  else if marker = 0xFE then readWide 4 0x10000
  else if marker = 0xFF then readWide 8 0x100000000
  else return UInt64.ofNat marker

def readAtMost (limit : Nat) (field : String) : Reader Nat := do
  let value ← read
  if limit < value.toNat then throw (.tooLarge field value.toNat limit)
  else return value.toNat

end Varint

end ObjectRelay
