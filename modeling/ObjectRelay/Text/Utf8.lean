import ObjectRelay.Bytes.BigEndian

namespace ObjectRelay

/-! Text as UTF-8 bytes.  Reading never fails: each longest run of bytes that
could have begun a character, but does not go on as one, becomes one replacement
character. -/

namespace Utf8

def encode (text : String) : Bytes :=
  text.toList.flatMap String.utf8EncodeChar

def replacement : Char := '\uFFFD'

/-- What the bytes read so far still ask for: the number of continuation bytes,
the range of the next one, and the bits gathered up to here. -/
inductive Pending where
  | none
  | continuation (more : Nat) (low high : UInt8) (bits : Nat)

def lead (byte : UInt8) (read : List Char) : List Char × Pending :=
  if byte < 0x80 then (Char.ofNat byte.toNat :: read, .none)
  else if byte < 0xC2 then (replacement :: read, .none)
  else if byte < 0xE0 then (read, .continuation 0 0x80 0xBF (byte.toNat - 0xC0))
  else if byte < 0xF0 then
    (read, .continuation 1 (if byte = 0xE0 then 0xA0 else 0x80)
      (if byte = 0xED then 0x9F else 0xBF) (byte.toNat - 0xE0))
  else if byte < 0xF5 then
    (read, .continuation 2 (if byte = 0xF0 then 0x90 else 0x80)
      (if byte = 0xF4 then 0x8F else 0xBF) (byte.toNat - 0xF0))
  else (replacement :: read, .none)

/-- The characters read so far stand in reverse. -/
def advance (state : List Char × Pending) (byte : UInt8) :
    List Char × Pending :=
  match state with
  | (read, .none) => lead byte read
  | (read, .continuation more low high bits) =>
      if low ≤ byte ∧ byte ≤ high then
        let bits := bits * 64 + (byte.toNat - 0x80)
        match more with
        | 0 => (Char.ofNat bits :: read, .none)
        | more + 1 => (read, .continuation more 0x80 0xBF bits)
      else lead byte (replacement :: read)

def decode (bytes : Bytes) : String :=
  match bytes.foldl advance ([], .none) with
  | (read, .none) => String.ofList read.reverse
  | (read, .continuation ..) => String.ofList (replacement :: read).reverse

end Utf8

end ObjectRelay
