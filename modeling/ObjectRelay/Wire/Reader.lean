import ObjectRelay.Bytes.Octets

namespace ObjectRelay

/-! Readers take what they understand from the front of a byte string.  A failed
reader still leaves the bytes that it did not consume. -/

inductive WireError where
  | truncated (field : String) (needed available : Nat)
  | nonMinimalVarint (value : UInt64)
  | tooLarge (field : String) (size limit : Nat)
  | missingNonce
  | vectorSize (size : Nat)
deriving DecidableEq, Repr

def WireError.message : WireError → String
  | truncated field needed available =>
      s!"Truncated {field}: needed {needed} bytes, {available} available"
  | nonMinimalVarint value => s!"Non-minimal varint encoding for {value.toNat}"
  | tooLarge field size limit => s!"{field} too large: {size}, max {limit}"
  | missingNonce => "Object has no nonce"
  | vectorSize size => s!"Invalid value: inventory vector of {size} bytes"

abbrev Reader := EStateM WireError Bytes

namespace Reader

def need (count : Nat) (field : String) : Reader Unit := fun bytes =>
  if bytes.hasAtLeast count then .ok () bytes
  else .error (.truncated field count bytes.length) bytes

def take (count : Nat) (field : String) : Reader Bytes := fun bytes =>
  if bytes.hasAtLeast count then .ok (bytes.take count) (bytes.drop count)
  else .error (.truncated field count bytes.length) bytes

def octets (size : Nat) (field : String) : Reader (Octets size) := fun bytes =>
  if hcount : bytes.hasAtLeast size = true then
    .ok ⟨bytes.take size, by
      rw [List.length_take,
        Nat.min_eq_left ((Bytes.hasAtLeast_iff _ _).mp hcount)]⟩
      (bytes.drop size)
  else .error (.truncated field size bytes.length) bytes

def number (width : Nat) (field : String) : Reader Nat := do
  let bytes ← take width field
  return bytes.toNat

def all : Reader Bytes := fun bytes => .ok bytes []

/-- Items are collected in reverse, so that long lists need no deep
recursion. -/
def collect (item : Reader α) : Nat → List α → Reader (List α)
  | 0, read => fun bytes => .ok read.reverse bytes
  | count + 1, read => fun bytes =>
      match item bytes with
      | .ok value rest => collect item count (value :: read) rest
      | .error failure rest => .error failure rest

def many (count : Nat) (item : Reader α) : Reader (List α) :=
  collect item count []

theorem bind_ok {first : Reader α} {next : α → Reader β} {bytes rest : Bytes}
    {value : α} (hfirst : first bytes = .ok value rest) :
    (first >>= next) bytes = next value rest := by
  show EStateM.bind first next bytes = _
  simp [EStateM.bind, hfirst]

theorem bind_error {first : Reader α} {next : α → Reader β} {bytes rest : Bytes}
    {failure : WireError} (hfirst : first bytes = .error failure rest) :
    (first >>= next) bytes = .error failure rest := by
  show EStateM.bind first next bytes = _
  simp [EStateM.bind, hfirst]

end Reader

end ObjectRelay
