import ObjectRelay.Bytes.Octets

namespace ObjectRelay

/-! The hash that objects are named and stamped with.  All but the digest
function itself holds for every choice of it. -/

abbrev digestSize : Nat := 64

abbrev Digest := Octets digestSize

structure Hasher where
  digest : Bytes → Digest

def Hasher.doubleDigest (hasher : Hasher) (bytes : Bytes) : Digest :=
  hasher.digest (hasher.digest bytes).bytes

end ObjectRelay
