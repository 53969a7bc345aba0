import ObjectRelay.Bytes.BigEndian

namespace ObjectRelay

structure Octets (size : Nat) where
  bytes : Bytes
  length_bytes : bytes.length = size
deriving DecidableEq

namespace Octets

instance : Hashable (Octets size) where
  hash octets :=
    octets.bytes.foldl (fun seed byte => mixHash seed (hash byte)) 7

def ofBytes? (size : Nat) (bytes : Bytes) : Option (Octets size) :=
  if hlength : bytes.length = size then some ⟨bytes, hlength⟩ else none

def ofNat (size value : Nat) : Octets size :=
  ⟨Bytes.bigEndian size value, Bytes.length_bigEndian size value⟩

def toNat (octets : Octets size) : Nat :=
  octets.bytes.toNat

def first (count : Nat) (octets : Octets size) (hcount : count ≤ size) :
    Octets count :=
  ⟨octets.bytes.take count, by
    rw [List.length_take, octets.length_bytes, Nat.min_eq_left hcount]⟩

@[ext] theorem ext {left right : Octets size} (h : left.bytes = right.bytes) :
    left = right := by
  cases left
  cases right
  simp_all

theorem ofBytes?_eq_some_iff {bytes : Bytes} {octets : Octets size} :
    ofBytes? size bytes = some octets ↔ octets.bytes = bytes := by
  unfold ofBytes?
  split
  · rename_i hlength
    constructor
    · intro h
      cases h
      rfl
    · intro h
      subst h
      rfl
  · rename_i hlength
    constructor
    · intro h
      cases h
    · intro h
      exact absurd (h ▸ octets.length_bytes) hlength

@[simp] theorem ofBytes?_bytes (octets : Octets size) :
    ofBytes? size octets.bytes = some octets :=
  ofBytes?_eq_some_iff.mpr rfl

end Octets

end ObjectRelay
