import ObjectRelay.Bytes.Octets

namespace ObjectRelay

inductive IpAddress where
  | v4 (octets : Octets 4)
  | v6 (octets : Octets 16)
deriving DecidableEq, Hashable

inductive SocketAddress where
  | v4 (octets : Octets 4) (port : UInt16)
  | v6 (octets : Octets 16) (port : UInt16) (scope : UInt32)
deriving DecidableEq, Hashable

namespace SocketAddress

def ofIp (ip : IpAddress) (port : UInt16) : SocketAddress :=
  match ip with
  | .v4 octets => .v4 octets port
  | .v6 octets => .v6 octets port 0

def port : SocketAddress → UInt16
  | v4 _ port => port
  | v6 _ port _ => port

/-- IPv4 before IPv6; then by address, port and scope. -/
def rank : SocketAddress → Nat
  | v4 octets port => octets.toNat * UInt16.size + port.toNat
  | v6 octets port scope =>
      UInt16.size * UInt32.size + (octets.toNat * UInt16.size + port.toNat) *
        UInt32.size + scope.toNat

end SocketAddress

def mappedLead : Bytes :=
  [0, 0, 0, 0, 0, 0, 0, 0, 0, 0, 0xFF, 0xFF]

def mapped (octets : Octets 4) : Octets 16 :=
  ⟨mappedLead ++ octets.bytes, by simp [mappedLead, octets.length_bytes]⟩

def unmapped? (octets : Octets 16) : Option (Octets 4) :=
  if octets.bytes.take 12 = mappedLead then
    some ⟨octets.bytes.drop 12, by simp [octets.length_bytes]⟩
  else none

theorem unmapped?_mapped (octets : Octets 4) :
    unmapped? (mapped octets) = some octets := by
  have htake : (mapped octets).bytes.take 12 = mappedLead := by
    simp [mapped, mappedLead]
  have hdrop : (mapped octets).bytes.drop 12 = octets.bytes := by
    simp [mapped, mappedLead]
  rw [unmapped?, if_pos htake]
  exact congrArg some (Octets.ext hdrop)

theorem mapped_of_unmapped? {octets : Octets 16} {inner : Octets 4}
    (h : unmapped? octets = some inner) : mapped inner = octets := by
  unfold unmapped? at h
  split at h
  · rename_i htake
    cases h
    apply Octets.ext
    show mappedLead ++ octets.bytes.drop 12 = octets.bytes
    rw [← htake, List.take_append_drop]
  · cases h

end ObjectRelay
