import ObjectRelay.Proofs.AddressBook.Basic

namespace ObjectRelay

/-! Socket addresses beside the endpoints that records name.  A record keeps no
scope, and leads to an IPv4 address where it holds one mapped. -/

namespace SocketAddress

variable {address left right : SocketAddress}

/-- The address as records lead to it. -/
def plain : SocketAddress → SocketAddress
  | v4 octets port => v4 octets port
  | v6 octets port _ =>
      match unmapped? octets with
      | some inner => v4 inner port
      | none => v6 octets port 0

/-- Whether records of the two addresses name one endpoint. -/
def sameEndpoint (left right : SocketAddress) : Bool :=
  (PeerRecord.ofSocket left 0 0 0).sameEndpoint
    (PeerRecord.ofSocket right 0 0 0)

@[simp] theorem socket_ofSocket (address : SocketAddress) (stream : UInt32)
    (services time : UInt64) :
    (PeerRecord.ofSocket address stream services time).socket =
      address.plain := by
  cases address with
  | v4 octets port =>
      simp [PeerRecord.ofSocket, PeerRecord.socket, plain, unmapped?_mapped]
  | v6 octets port scope => rfl

@[simp] theorem plain_socket (record : PeerRecord) :
    record.socket.plain = record.socket := by
  cases hinner : unmapped? record.ip with
  | some inner => simp [PeerRecord.socket, hinner, plain]
  | none => simp [PeerRecord.socket, hinner, plain]

theorem sameEndpoint_iff :
    left.sameEndpoint right = true ↔ left.plain = right.plain := by
  rw [sameEndpoint, PeerRecord.sameEndpoint_iff, socket_ofSocket,
    socket_ofSocket]

theorem plain_ne_self_iff :
    address.plain ≠ address ↔
      ∃ octets port scope, address = v6 octets port scope ∧
        ((unmapped? octets).isSome = true ∨ scope ≠ 0) := by
  cases address with
  | v4 octets port => simp [plain]
  | v6 octets port scope =>
      cases hinner : unmapped? octets with
      | some inner => simp [plain, hinner]
      | none => simp [plain, hinner, eq_comm (a := (0 : UInt32))]

end SocketAddress

namespace PeerRecord

/-- The record of an address, with all else that it tells, is the one that led
there. -/
theorem ofSocket_socket (record : PeerRecord) :
    ofSocket record.socket record.stream record.services record.time =
      record := by
  cases hinner : unmapped? record.ip with
  | some inner => simp [socket, hinner, ofSocket, mapped_of_unmapped? hinner]
  | none => simp [socket, hinner, ofSocket]

/-- Records name one endpoint just when they lead to one address; a record leads
back to the address that it is made of, unless that is the mapped form of an
IPv4 address, which it leads to then; and it is made again of the address that
it leads to. -/
theorem endpoint_is_socket :
    (∀ left right : PeerRecord,
      left.sameEndpoint right = true ↔ left.socket = right.socket) ∧
    (∀ stream services time,
      (∀ octets port, (ofSocket (.v4 octets port) stream services time).socket =
        .v4 octets port) ∧
      ∀ octets port,
        (∃ inner, octets = mapped inner ∧
          (ofSocket (.v6 octets port 0) stream services time).socket =
            .v4 inner port) ∨
        (∀ inner, octets ≠ mapped inner) ∧
          (ofSocket (.v6 octets port 0) stream services time).socket =
            .v6 octets port 0) ∧
    ∀ record : PeerRecord,
      ofSocket record.socket record.stream record.services record.time =
        record := by
  refine ⟨fun _ _ => sameEndpoint_iff, fun stream services time => ⟨?_, ?_⟩,
    ofSocket_socket⟩
  · intro octets port
    rw [SocketAddress.socket_ofSocket, SocketAddress.plain]
  · intro octets port
    rw [SocketAddress.socket_ofSocket, SocketAddress.plain]
    cases hinner : unmapped? octets with
    | some inner => exact .inl ⟨inner, (mapped_of_unmapped? hinner).symm, rfl⟩
    | none =>
        refine .inr ⟨?_, rfl⟩
        rintro inner rfl
        rw [unmapped?_mapped] at hinner
        cases hinner

end PeerRecord

end ObjectRelay
