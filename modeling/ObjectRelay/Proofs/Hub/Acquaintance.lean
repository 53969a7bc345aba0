import ObjectRelay.Proofs.AddressBook.Offer
import ObjectRelay.Proofs.Hub.Advertising

namespace ObjectRelay

/-! How a node remembers the peer of a connection that becomes active.  The peer
is offered to the address book once for each shared stream, but there is one
place for it. -/

namespace Connection

/-- Where the peer says that it listens. -/
def endpoint (connection : Connection) : SocketAddress :=
  match connection.remote with
  | .v4 octets _ => .v4 octets connection.peerPort
  | .v6 octets _ _ => .v6 octets connection.peerPort 0

def peerRecord (connection : Connection) (clock : Int64) (stream : UInt64) :
    PeerRecord :=
  .ofSocket connection.endpoint stream.toUInt32
    ((connection.peer?.map (·.services)).getD 0)
    (UInt64.ofNat clock.toInt.toNat)

variable {connection : Connection}

theorem peerRecords_eq (hport : connection.peerPort ≠ 0) (clock : Int64) :
    connection.peerRecords clock =
      connection.streams.map (connection.peerRecord clock) := by
  rw [peerRecords, if_neg hport]
  rfl

theorem socket_peerRecord (clock : Int64) (stream other : UInt64) :
    (connection.peerRecord clock stream).socket =
      (connection.peerRecord clock other).socket := by
  rw [peerRecord, peerRecord]
  cases connection.endpoint <;> rfl

theorem time_peerRecord (clock : Int64) (stream other : UInt64) :
    (connection.peerRecord clock stream).time =
      (connection.peerRecord clock other).time := by
  rw [peerRecord, peerRecord]
  cases connection.endpoint <;> rfl

end Connection

namespace Link

variable {link after : Link} {moment : Moment} {message : Message}
  {first : UInt64} {others : List UInt64}

theorem peerPort_activate (link : Link) (moment : Moment) :
    (link.activate moment).connection.peerPort = link.connection.peerPort := by
  obtain ⟨said, -, hconnection⟩ := exists_connection_activate link moment
  rw [hconnection]

theorem peerRecord_activate (link : Link) (moment : Moment) :
    (link.activate moment).connection.peerRecord =
      link.connection.peerRecord := by
  obtain ⟨said, -, hconnection⟩ := exists_connection_activate link moment
  rw [hconnection]
  rfl

/-- The record for the first shared stream is the only one that counts. -/
theorem addresses_of_activated
    (h : link.receive moment message = (after, some .activated))
    (hport : after.connection.peerPort ≠ 0)
    (hstreams : after.connection.streams = first :: others) :
    after.node.addresses = link.node.addresses.learn moment.shuffle moment.clock
      (after.connection.peerRecord moment.clock first) := by
  obtain ⟨opened, hnode, rfl⟩ := exists_opened_of_activated h
  rw [peerPort_activate] at hport
  rw [activate_streams] at hstreams
  rw [addresses_activate, peerRecord_activate, hnode,
    Connection.peerRecords_eq hport, hstreams, List.map_cons]
  apply AddressBook.offer_alike
  intro other hother
  obtain ⟨stream, -, rfl⟩ := List.mem_map.mp hother
  exact ⟨Connection.socket_peerRecord _ stream first,
    Connection.time_peerRecord _ stream first⟩

end Link

namespace Hub

/-- There is one place for a peer.  Once its connection is active, it is found
in a stream just when the record in that place, or a bootstrap peer with its
endpoint, is of that stream.  The place keeps a record from before that is as
late; else it has the one for the first shared stream, the number of the stream
cut to 32 bits. -/
theorem active_peer_found_iff (hub : Hub) (hkeyed : hub.node.addresses.Keyed)
    (steps : List Step) {id : PeerId} {link : Link}
    (hlink : (hub.run steps).link? id = some link) {moment : Moment}
    {message : Message} {after : Link}
    (hreceived : link.receive moment message = (after, some .activated))
    (hport : after.connection.peerPort ≠ 0)
    (hroom : link.node.addresses.learnt.size < AddressBook.mostLearnt)
    {first : UInt64} {others : List UInt64}
    (hstreams : after.connection.streams = first :: others) {limit : Nat}
    (hlimit : after.node.addresses.learnt.size +
      after.node.addresses.bootstrap.length < limit)
    (shuffle : Shuffle) (stream : UInt64) :
    (∃ found ∈ after.node.addresses.known shuffle moment.clock limit [stream],
      found.sameEndpoint (after.connection.peerRecord moment.clock stream) =
        true) ↔
      (∃ held, AddressBook.settle moment.clock
          link.node.addresses.learnt[(after.connection.peerRecord moment.clock
            first).socket]?
          (after.connection.peerRecord moment.clock first) = some held ∧
        held.stream.toUInt64 = stream ∧
        AddressBook.isFresh moment.clock held = true) ∨
      ∃ seed ∈ after.node.addresses.bootstrap, seed.stream.toUInt64 = stream ∧
        seed.sameEndpoint (after.connection.peerRecord moment.clock stream) =
          true := by
  have hbefore : link.node.addresses.Keyed := by
    rw [(link?_eq_some_iff.mp hlink).1]
    exact addresses_run (fun _ _ => AddressBook.Keyed.change) hkeyed steps
  have hlearnt := Link.addresses_of_activated hreceived hport hstreams
  have hafter : after.node.addresses.Keyed := by
    rw [hlearnt]
    exact hbefore.learn moment.shuffle moment.clock _
  rw [AddressBook.exists_sameEndpoint_known_iff hafter hlimit,
    after.connection.socket_peerRecord moment.clock stream first]
  simp only [PeerRecord.servesAny_singleton]
  rw [hlearnt, AddressBook.getElem?_learn hroom]

def twoStreamRemote : SocketAddress :=
  .v4 (.ofNat 4 1) 8444

def twoStreamHub : Hub where
  node :=
    { plainNode with profile := { plainNode.profile with streams := [1, 2] } }
  connections := [.opened 0 .client twoStreamRemote 0]
  nodup_ids := by decide

def twoStreamGreeting : Greeting :=
  { plainGreeting with streams := [1, 2] }

def openedLink : Link :=
  ⟨twoStreamHub.node, .opened 0 .client twoStreamRemote 0⟩

def activatedLink : Link :=
  (((openedLink.hear 0).meet twoStreamGreeting).send .verack).activate fifthHour

theorem receive_twoStreamGreeting :
    openedLink.receive fifthHour (.version twoStreamGreeting) =
      (activatedLink, some .activated) := rfl

theorem peerPort_activatedLink : activatedLink.connection.peerPort ≠ 0 := by
  rw [activatedLink, Link.peerPort_activate]
  decide

theorem streams_activatedLink : activatedLink.connection.streams = [1, 2] := by
  rw [activatedLink, Link.activate_streams]
  rfl

def twoStreamRecord (stream : UInt64) : PeerRecord :=
  .ofSocket twoStreamRemote stream.toUInt32 0 18000

theorem peerRecord_activatedLink (stream : UInt64) :
    activatedLink.connection.peerRecord fifthHour.clock stream =
      twoStreamRecord stream := by
  rw [activatedLink, Link.peerRecord_activate]
  rfl

theorem getElem?_openedLink (socket : SocketAddress) :
    openedLink.node.addresses.learnt[socket]? = none := by
  simp [openedLink, twoStreamHub, plainNode]

theorem keyed_twoStreamHub : twoStreamHub.node.addresses.Keyed := by
  intro socket record hheld
  cases (getElem?_openedLink socket).symm.trans hheld

theorem inRange_twoStreamRecord :
    AddressBook.inRange fifthHour.clock (twoStreamRecord 1) = true := by
  decide

theorem addresses_activatedLink :
    activatedLink.node.addresses =
      AddressBook.insert {} (twoStreamRecord 1) := by
  rw [Link.addresses_of_activated receive_twoStreamGreeting
    peerPort_activatedLink streams_activatedLink, peerRecord_activatedLink,
    AddressBook.learn, if_pos inRange_twoStreamRecord, getElem?_openedLink]
  exact if_neg (by decide)

theorem count_activatedLink :
    activatedLink.node.addresses.learnt.size +
      activatedLink.node.addresses.bootstrap.length < 10 := by
  rw [addresses_activatedLink]
  simp [AddressBook.insert, Std.HashMap.size_insert]

/-- It is found in the first of them only. -/
theorem openedLink_found_in_first_only :
    twoStreamHub.node.addresses.Keyed ∧
      (twoStreamHub.run []).link? 0 = some openedLink ∧
      openedLink.receive fifthHour (.version twoStreamGreeting) =
        (activatedLink, some .activated) ∧
      activatedLink.connection.peerPort ≠ 0 ∧
      activatedLink.connection.streams = [1, 2] ∧
      openedLink.node.addresses.learnt.size < AddressBook.mostLearnt ∧
      activatedLink.node.addresses.learnt.size +
        activatedLink.node.addresses.bootstrap.length < 10 ∧
      (∃ found ∈
          activatedLink.node.addresses.known .none fifthHour.clock 10 [1],
        found.sameEndpoint
          (activatedLink.connection.peerRecord fifthHour.clock 1) = true) ∧
      ¬ ∃ found ∈
          activatedLink.node.addresses.known .none fifthHour.clock 10 [2],
        found.sameEndpoint
          (activatedLink.connection.peerRecord fifthHour.clock 2) = true := by
  have hlink : (twoStreamHub.run []).link? 0 = some openedLink := rfl
  have hroom : openedLink.node.addresses.learnt.size <
      AddressBook.mostLearnt := by decide
  have hfound := active_peer_found_iff twoStreamHub keyed_twoStreamHub
    [] hlink receive_twoStreamGreeting
    peerPort_activatedLink hroom streams_activatedLink count_activatedLink .none
  have hnobody : activatedLink.node.addresses.bootstrap = [] := by
    rw [addresses_activatedLink]
    rfl
  have hsettled : AddressBook.settle fifthHour.clock
      openedLink.node.addresses.learnt[(twoStreamRecord 1).socket]?
        (twoStreamRecord 1) = some (twoStreamRecord 1) := by
    rw [getElem?_openedLink]
    exact if_pos inRange_twoStreamRecord
  refine ⟨keyed_twoStreamHub, hlink, receive_twoStreamGreeting,
    peerPort_activatedLink, streams_activatedLink, hroom,
    count_activatedLink, ?_, ?_⟩
  · rw [hfound 1, peerRecord_activatedLink]
    exact .inl ⟨_, hsettled, rfl, by decide⟩
  · rw [hfound 2, peerRecord_activatedLink, hnobody]
    rintro (⟨held, hheld, hstream, -⟩ | ⟨seed, hseed, -⟩)
    · rw [hsettled] at hheld
      rw [← Option.some_inj.mp hheld] at hstream
      exact absurd hstream (by decide)
    · cases hseed

end Hub

end ObjectRelay
