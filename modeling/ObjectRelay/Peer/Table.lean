import ObjectRelay.Gossip.Fanout
import ObjectRelay.Peer.Inbox

namespace ObjectRelay

inductive Lifecycle where
  | connecting
  | active
  | disconnected
deriving DecidableEq

namespace Lifecycle

def name : Lifecycle → String
  | connecting => "connecting"
  | active => "active"
  | disconnected => "disconnected"

def ofName? (name : String) : Option Lifecycle :=
  [connecting, active, disconnected].find? (·.name = name)

end Lifecycle

def Phase.lifecycle : Phase → Lifecycle
  | connecting => .connecting
  | active => .active
  | disconnected _ => .disconnected

structure PeerInfo where
  id : PeerId
  address : SocketAddress
  mode : Mode
  lifecycle : Lifecycle := .connecting
  version? : Option Int32 := none
  userAgent? : Option String := none
  streams : List UInt64 := []
  connectedAt : Nat
deriving DecidableEq

namespace PeerInfo

def isOutbound (info : PeerInfo) : Bool :=
  info.mode ≠ .server

def isActive (info : PeerInfo) : Bool :=
  info.lifecycle = .active

end PeerInfo

structure Peer where
  info : PeerInfo
  known : KnownVectors := {}
  inbox : Inbox := {}

structure StateCounts where
  connecting : Nat := 0
  active : Nat := 0
deriving DecidableEq

namespace StateCounts

def add (counts : StateCounts) (lifecycle : Lifecycle) : StateCounts :=
  match lifecycle with
  | .connecting => { counts with connecting := counts.connecting + 1 }
  | .active => { counts with active := counts.active + 1 }
  | .disconnected => counts

def ofList (lifecycles : List Lifecycle) : StateCounts :=
  lifecycles.foldl add {}

end StateCounts

/-- Each peer is found under its own name. -/
structure PeerTable where
  peers : Std.HashMap PeerId Peer
  named : ∀ (id : PeerId) (peer : Peer), peers[id]? = some peer →
    peer.info.id = id

namespace PeerTable

def empty : PeerTable where
  peers := ∅
  named id peer hpeer := by
    rw [Std.HashMap.getElem?_empty] at hpeer
    cases hpeer

def size (table : PeerTable) : Nat :=
  table.peers.size

def get? (table : PeerTable) (id : PeerId) : Option Peer :=
  table.peers[id]?

def insert (table : PeerTable) (peer : Peer) : PeerTable where
  peers := table.peers.insert peer.info.id peer
  named id held hheld := by
    rw [Std.HashMap.getElem?_insert] at hheld
    split at hheld
    · rename_i hid
      rw [← Option.some_inj.mp hheld]
      exact eq_of_beq hid
    · exact table.named id held hheld

def erase (table : PeerTable) (id : PeerId) : PeerTable where
  peers := table.peers.erase id
  named other peer hpeer := by
    rw [Std.HashMap.getElem?_erase] at hpeer
    split at hpeer
    · cases hpeer
    · exact table.named other peer hpeer

def modify (table : PeerTable) (id : PeerId) (change : Peer → Peer)
    (hchange : ∀ peer, (change peer).info.id = peer.info.id := by intro; rfl) :
    PeerTable where
  peers := table.peers.modify id change
  named other peer hpeer := by
    rw [Std.HashMap.getElem?_modify] at hpeer
    split at hpeer
    · rename_i hid
      obtain ⟨held, hheld, rfl⟩ := Option.map_eq_some_iff.mp hpeer
      rw [hchange, ← eq_of_beq hid]
      exact table.named id held hheld
    · exact table.named other peer hpeer

def snapshot (table : PeerTable) : List PeerInfo :=
  table.peers.values.map Peer.info

def active (table : PeerTable) (except? : Option PeerId) : List PeerInfo :=
  table.snapshot.filter fun info => except? ≠ some info.id && info.isActive

def activeIn (table : PeerTable) (stream : UInt64) (except? : Option PeerId) :
    List PeerInfo :=
  (table.active except?).filter fun info => info.streams.contains stream

def isConnectedTo (table : PeerTable) (address : SocketAddress) : Bool :=
  table.snapshot.any fun info => info.address = address

def counts (table : PeerTable) : StateCounts :=
  .ofList (table.snapshot.map (·.lifecycle))

/-- For each stream of any peer, in ascending order, the states of the peers
that share it, once for each time that they name it. -/
def countsByStream (table : PeerTable) : List (UInt64 × StateCounts) :=
  let shared := table.snapshot.flatMap fun info =>
    info.streams.map fun stream => (stream, info.lifecycle)
  let streams := (distinct (shared.map (·.1))).mergeSort (· ≤ ·)
  streams.map fun stream =>
    (stream, .ofList ((shared.filter (·.1 = stream)).map (·.2)))

/-- Whether the peer has room for the command, and the table once it was
sent. -/
def send (table : PeerTable) (id : PeerId) (command : PeerCommand) :
    Bool × PeerTable :=
  match table.get? id with
  | some peer =>
      (peer.inbox.accepts,
        table.modify id fun peer =>
          { peer with inbox := peer.inbox.push command })
  | none => (false, table)

def sendAll (table : PeerTable) (command : PeerCommand) (ids : List PeerId) :
    Nat × PeerTable :=
  ids.foldl
    (fun (sent, table) id =>
      let (accepted, table) := table.send id command
      (if accepted then sent + 1 else sent, table))
    (0, table)

def knows (table : PeerTable) (id : PeerId) (vector : InventoryVector)
    (now : Nat) : Bool :=
  (table.get? id).any fun peer => (peer.known.knowsOf vector now).1

/-- Looking a vector up purges what the peer is known to have. -/
def purgeKnown (table : PeerTable) (now : Nat) (ids : List PeerId) :
    PeerTable :=
  ids.foldl
    (fun table id => table.modify id fun peer =>
      { peer with known := peer.known.purge now }) table

def sharers (table : PeerTable) (stream : UInt64) (except? : Option PeerId) :
    List PeerId :=
  (table.activeIn stream except?).map (·.id)

/-- Some active peers that share a stream and do not know of a vector. -/
def targets (table : PeerTable) (shuffle : Shuffle) (now : Nat)
    (vector : InventoryVector) (stream : UInt64) (except? : Option PeerId) :
    List PeerId :=
  Fanout.choose shuffle Fanout.mostOffers (fun id => table.knows id vector now)
    (table.sharers stream except?)

/-- Offers a vector to its targets.  The number tells how many of them had room
for the offer. -/
def announce (table : PeerTable) (shuffle : Shuffle) (now : Nat)
    (vector : InventoryVector) (stream : UInt64) (except? : Option PeerId) :
    Nat × PeerTable :=
  (table.purgeKnown now (table.sharers stream except?)).sendAll (.offer vector)
    (table.targets shuffle now vector stream except?)

end PeerTable

end ObjectRelay
