import ObjectRelay.Connection.Lifetime
import ObjectRelay.Peer.Table
import ObjectRelay.Service.Error
import ObjectRelay.Service.Settings

namespace ObjectRelay

/-- A connection, and the bytes from its peer that do not make a frame yet.
What the peer is known to have is kept in the table of peers. -/
structure Session where
  connection : Connection
  isActivated : Bool := false
  unread : Bytes := []

/-- Said of a stream that ends within a frame. -/
def Session.leftover : String := "bytes remaining on stream"

structure SessionOutcome where
  reason : DisconnectReason
  isActivated : Bool := false
  received : Nat := 0
deriving DecidableEq

structure Service where
  settings : ServiceSettings
  node : Node
  peers : PeerTable := .empty
  sessions : Std.HashMap PeerId Session := ∅
  nextId : PeerId := 0
  /-- Where the service listens, while it runs. -/
  bound? : Option SocketAddress := none

namespace Service

def isRunning (service : Service) : Bool :=
  service.bound?.isSome

/-- Runs from now on, given the outcome of binding the address that it is to
listen on. -/
def start (service : Service) (bound : Except String SocketAddress) :
    Except ServiceError Service :=
  if service.isRunning then .error .alreadyRunning
  else
    match bound with
    | .error text => .error (.io text)
    | .ok address =>
        .ok { service with
          bound? := some address
          node := { service.node with port := address.port } }

/-- Offers a vector to some of the peers that share its stream. -/
def announce (service : Service) (moment : Moment) (vector : InventoryVector)
    (stream : UInt64) (except? : Option PeerId) : Service :=
  let (_, peers) :=
    service.peers.announce moment.shuffle moment.instant vector stream except?
  { service with peers := peers }

def checkObject (node : Node) (clock : Int64) (object : Object) :
    Except ServiceError InventoryVector :=
  if !node.profile.streams.contains object.stream
    then .error (.notServed object.stream)
  else
    match object.expiryViolation? clock with
    | some violation => .error (.untimely violation)
    | none => do
        (node.engine.checkWork object clock).mapError .work
        (object.vector node.hasher).mapError .wire

/-- Stores an object and announces it.  A nonce that was kept for it is no
longer needed. -/
def publish (service : Service) (moment : Moment) (object : Object) :
    Except ServiceError InventoryVector × Service :=
  match checkObject service.node moment.clock object with
  | .error failure => (.error failure, service)
  | .ok vector =>
      let node :=
        { service.node with engine := service.node.engine.forget object }
      let isNew := !node.inventory.contains vector
      let stored := { service with node := node.store vector object }
      (.ok vector,
        if isNew then stored.announce moment vector object.stream none
        else stored)

/-- Tells some peers to leave, as the pool's limits ask, and gives the addresses
to dial. -/
def sweep (service : Service) (moment : Moment) :
    List SocketAddress × Service :=
  let plan := Pool.plan service.settings.pool service.peers.snapshot
    (fun limit => service.node.knownAddresses moment limit
      service.node.profile.streams) moment.instant
  let peers := plan.disconnect.foldl
    (fun peers (id, reason) => (peers.send id (.disconnect reason)).2)
      service.peers
  (plan.connect.filter fun address => service.bound? ≠ some address,
    { service with peers := peers })

end Service

end ObjectRelay
