import ObjectRelay.Connection.Handshake

namespace ObjectRelay

/-! Gossip after the handshake: vectors are announced, missing objects
requested, requested objects sent, and new objects stored once they have passed
every check. -/

namespace Link

def remember (link : Link) (vector : InventoryVector) (now : Nat) : Link :=
  { link with
    connection := { link.connection with
      known := link.connection.known.insert vector now } }

def receiveInventory (link : Link) (moment : Moment)
    (vectors : List InventoryVector) : Link :=
  let node := link.node
  let connection := link.connection
  let (missing, requests) :=
    node.requests.claimMissing node.inventory node.profile.streams
    connection.id vectors
  ⟨{ node with requests := requests },
    { connection with
      known := connection.known.extend vectors moment.instant }.request
      missing moment.instant⟩

/-- Objects that are not held are passed over. -/
def serve (moment : Moment) (link : Link) (vector : InventoryVector) : Link :=
  match link.node.inventory.get? vector with
  | some object => (link.remember vector moment.instant).send (.object object)
  | none => link

def receiveRequest (link : Link) (moment : Moment)
    (vectors : List InventoryVector) : Link :=
  vectors.foldl (serve moment) link

/-- Only a requested object counts as progress. -/
def deliver (link : Link) (moment : Moment) (vector : InventoryVector) : Link :=
  if link.connection.outstanding.contains vector then
    ⟨{ link.node with requests := link.node.requests.complete vector },
      { link.connection with
        outstanding := link.connection.outstanding.erase vector
        lastObjectAt := moment.instant }⟩
  else link

end Link

namespace Node

/-- Whether an object is new, in a served stream, in time, and paid for with
work. -/
def accepts (node : Node) (clock : Int64) (vector : InventoryVector)
    (object : Object) : Bool :=
  !node.inventory.contains vector &&
    node.profile.streams.contains object.stream &&
    (object.expiryViolation? clock).isNone &&
      (node.engine.checkWork object clock).isOk

def store (node : Node) (vector : InventoryVector) (object : Object) : Node :=
  { node with inventory := node.inventory.store vector object }

end Node

namespace Link

def receiveObject (link : Link) (moment : Moment) (object : Object) :
    Link × Option Event :=
  match object.vector link.node.hasher with
  | .error _ => (link, none)
  | .ok vector =>
      let delivered :=
        (link.remember vector moment.instant).deliver moment vector
      if delivered.node.accepts moment.clock vector object then
        (⟨delivered.node.store vector object,
          { delivered.connection with
            received := delivered.connection.received + 1 }⟩,
          some (.accepted vector))
      else (delivered, none)

def receiveActive (link : Link) (moment : Moment) (message : Message) :
    Link × Option Event :=
  match message with
  | .inv vectors => (link.receiveInventory moment vectors, none)
  | .getdata vectors => (link.receiveRequest moment vectors, none)
  | .object object => link.receiveObject moment object
  | .addr records =>
      ({ link with node := link.node.offerAddresses moment records }, none)
  | .version _ | .verack | .custom _ =>
      (link.disconnect (.unexpectedMessage message.command), none)
  | .unknown _ _ => (link, none)

/-- An object that has left the inventory is offered whatever its stream was. -/
def offer (link : Link) (moment : Moment) (vector : InventoryVector) : Link :=
  let shared := (link.node.inventory.get? vector).all fun object =>
    link.connection.streams.contains object.stream
  if link.connection.isActive && shared then
    (link.remember vector moment.instant).send (.inv [vector])
  else link

/-- Takes over those vectors of another connection that this peer knows of. -/
def reassign (link : Link) (moment : Moment)
    (vectors : List InventoryVector) : Link :=
  if link.connection.isActive then
    let (known, cache) := link.connection.known.knownOf vectors moment.instant
    let (claimed, requests) := link.node.requests.claim link.connection.id known
    ⟨{ link.node with requests := requests },
      { link.connection with known := cache }.request claimed moment.instant⟩
  else link

end Link

end ObjectRelay
