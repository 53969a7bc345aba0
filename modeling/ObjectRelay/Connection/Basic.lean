import ObjectRelay.Gossip.KnownVectors
import ObjectRelay.Node.Basic

namespace ObjectRelay

/-- Accepted, dialed for gossip, or dialed to synchronize once with a trusted
host. -/
inductive Mode where
  | server
  | client
  | sync
deriving DecidableEq

namespace Mode

def name : Mode → String
  | server => "server"
  | client => "client"
  | sync => "sync"

def ofName? (name : String) : Option Mode :=
  [server, client, sync].find? (·.name = name)

end Mode

inductive DisconnectReason where
  | selfConnection
  | duplicateVersion
  | unsupportedVersion (version : Int32)
  | unexpectedMessage (command : String)
  | customRequestServed
  | handshakeTimeout
  | idleTimeout
  | expired
  | excessConnection
  | syncComplete
  | malformed (text : String)
  | io (text : String)
  | closedByPeer
  | shutdown
deriving DecidableEq

def DisconnectReason.message : DisconnectReason → String
  | selfConnection => "connected to self"
  | duplicateVersion => "duplicate version message"
  | unsupportedVersion version =>
    s!"unsupported protocol version {version.toInt}"
  | unexpectedMessage command => s!"unexpected {command} message"
  | customRequestServed => "custom request served"
  | handshakeTimeout => "handshake timeout"
  | idleTimeout => "idle with outstanding requests"
  | expired => "connection TTL expired"
  | excessConnection => "connection limit exceeded"
  | syncComplete => "synchronization complete"
  | malformed text => s!"malformed frame: {text}"
  | io text => s!"I/O error: {text}"
  | closedByPeer => "closed by peer"
  | shutdown => "shutdown"

inductive Phase where
  | connecting
  | active
  | disconnected (reason : DisconnectReason)
deriving DecidableEq

/-- What a peer says of itself in the handshake, its version cut to the spoken
one. -/
structure PeerIdentity where
  version : Int32
  nonce : UInt64
  services : UInt64
  userAgent : String
deriving DecidableEq

structure Connection where
  id : PeerId
  mode : Mode
  remote : SocketAddress
  phase : Phase := .connecting
  peer? : Option PeerIdentity := none
  peerPort : UInt16 := remote.port
  streams : List UInt64 := []
  known : KnownVectors := {}
  queue : List Message := []
  outstanding : Std.HashSet InventoryVector := ∅
  startedAt : Nat
  lastActivity : Nat := startedAt
  lastObjectAt : Nat := startedAt
  received : Nat := 0

/-- What the owner of a connection has to act on. -/
inductive Event where
  | activated
  | accepted (vector : InventoryVector)
deriving DecidableEq

namespace Connection

def isActive (connection : Connection) : Bool :=
  connection.phase = .active

def reason? (connection : Connection) : Option DisconnectReason :=
  match connection.phase with
  | .disconnected reason => some reason
  | _ => none

def isDisconnected (connection : Connection) : Bool :=
  connection.reason?.isSome

def send (connection : Connection) (message : Message) : Connection :=
  { connection with queue := connection.queue ++ [message] }

/-- The first reason wins. -/
def disconnect (connection : Connection) (reason : DisconnectReason) :
    Connection :=
  match connection.phase with
  | .disconnected _ => connection
  | _ => { connection with phase := .disconnected reason }

/-- The idle clock starts with the first outstanding request. -/
def request (connection : Connection) (vectors : List InventoryVector)
    (now : Nat) : Connection :=
  if vectors.isEmpty then connection
  else
    { connection with
      lastObjectAt :=
        if connection.outstanding.isEmpty then now else connection.lastObjectAt
      outstanding := connection.outstanding.insertMany vectors
      queue := connection.queue ++ [.getdata vectors] }

end Connection

structure Link where
  node : Node
  connection : Connection

namespace Link

def send (link : Link) (message : Message) : Link :=
  { link with connection := link.connection.send message }

def disconnect (link : Link) (reason : DisconnectReason) : Link :=
  { link with connection := link.connection.disconnect reason }

end Link

end ObjectRelay
