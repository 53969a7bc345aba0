import ObjectRelay.Connection.Basic

namespace ObjectRelay

/-! The handshake.  The dialing side opens with its version; the accepting side
answers with an acknowledgement and its own version, which the dialing side
acknowledges. -/

def protocolVersion : Int32 := 3

def leastProtocolVersion : Int32 := 3

namespace Node

/-- The node does not know under which address it is reached, but for the
port. -/
def greeting (node : Node) (remote : SocketAddress) (clock : Int64) :
    Greeting :=
  let profile := node.profile
  let stream := (profile.streams.head?.getD 1).toUInt32
  { version := protocolVersion
    services := profile.services
    timestamp := clock
    recipient := .ofSocket remote stream 0 0
    sender := ⟨0, stream, profile.services, .ofNat 16 0, node.port⟩
    nonce := profile.nonce
    userAgent := profile.userAgent
    streams := profile.streams }

end Node

namespace Connection

/-- Where others can reach the peer, if it says so, one record for each shared
stream. -/
def peerRecords (connection : Connection) (clock : Int64) : List PeerRecord :=
  if connection.peerPort = 0 then []
  else
    let seen := UInt64.ofNat clock.toInt.toNat
    let services := (connection.peer?.map (·.services)).getD 0
    let endpoint := match connection.remote with
      | .v4 octets _ => SocketAddress.v4 octets connection.peerPort
      | .v6 octets _ _ => SocketAddress.v6 octets connection.peerPort 0
    connection.streams.map fun stream =>
      .ofSocket endpoint stream.toUInt32 services seen

end Connection

namespace Link

def greet (link : Link) (moment : Moment) : Link :=
  link.send (.version (link.node.greeting link.connection.remote moment.clock))

def start (link : Link) (moment : Moment) : Link :=
  match link.connection.mode with
  | .server => link
  | .client | .sync => link.greet moment

/-- Addresses are told before the peer's own becomes one of them. -/
def tellAddresses (link : Link) (moment : Moment) : Link :=
  if link.connection.mode = .sync then link
  else
    let records := link.node.knownAddresses moment Message.mostAddresses
      link.node.profile.streams
    if records.isEmpty then link else link.send (.addr records)

def learnPeer (link : Link) (moment : Moment) : Link :=
  { link with
    node := link.node.offerAddresses moment
      (link.connection.peerRecords moment.clock) }

def tellInventory (link : Link) : Link :=
  (Message.announce (link.node.inventory.vectors link.connection.streams)).foldl
    send link

def activate (link : Link) (moment : Moment) : Link :=
  let opened := { link with
    connection := { link.connection with
      phase := .active, lastActivity := moment.instant } }
  ((opened.tellAddresses moment).learnPeer moment).tellInventory

/-- Only streams that both sides name are shared, in this node's order. -/
def meet (link : Link) (greeting : Greeting) : Link :=
  let connection := link.connection
  { link with
    connection := { connection with
      peer? := some ⟨min greeting.version protocolVersion, greeting.nonce,
        greeting.services, greeting.userAgent⟩
      peerPort := if connection.mode = .server then greeting.sender.port
        else connection.peerPort
      streams := link.node.profile.streams.filter fun stream =>
        greeting.streams.contains stream } }

def receiveGreeting (link : Link) (moment : Moment) (greeting : Greeting) :
    Link × Option Event :=
  if link.connection.peer?.isSome then (link.disconnect .duplicateVersion, none)
  else if greeting.nonce = link.node.profile.nonce
    then (link.disconnect .selfConnection, none)
  else if greeting.version < leastProtocolVersion then
    (link.disconnect (.unsupportedVersion greeting.version), none)
  else
    let met := (link.meet greeting).send .verack
    match link.connection.mode with
    | .server => (met.greet moment, none)
    | .client | .sync => (met.activate moment, some .activated)

def receiveVerack (link : Link) (moment : Moment) : Link × Option Event :=
  match link.connection.mode with
  | .server =>
      if link.connection.peer?.isSome
        then (link.activate moment, some .activated)
      else (link.disconnect (.unexpectedMessage Message.verack.command), none)
  | .client | .sync => (link, none)

/-- A custom request takes the place of a handshake, and ends the connection. -/
def receiveCustom (link : Link) (request : CustomMessage) : Link :=
  match link.connection.mode, link.connection.peer?,
    link.node.profile.answer? with
  | .server, none, some answer =>
      let answered := match answer request with
        | some response => link.send (.custom response)
        | none => link
      answered.disconnect .customRequestServed
  | _, _, _ =>
      link.disconnect (.unexpectedMessage (Message.custom request).command)

def receiveConnecting (link : Link) (moment : Moment) (message : Message) :
    Link × Option Event :=
  match message with
  | .version greeting => link.receiveGreeting moment greeting
  | .verack => link.receiveVerack moment
  | .custom request => (link.receiveCustom request, none)
  | _ => (link, none)

end Link

end ObjectRelay
