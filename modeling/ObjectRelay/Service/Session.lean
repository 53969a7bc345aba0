import ObjectRelay.Service.Basic

namespace ObjectRelay

/-! The sessions of a service, from bytes to bytes.  Each step gives the bytes
that go to the peer; a session that is over has left the service. -/

namespace Connection

/-- Frames for the queue.  A message that has none ends the connection. -/
def writeQueue (hasher : Hasher) (magic : Frame.Magic)
    (connection : Connection) :
    List Message → Bytes × Connection
  | [] => ([], { connection with queue := [] })
  | message :: rest =>
      match Frame.encode hasher magic message with
      | .error failure =>
          ([], { connection with queue := rest }.disconnect
            (.io failure.message))
      | .ok frame =>
          let (frames, connection) := connection.writeQueue hasher magic rest
          (frame ++ frames, connection)

end Connection

namespace Service

def link? (service : Service) (id : PeerId) : Option (Session × Link) := do
  let session ← service.sessions[id]?
  let known :=
    ((service.peers.get? id).map (·.known)).getD session.connection.known
  return (session, ⟨service.node, { session.connection with known := known }⟩)

def keep (service : Service) (session : Session) (link : Link) : Service :=
  let id := link.connection.id
  { service with
    node := link.node
    peers := service.peers.modify id fun peer =>
      { peer with known := link.connection.known }
    sessions := service.sessions.insert id { session with
      connection := link.connection } }

/-- An active session is told of in the table; an accepted object goes to other
peers. -/
def act (service : Service) (moment : Moment) (id : PeerId) :
    Option Event → Service
  | none => service
  | some .activated =>
      match service.sessions[id]? with
      | none => service
      | some session =>
          let connection := session.connection
          { service with
            sessions := service.sessions.insert id { session with
              isActivated := true }
            peers := service.peers.modify id fun peer =>
              { peer with
                info := { peer.info with
                  lifecycle := .active
                  version? := connection.peer?.map (·.version)
                  userAgent? := connection.peer?.map (·.userAgent)
                  streams := connection.streams } } }
  | some (.accepted vector) =>
      match service.node.inventory.get? vector with
      | none => service
      | some object => service.announce moment vector object.stream (some id)

/-- Ends a session: what it had requested is for the other active peers to take
over. -/
def retire (service : Service) (session : Session) (link : Link) : Service :=
  let id := link.connection.id
  let (released, link) := link.release
  let peers := service.peers.erase id
  let (_, peers) :=
    if released.isEmpty then (0, peers)
    else peers.sendAll (.reassign released) ((peers.active none).map (·.id))
  { service with
    node := link.node
    peers := peers
    sessions := service.sessions.erase session.connection.id }

/-- Writes what a session has queued, and ends it if it is over. -/
def flush (service : Service) (id : PeerId) : Bytes × Service :=
  match service.link? id with
  | none => ([], service)
  | some (session, link) =>
      let (bytes, connection) := link.connection.writeQueue service.node.hasher
        service.settings.magic link.connection.queue
      let link := { link with connection := connection }
      (bytes,
        if connection.isDisconnected then service.retire session link
        else service.keep session link)

def advance (service : Service) (moment : Moment) (id : PeerId)
    (step : Link → Link × Option Event) : Bytes × Service :=
  match service.link? id with
  | none => ([], service)
  | some (session, link) =>
      let (link, event?) := step link
      ((service.keep session link).act moment id event?).flush id

def openSession (service : Service) (moment : Moment) (mode : Mode)
    (remote : SocketAddress) : PeerId × Bytes × Service :=
  let id := service.nextId
  let connection : Connection :=
    { id := id, mode := mode, remote := remote, startedAt := moment.instant }
  let peer : Peer :=
    { info :=
        { id := id, address := remote, mode := mode,
          connectedAt := moment.instant } }
  let opened := { service with
    peers := service.peers.insert peer
    sessions := service.sessions.insert id { connection := connection }
    nextId := id + 1 }
  let (bytes, started) :=
    opened.advance moment id fun link => (link.start moment, none)
  (id, bytes, started)

def disconnect (service : Service) (moment : Moment) (id : PeerId)
    (reason : DisconnectReason) : Bytes × Service :=
  service.advance moment id fun link => (link.disconnect reason, none)

def receiveAll (service : Service) (moment : Moment) (id : PeerId) :
    List Message → Bytes × Service
  | [] => ([], service)
  | message :: rest =>
      let (bytes, service) :=
        service.advance moment id (·.receive moment message)
      let (more, service) := service.receiveAll moment id rest
      (bytes ++ more, service)

/-- Bytes from the peer.  The first that make no frame end the session. -/
def receive (service : Service) (moment : Moment) (id : PeerId)
    (bytes : Bytes) : Bytes × Service :=
  match service.sessions[id]? with
  | none => ([], service)
  | some session =>
      let (messages, failure?, unread) :=
        Frame.decodeAll service.node.hasher service.settings.magic
          (session.unread ++ bytes)
      let service := { service with
        sessions := service.sessions.insert id { session with
          unread := unread } }
      let (answers, service) := service.receiveAll moment id messages
      match failure? with
      | none => (answers, service)
      | some failure =>
          let (more, service) :=
            service.disconnect moment id (.malformed failure.message)
          (answers ++ more, service)

def receiveEnd (service : Service) (moment : Moment) (id : PeerId) :
    Bytes × Service :=
  match service.sessions[id]? with
  | none => ([], service)
  | some session =>
      service.disconnect moment id
        (if session.unread.isEmpty then .closedByPeer else .io Session.leftover)

def obey (moment : Moment) (command : PeerCommand) (link : Link) : Link :=
  match command with
  | .offer vector => link.offer moment vector
  | .reassign vectors => link.reassign moment vectors
  | .disconnect reason => link.disconnect reason

def attend (service : Service) (moment : Moment) (id : PeerId) :
    Bytes × Service :=
  match service.peers.get? id with
  | none => ([], service)
  | some peer =>
      let (command?, inbox) := peer.inbox.pop
      match command? with
      | none => ([], service)
      | some command =>
          let service := { service with
            peers := service.peers.modify id fun peer =>
              { peer with inbox := inbox } }
          service.advance moment id fun link => (obey moment command link, none)

def tick (service : Service) (moment : Moment) (id : PeerId) :
    Bytes × Service :=
  service.advance moment id fun link => (link.tick moment.instant, none)

/-- Ends every session and listens no longer. -/
def stop (service : Service) (moment : Moment) :
    List (PeerId × Bytes) × Service :=
  let (written, service) := service.sessions.keys.foldl
    (fun (written, service) id =>
      let (bytes, service) := disconnect service moment id .shutdown
      ((id, bytes) :: written, service))
    ([], service)
  (written.reverse, { service with bound? := none })

end Service

end ObjectRelay
