import ObjectRelay.Connection.Relay

namespace ObjectRelay

namespace Link

def receive (link : Link) (moment : Moment) (message : Message) :
    Link × Option Event :=
  let heard := { link with
    connection := { link.connection with lastActivity := moment.instant } }
  match link.connection.phase with
  | .connecting => heard.receiveConnecting moment message
  | .active => heard.receiveActive moment message
  | .disconnected _ => (link, none)

def overdue? (link : Link) (now : Nat) : Option DisconnectReason :=
  let connection := link.connection
  let profile := link.node.profile
  match connection.phase with
  | .connecting =>
      if profile.idleTimeout ≤ now - connection.startedAt
        then some .handshakeTimeout else none
  | .active =>
      if connection.outstanding.isEmpty then
        if connection.mode = .sync ∧
          profile.quietPeriod ≤ now - connection.lastActivity then
          some .syncComplete
        else none
      else if profile.idleTimeout ≤ now - connection.lastObjectAt
        then some .idleTimeout
      else none
  | .disconnected _ => none

def tick (link : Link) (now : Nat) : Link :=
  match link.overdue? now with
  | some reason => link.disconnect reason
  | none => link

/-- Hands back every outstanding request, so that other peers can serve it. -/
def release (link : Link) : List InventoryVector × Link :=
  let released := link.connection.outstanding.toList
  (released,
    ⟨{ link.node with
      requests := link.node.requests.release link.connection.id released },
      { link.connection with outstanding := ∅ }⟩)

end Link

end ObjectRelay
