import ObjectRelay.Peer.Table

namespace ObjectRelay

/-! The pool of connections is kept within its limits by a sweep from time to
time: some connections are closed, and some peers are dialed. -/

structure PoolLimits where
  connections : UInt64 := 150
  /-- Milliseconds. -/
  lifetime : Nat := 30 * 60 * 1000
  outbound : UInt64 := 8
deriving DecidableEq

structure PoolPlan where
  disconnect : List (PeerId × DisconnectReason)
  connect : List SocketAddress
deriving DecidableEq

namespace PoolPlan

def isEmpty (plan : PoolPlan) : Bool :=
  plan.disconnect.isEmpty && plan.connect.isEmpty

end PoolPlan

namespace Pool

/-- The oldest connection comes first. -/
def live (peers : List PeerInfo) : List PeerInfo :=
  (peers.filter (·.lifecycle ≠ .disconnected)).mergeSort fun left right =>
    left.connectedAt ≤ right.connectedAt

/-- Synchronizations end on their own. -/
def closable (live : List PeerInfo) : List PeerInfo :=
  live.filter (·.mode ≠ .sync)

def excess (limits : PoolLimits) (live : List PeerInfo) : List PeerInfo :=
  (closable live).take (live.length - limits.connections.toNat)

/-- At most one connection is closed for its age alone. -/
def expired? (limits : PoolLimits) (live : List PeerInfo) (now : Nat) :
    Option PeerInfo :=
  let excess := excess limits live
  (closable live).find? fun peer =>
    !excess.any (·.id = peer.id) && limits.lifetime < now - peer.connectedAt

def dropped (limits : PoolLimits) (live : List PeerInfo) (now : Nat) :
    List (PeerId × DisconnectReason) :=
  (excess limits live).map (fun peer => (peer.id, .excessConnection)) ++
    (expired? limits live now).toList.map fun peer => (peer.id, .expired)

/-- A peer that is closed is counted once. -/
def remaining (limits : PoolLimits) (live : List PeerInfo) (now : Nat) : Nat :=
  live.length - (distinct ((dropped limits live now).map (·.1))).length

def wanted (limits : PoolLimits) (live : List PeerInfo) (now : Nat) : Nat :=
  let remaining := remaining limits live now
  min (limits.outbound.toNat - remaining)
    (limits.connections.toNat - remaining)

def connected (live : List PeerInfo) : List SocketAddress :=
  distinct (live.map (·.address))

/-- How many addresses to ask for: some of them may be connected already.
The sum is one of words and starts over at zero when it leaves them. -/
def asked (limits : PoolLimits) (live : List PeerInfo) (now : Nat) : UInt64 :=
  .ofNat (wanted limits live now) + .ofNat (connected live).length

def asked? (limits : PoolLimits) (live : List PeerInfo) (now : Nat) :
    Option UInt64 :=
  if wanted limits live now = 0 then none else some (asked limits live now)

def dialed (limits : PoolLimits) (live : List PeerInfo) (now : Nat)
    (known : Nat → List PeerRecord) : List SocketAddress :=
  match asked? limits live now with
  | none => []
  | some asked =>
      let connected := connected live
      let found := distinct ((known asked.toNat).map PeerRecord.socket)
      (found.filter fun address => !connected.contains address).take
        (wanted limits live now)

def plan (limits : PoolLimits) (peers : List PeerInfo)
    (known : Nat → List PeerRecord) (now : Nat) : PoolPlan :=
  let live := live peers
  ⟨dropped limits live now, dialed limits live now known⟩

end Pool

end ObjectRelay
