import ObjectRelay.AddressBook
import ObjectRelay.Gossip.RequestLedger
import ObjectRelay.Message.Basic
import ObjectRelay.Work.Engine

namespace ObjectRelay

/-! A node: what it is set to do, and what all its connections share. -/

structure Profile where
  nonce : UInt64
  streams : List UInt64
  services : UInt64 := PeerRecord.relaysObjects
  userAgent : String
  /-- How custom requests are answered, if at all; a request may get no
  answer. -/
  answer? : Option (CustomMessage → Option CustomMessage) := none
  /-- Milliseconds. -/
  idleTimeout : Nat
  /-- Milliseconds without a message after which a synchronization is over. -/
  quietPeriod : Nat

structure Node where
  profile : Profile
  port : UInt16
  engine : WorkEngine
  inventory : Inventory := {}
  addresses : AddressBook := {}
  requests : RequestLedger := {}

/-- When something happens: an instant in milliseconds, the wall clock in
seconds, and the order that chance gives to what has none. -/
structure Moment where
  instant : Nat
  clock : Int64
  shuffle : Shuffle := .none

namespace Node

def hasher (node : Node) : Hasher :=
  node.engine.hasher

def knownAddresses (node : Node) (moment : Moment) (limit : Nat)
    (streams : List UInt64) : List PeerRecord :=
  node.addresses.known moment.shuffle moment.clock limit streams

def offerAddresses (node : Node) (moment : Moment)
    (records : List PeerRecord) : Node :=
  { node with
    addresses := node.addresses.offer moment.shuffle moment.clock records }

/-- Drops expired objects and stale addresses, as a node does from time to
time. -/
def cleanup (node : Node) (clock : Int64) : Node :=
  { node with
    inventory := node.inventory.cleanup clock
    addresses := node.addresses.cleanup clock }

end Node

end ObjectRelay
