import ObjectRelay.Distinct
import ObjectRelay.Inventory

namespace ObjectRelay

/-! Which vectors are requested, and from whom, so that no object is fetched
from two peers at a time. -/

abbrev PeerId := Nat

structure RequestLedger where
  owners : Std.HashMap InventoryVector PeerId := ∅

namespace RequestLedger

def size (ledger : RequestLedger) : Nat :=
  ledger.owners.size

def isRequested (ledger : RequestLedger) (vector : InventoryVector) : Bool :=
  ledger.owners.contains vector

/-- The vectors that nobody has requested yet are the peer's from now on. -/
def claim (ledger : RequestLedger) (peer : PeerId)
    (vectors : List InventoryVector) : List InventoryVector × RequestLedger :=
  let claimed :=
    (distinct vectors).filter fun vector => !ledger.isRequested vector
  (claimed, ⟨claimed.foldl (fun owners vector => owners.insert vector peer)
    ledger.owners⟩)

def complete (ledger : RequestLedger) (vector : InventoryVector) :
    RequestLedger :=
  ⟨ledger.owners.erase vector⟩

/-- A vector that another peer owns stays with it. -/
def release (ledger : RequestLedger) (peer : PeerId)
    (vectors : List InventoryVector) : RequestLedger :=
  ⟨vectors.foldl
    (fun owners vector => if owners[vector]? =
      some peer then owners.erase vector else owners) ledger.owners⟩

def claimMissing (ledger : RequestLedger) (inventory : Inventory)
    (streams : List UInt64) (peer : PeerId) (offer : List InventoryVector) :
    List InventoryVector × RequestLedger :=
  ledger.claim peer (inventory.missing offer streams)

end RequestLedger

end ObjectRelay
