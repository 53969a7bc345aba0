import ObjectRelay.Object.Envelope
import Std.Data.HashMap

namespace ObjectRelay

/-! The vectors that a peer has announced or was sent, with the instant, in
milliseconds, at which that last happened.  After a lifetime the peer may have
dropped them. -/

structure KnownVectors where
  lifetime : Nat := 5 * 60 * 1000
  seen : Std.HashMap InventoryVector Nat := ∅

namespace KnownVectors

def size (known : KnownVectors) : Nat :=
  known.seen.size

def insert (known : KnownVectors) (vector : InventoryVector) (now : Nat) :
    KnownVectors :=
  { known with seen := known.seen.insert vector now }

def extend (known : KnownVectors) (vectors : List InventoryVector) (now : Nat) :
    KnownVectors :=
  vectors.foldl (fun known vector => known.insert vector now) known

/-- An entry from the future counts as new. -/
def purge (known : KnownVectors) (now : Nat) : KnownVectors :=
  { known with
    seen := known.seen.filter fun _ seen => now - seen ≤ known.lifetime }

/-- Old entries are dropped whenever one is looked up. -/
def knowsOf (known : KnownVectors) (vector : InventoryVector) (now : Nat) :
    Bool × KnownVectors :=
  let purged := known.purge now
  (purged.seen.contains vector, purged)

/-- Those of the vectors that are known.  Where none is looked up, nothing is
dropped. -/
def knownOf (known : KnownVectors) (vectors : List InventoryVector)
    (now : Nat) : List InventoryVector × KnownVectors :=
  if vectors.isEmpty then ([], known)
  else
    let purged := known.purge now
    (vectors.filter purged.seen.contains, purged)

end KnownVectors

end ObjectRelay
