import ObjectRelay.Distinct
import ObjectRelay.Object.Expiry
import Std.Data.HashMap

namespace ObjectRelay

structure Inventory where
  objects : Std.HashMap InventoryVector Object := ∅
  retention : Int := 5 * 60

namespace Inventory

def size (inventory : Inventory) : Nat :=
  inventory.objects.size

def contains (inventory : Inventory) (vector : InventoryVector) : Bool :=
  inventory.objects.contains vector

def get? (inventory : Inventory) (vector : InventoryVector) : Option Object :=
  inventory.objects[vector]?

/-- An object that is held already stays as it is. -/
def store (inventory : Inventory) (vector : InventoryVector) (object : Object) :
    Inventory :=
  { inventory with objects := inventory.objects.insertIfNew vector object }

/-- Held, and in one of the streams. -/
def serves (inventory : Inventory) (streams : List UInt64)
    (vector : InventoryVector) : Bool :=
  (inventory.get? vector).any fun object => streams.contains object.stream

def missing (inventory : Inventory) (offer : List InventoryVector)
    (streams : List UInt64) : List InventoryVector :=
  (distinct offer).filter fun vector => !inventory.serves streams vector

def vectors (inventory : Inventory) (streams : List UInt64) :
    List InventoryVector :=
  (inventory.objects.filter fun _ object => streams.contains object.stream).keys

/-- No types at all stand for every type. -/
def list (inventory : Inventory) (stream : UInt64) (version? : Option UInt64)
    (types : List UInt32) : List Object :=
  inventory.objects.values.filter fun object =>
    object.stream = stream && version?.all (object.version = ·) &&
      (types.isEmpty || types.contains object.type)

/-- Objects stay for the retention time after they expire.  The instant it is
counted from is the difference of the words while that does not leave 64
bits. -/
def cleanup (inventory : Inventory) (now : Int64) : Inventory :=
  { inventory with
    objects := inventory.objects.filter fun _ object =>
      now.toInt - inventory.retention ≤ object.expires.toInt }

end Inventory

end ObjectRelay
