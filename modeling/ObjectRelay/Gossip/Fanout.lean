import ObjectRelay.Shuffle

namespace ObjectRelay

namespace Fanout

def mostOffers : Nat := 8

def choose {α : Type} (shuffle : Shuffle) (limit : Nat) (knows : α → Bool)
    (candidates : List α) : List α :=
  (shuffle.order (candidates.filter fun candidate => !knows candidate)).take
    limit

end Fanout

end ObjectRelay
