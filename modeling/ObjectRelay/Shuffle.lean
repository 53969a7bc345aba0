namespace ObjectRelay

structure Shuffle where
  order : {α : Type} → List α → List α
  perm : ∀ {α : Type} (items : List α), (order items).Perm items

namespace Shuffle

def none : Shuffle where
  order items := items
  perm items := List.Perm.refl items

@[simp] theorem mem_order (shuffle : Shuffle) {items : List α} {item : α} :
    item ∈ shuffle.order items ↔ item ∈ items :=
  (shuffle.perm items).mem_iff

@[simp] theorem length_order (shuffle : Shuffle) (items : List α) :
    (shuffle.order items).length = items.length :=
  (shuffle.perm items).length_eq

end Shuffle

end ObjectRelay
