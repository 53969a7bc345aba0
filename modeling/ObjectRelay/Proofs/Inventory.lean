import ObjectRelay.Inventory
import ObjectRelay.Proofs.Distinct
import ObjectRelay.Proofs.HashMap

namespace ObjectRelay

namespace Inventory

variable {inventory : Inventory} {vector other : InventoryVector}
  {object : Object} {streams : List UInt64}

theorem contains_eq (inventory : Inventory) (vector : InventoryVector) :
    inventory.contains vector = (inventory.get? vector).isSome :=
  Std.HashMap.contains_eq_isSome_getElem?

theorem contains_eq_false_iff :
    inventory.contains vector = false ↔ inventory.get? vector = none := by
  rw [contains_eq, Option.isSome_eq_false_iff, Option.isNone_iff_eq_none]

theorem get?_store_of_eq_none (h : inventory.get? vector = none)
    (object : Object) :
    (inventory.store vector object).get? vector = some object := by
  have habsent : vector ∉ inventory.objects := by
    rw [Std.HashMap.mem_iff_isSome_getElem?, show inventory.objects[vector]? =
      none from h]
    simp
  rw [get?, store, Std.HashMap.getElem?_insertIfNew]
  simp [habsent]

theorem get?_store_of_ne (h : other ≠ vector) (object : Object) :
    (inventory.store vector object).get? other = inventory.get? other := by
  rw [get?, store, Std.HashMap.getElem?_insertIfNew]
  simp [h.symm, get?]

theorem get?_store_of_eq_some (h : inventory.get? other = some object)
    (vector : InventoryVector) (new : Object) :
    (inventory.store vector new).get? other = some object := by
  by_cases hsame : other = vector
  · subst hsame
    have hheld : other ∈ inventory.objects := by
      rw [Std.HashMap.mem_iff_isSome_getElem?, show inventory.objects[other]? =
        some object from h]
      rfl
    rw [get?, store, Std.HashMap.getElem?_insertIfNew,
      if_neg fun hnew => hnew.2 hheld]
    exact h
  · rw [get?_store_of_ne hsame]
    exact h

theorem store_of_contains (h : inventory.contains vector = true)
    (object : Object) :
    inventory.store vector object = inventory := by
  rw [store, insertIfNew_eq_self h]

theorem get?_eq_of_get?_store {new : Object}
    (h : (inventory.store vector new).get? other = some object) :
    other = vector ∧ object = new ∨ inventory.get? other = some object := by
  by_cases hsame : other = vector
  · subst hsame
    cases hheld : inventory.get? other with
    | none =>
        rw [get?_store_of_eq_none hheld] at h
        exact .inl ⟨rfl, (Option.some_inj.mp h).symm⟩
    | some old =>
        rw [get?_store_of_eq_some hheld] at h
        exact .inr h
  · rw [get?_store_of_ne hsame] at h
    exact .inr h

theorem get?_cleanup (inventory : Inventory) (now : Int64)
    (vector : InventoryVector) :
    (inventory.cleanup now).get? vector = (inventory.get? vector).filter
      fun object =>
      now.toInt - inventory.retention ≤ object.expires.toInt := by
  rw [get?, cleanup, Std.HashMap.getElem?_filter']
  rfl

theorem get?_cleanup_words {now grace : Int64}
    (hgrace : inventory.retention = grace.toInt)
    (hlower : Int64.minValue.toInt ≤ now.toInt - grace.toInt)
    (hupper : now.toInt - grace.toInt ≤ Int64.maxValue.toInt)
    (vector : InventoryVector) :
    (inventory.cleanup now).get? vector =
      (inventory.get? vector).filter fun object =>
        now - grace ≤ object.expires := by
  rw [Int64.toInt_minValue] at hlower
  rw [Int64.toInt_maxValue] at hupper
  have hword : (now - grace).toInt = now.toInt - grace.toInt := by
    rw [Int64.toInt_sub, Int.bmod_def]
    omega
  simp only [get?_cleanup, hgrace, Int64.le_iff_toInt_le, hword]

theorem get?_of_get?_cleanup {now : Int64}
    (h : (inventory.cleanup now).get? vector = some object) :
    inventory.get? vector = some object := by
  rw [get?_cleanup] at h
  exact (Option.filter_eq_some_iff.mp h).1

theorem mem_vectors :
    vector ∈ inventory.vectors streams ↔
      ∃ object, inventory.get? vector = some object ∧
        streams.contains object.stream = true := by
  rw [vectors, Std.HashMap.mem_keys, Std.HashMap.mem_iff_isSome_getElem?,
    Std.HashMap.getElem?_filter', Option.isSome_filter, Option.any_eq_true]
  rfl

theorem mem_vectors_iff_serves :
    vector ∈ inventory.vectors streams ↔ inventory.serves streams vector =
      true := by
  rw [mem_vectors, serves, Option.any_eq_true]

theorem nodup_vectors (inventory : Inventory) (streams : List UInt64) :
    (inventory.vectors streams).Nodup :=
  Std.HashMap.nodup_keys

/-- Every vector that is served is announced once, however often its stream is
named. -/
theorem count_vectors (inventory : Inventory) (streams : List UInt64)
    (vector : InventoryVector) :
    (inventory.vectors streams).count vector =
      if inventory.serves streams vector = true then 1 else 0 := by
  rw [(inventory.nodup_vectors streams).count]
  exact if_congr mem_vectors_iff_serves rfl rfl

theorem mem_missing {offer : List InventoryVector} :
    vector ∈ inventory.missing offer streams ↔
      vector ∈ offer ∧ inventory.serves streams vector = false := by
  simp [missing]

theorem missing_sublist (inventory : Inventory) (offer : List InventoryVector)
    (streams : List UInt64) : (inventory.missing offer streams).Sublist offer :=
  List.filter_sublist.trans (distinct_sublist offer)

end Inventory

end ObjectRelay
