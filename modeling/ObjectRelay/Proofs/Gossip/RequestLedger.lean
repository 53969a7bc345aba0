import ObjectRelay.Gossip.RequestLedger
import ObjectRelay.Proofs.Distinct
import ObjectRelay.Proofs.Gossip.KnownVectors

namespace ObjectRelay

namespace RequestLedger

def owner? (ledger : RequestLedger) (vector : InventoryVector) :
    Option PeerId :=
  ledger.owners[vector]?

theorem isRequested_eq (ledger : RequestLedger) (vector : InventoryVector) :
    ledger.isRequested vector = (ledger.owner? vector).isSome :=
  Std.HashMap.contains_eq_isSome_getElem?

theorem isRequested_eq_false_iff {ledger : RequestLedger}
    {vector : InventoryVector} :
    ledger.isRequested vector = false ↔ ledger.owner? vector = none := by
  rw [isRequested_eq, Option.isSome_eq_false_iff, Option.isNone_iff_eq_none]

theorem owner?_eq_none_of_size_eq_zero {ledger : RequestLedger}
    (h : ledger.size = 0) (vector : InventoryVector) :
    ledger.owner? vector = none := by
  have hempty : ledger.owners.isEmpty = true := by
    rw [Std.HashMap.isEmpty_eq_size_eq_zero]
    exact beq_iff_eq.mpr h
  exact Std.HashMap.getElem?_of_isEmpty hempty

theorem size_eq_zero_of_not_isRequested {ledger : RequestLedger}
    (h : ∀ vector, ledger.isRequested vector = false) : ledger.size = 0 := by
  have hempty : ledger.owners.isEmpty = true :=
    Std.HashMap.isEmpty_iff_forall_contains.mpr h
  rw [Std.HashMap.isEmpty_eq_size_eq_zero] at hempty
  exact beq_iff_eq.mp hempty

theorem mem_claim {ledger : RequestLedger} {peer : PeerId}
    {vectors : List InventoryVector} {vector : InventoryVector} :
    vector ∈ (ledger.claim peer vectors).1 ↔
      vector ∈ vectors ∧ ledger.owner? vector = none := by
  simp [claim, isRequested_eq_false_iff]

theorem nodup_claim (ledger : RequestLedger) (peer : PeerId)
    (vectors : List InventoryVector) :
    (ledger.claim peer vectors).1.Nodup :=
  (nodup_distinct vectors).filter _

theorem claim_sublist (ledger : RequestLedger) (peer : PeerId)
    (vectors : List InventoryVector) :
    (ledger.claim peer vectors).1.Sublist vectors :=
  List.filter_sublist.trans (distinct_sublist vectors)

theorem owner?_claim (ledger : RequestLedger) (peer : PeerId)
    (vectors : List InventoryVector) (vector : InventoryVector) :
    (ledger.claim peer vectors).2.owner? vector =
      if vector ∈ (ledger.claim peer vectors).1 then some peer
      else ledger.owner? vector :=
  getElem?_foldl_insert _ peer ledger.owners vector

theorem owner?_complete (ledger : RequestLedger)
    (done vector : InventoryVector) :
    (ledger.complete done).owner? vector =
      if done = vector then none else ledger.owner? vector := by
  simp [complete, owner?, Std.HashMap.getElem?_erase]

theorem owner?_release (ledger : RequestLedger) (peer : PeerId)
    (vectors : List InventoryVector) (vector : InventoryVector) :
    (ledger.release peer vectors).owner? vector =
      if vector ∈ vectors ∧ ledger.owner? vector = some peer then none
      else ledger.owner? vector := by
  obtain ⟨owners⟩ := ledger
  induction vectors generalizing owners with
  | nil => simp [release, owner?]
  | cons first rest ih =>
      have hstep := ih
        (if owners[first]? = some peer then owners.erase first else owners)
      have hcons : (release ⟨owners⟩ peer (first :: rest)) =
          release ⟨if owners[first]? = some peer then owners.erase first
            else owners⟩ peer rest := rfl
      rw [hcons, hstep]
      by_cases hown : owners[first]? = some peer
      · by_cases hfirst : first = vector
        · subst hfirst
          simp [owner?, hown]
        · have hne : ¬ vector = first := fun h => hfirst h.symm
          simp [owner?, hown, hfirst, hne, Std.HashMap.getElem?_erase]
      · by_cases hfirst : first = vector
        · subst hfirst
          simp [owner?, hown]
        · have hne : ¬ vector = first := fun h => hfirst h.symm
          simp [owner?, hown, hne]

end RequestLedger

end ObjectRelay
