import ObjectRelay.Proofs.Peer.Table
import ObjectRelay.Proofs.Service.Offers
import ObjectRelay.Proofs.Work.Engine

namespace ObjectRelay.Service

variable {service : Service} {moment : Moment} {object : Object}
  {vector : InventoryVector}

/-- The object is held, and a nonce that was kept for it is not. -/
def storing (service : Service) (vector : InventoryVector) (object : Object) :
    Service :=
  { service with
    node :=
      { service.node with engine := service.node.engine.forget object }.store
        vector object }

theorem publish_of_error {failure : ServiceError}
    (h : checkObject service.node moment.clock object = .error failure) :
    service.publish moment object = (.error failure, service) := by
  rw [publish, h]

theorem publish_of_ok
    (h : checkObject service.node moment.clock object = .ok vector) :
    service.publish moment object =
      (.ok vector,
        if service.node.inventory.contains vector
          then service.storing vector object
        else (service.storing vector object).announce moment vector
          object.stream none) := by
  rw [publish, h]
  dsimp only
  cases service.node.inventory.contains vector <;> rfl

theorem checkObject_of_publish
    (h : checkObject service.node moment.clock object = .ok vector)
    (clock : Int64) :
    checkObject (service.publish moment object).2.node clock object =
      checkObject service.node clock object := by
  rw [node_publish, Node.publish, h]
  rfl

theorem getElem?_nonces_publish
    (h : checkObject service.node moment.clock object = .ok vector) :
    (service.publish moment object).2.node.engine.nonces[
      object.initialHash service.node.hasher]? = none := by
  rw [node_publish, Node.publish, h]
  show (service.node.engine.forget object).nonces[_]? = none
  rw [WorkEngine.getElem?_forget]
  exact if_pos rfl

theorem hasher_publish (service : Service) (moment : Moment) (object : Object) :
    (service.publish moment object).2.node.hasher = service.node.hasher := by
  rw [node_publish]
  exact Node.hasher_work service.node (.publish moment.clock object)

theorem get?_publish_of_ne
    (h : checkObject service.node moment.clock object = .ok vector)
    {other : InventoryVector} (hother : other ≠ vector) :
    (service.publish moment object).2.node.inventory.get? other =
      service.node.inventory.get? other := by
  rw [node_publish, Node.publish_of_ok h, Inventory.get?_store_of_ne hother]

/-- Where the object is held and no nonce is kept for it, publishing leaves
everything as it is. -/
theorem publish_of_settled
    (h : checkObject service.node moment.clock object = .ok vector)
    (hheld : service.node.inventory.contains vector = true)
    (hforgotten : service.node.engine.nonces[object.initialHash
      service.node.hasher]? = none) :
    service.publish moment object = (.ok vector, service) := by
  have hstoring : service.storing vector object = service := by
    have hforget : service.node.engine.forget object = service.node.engine :=
      WorkEngine.forget_of_forgotten hforgotten
    rw [storing, Node.store, hforget, Inventory.store_of_contains hheld]
  rw [publish_of_ok h, if_pos hheld, hstoring]

theorem publish_again
    (h : checkObject service.node moment.clock object = .ok vector)
    {again : Moment}
    (hagain : (checkObject (service.publish moment object).2.node again.clock
      object).isOk = true) :
    (service.publish moment object).2.publish again object =
      (.ok vector, (service.publish moment object).2) := by
  have hhasher := hasher_publish service moment object
  have hforgotten := getElem?_nonces_publish h
  have hheld : (service.publish moment object).2.node.inventory.contains
      vector = true := by
    rw [Inventory.contains_eq, get?_publish (by rw [publish_of_ok h])]
    rfl
  cases hchecked :
    checkObject (service.publish moment object).2.node again.clock object with
  | error failure =>
      rw [hchecked] at hagain
      cases hagain
  | ok same =>
      obtain ⟨-, -, hvector⟩ := checkObject_eq_ok_iff.mp h
      obtain ⟨-, -, hsame⟩ := checkObject_eq_ok_iff.mp hchecked
      rw [hhasher, hvector] at hsame
      cases hsame
      exact publish_of_settled hchecked hheld (hhasher ▸ hforgotten)

/-- Those who are told of an object that was not held are told once. -/
theorem exists_told
    (h : checkObject service.node moment.clock object = .ok vector) :
    ∃ told : List PeerId, told.Nodup ∧ told.length ≤ Fanout.mostOffers ∧
      (∀ id ∈ told, ∃ peer, service.peers.get? id = some peer ∧
        peer.info.lifecycle = .active ∧ object.stream ∈ peer.info.streams ∧
        (service.publish moment object).2.peers.queue id =
          service.peers.queue id ++ [.offer vector]) ∧
      ∀ id, id ∉ told →
        (service.publish moment object).2.peers.queue id =
          service.peers.queue id := by
  rw [publish_of_ok h]
  by_cases hheld : service.node.inventory.contains vector = true
  · refine ⟨[], List.nodup_nil, Nat.zero_le _, by simp, fun id _ => ?_⟩
    rw [if_pos hheld]
    rfl
  · rw [if_neg hheld]
    let chosen := service.peers.targets moment.shuffle moment.instant vector
      object.stream none
    have hchosen : chosen.Nodup := PeerTable.nodup_targets _ _ _ _ _ _
    have hlength : chosen.length ≤ Fanout.mostOffers := List.length_take_le _ _
    have hqueue : ∀ id,
        ((service.storing vector object).announce moment vector object.stream
        none).peers.queue id =
          if id ∈ chosen ∧ service.peers.hasRoom id = true then
            service.peers.queue id ++ [.offer vector]
          else service.peers.queue id :=
      PeerTable.queue_announce service.peers _ _ _ _ _
    refine ⟨chosen.filter service.peers.hasRoom, hchosen.filter _,
      Nat.le_trans (List.length_filter_le _ _) hlength, ?_, ?_⟩
    · intro id hid
      obtain ⟨hmem, hroom⟩ := List.mem_filter.mp hid
      obtain ⟨-, peer, hpeer, hlacks⟩ := PeerTable.awaits_of_mem_targets hmem
      refine ⟨peer, hpeer, hlacks.active, hlacks.shares, ?_⟩
      rw [hqueue, if_pos ⟨hmem, hroom⟩]
    · intro id hid
      rw [hqueue, if_neg fun htold => hid (List.mem_filter.mpr htold)]

/-- Publishing fails and leaves everything as it is, or the object is held, no
nonce is kept for it and a few active peers that share its stream are told of it
once each.  Publishing it once more, while it still passes the check, leaves
everything as it is. -/
theorem publish_atomic_and_idempotent (service : Service) (moment : Moment)
    (object : Object) :
    let published := service.publish moment object
    let after := published.2
    (∀ failure, published.1 = .error failure → after = service) ∧
    ∀ vector, published.1 = .ok vector →
      object.vector service.node.hasher = .ok vector ∧
      after.node.inventory.get? vector =
        some ((service.node.inventory.get? vector).getD object) ∧
      (∀ other, other ≠ vector →
        after.node.inventory.get? other = service.node.inventory.get? other) ∧
      after.node.engine.nonces[object.initialHash service.node.hasher]? = none ∧
      (∃ told : List PeerId, told.Nodup ∧ told.length ≤ Fanout.mostOffers ∧
        (∀ id ∈ told, ∃ peer, service.peers.get? id = some peer ∧
          peer.info.lifecycle = .active ∧ object.stream ∈ peer.info.streams ∧
          after.peers.queue id = service.peers.queue id ++ [.offer vector]) ∧
        ∀ id, id ∉ told → after.peers.queue id = service.peers.queue id) ∧
      ∀ again : Moment,
        (checkObject after.node again.clock object).isOk = true →
        after.publish again object = (.ok vector, after) := by
  intro published after
  refine ⟨?_, ?_⟩
  · intro failure hfailure
    have hcheck := (publish_eq service moment object).symm.trans hfailure
    exact congrArg Prod.snd (publish_of_error hcheck)
  · intro vector hpublished
    have hcheck := (publish_eq service moment object).symm.trans hpublished
    obtain ⟨-, -, hvector⟩ := checkObject_eq_ok_iff.mp hcheck
    exact ⟨hvector, get?_publish hpublished,
      fun other => get?_publish_of_ne hcheck,
      getElem?_nonces_publish hcheck, exists_told hcheck,
      fun again => publish_again hcheck⟩

/-- One peer may be told of the object, as long as it is in time. -/
theorem onePeerService_publish_atomic_and_idempotent :
    let published := onePeerService.publish Hub.plainMoment Hub.plainObject
    published.1 = .ok (.ofNat 32 0) ∧
      published.2.node.inventory.get? (.ofNat 32 0) = some Hub.plainObject ∧
      published.2.publish Hub.plainMoment Hub.plainObject =
        (.ok (.ofNat 32 0), published.2) ∧
      (onePeerService.publish ⟨0, 10801, .none⟩ Hub.plainObject).2 =
        onePeerService := by
  intro published
  have hcheck : checkObject onePeerService.node Hub.plainMoment.clock
      Hub.plainObject = .ok (.ofNat 32 0) := rfl
  have hnew : onePeerService.node.inventory.get? (.ofNat 32 0) = none := by
    simp [onePeerService, plainService, Hub.plainNode, Inventory.get?]
  have hpublished : published.1 = .ok (.ofNat 32 0) :=
    (publish_eq onePeerService _ _).trans hcheck
  have hstill : (checkObject published.2.node Hub.plainMoment.clock
      Hub.plainObject).isOk = true := by
    rw [checkObject_of_publish hcheck, hcheck]
    rfl
  obtain ⟨-, hsucceeds⟩ :=
    publish_atomic_and_idempotent onePeerService Hub.plainMoment Hub.plainObject
  obtain ⟨-, hheld, -, -, -, hagain⟩ := hsucceeds (.ofNat 32 0) hpublished
  rw [hnew] at hheld
  obtain ⟨hfails, -⟩ := publish_atomic_and_idempotent onePeerService ⟨0, 10801,
    .none⟩ Hub.plainObject
  exact ⟨hpublished, hheld, hagain Hub.plainMoment hstill,
    hfails (.untimely (.expired 10801)) (publish_eq onePeerService _ _)⟩

end ObjectRelay.Service
