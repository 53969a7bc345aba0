import ObjectRelay.Proofs.Inventory
import ObjectRelay.Service.Basic

namespace ObjectRelay

/-- The object has not expired too long ago, does not live too long, and its
work is done. -/
structure Node.Approves (node : Node) (clock : Int64) (object : Object) :
    Prop where
  expiry : object.expiryViolation? clock = none
  work : node.engine.checkWork object clock = .ok ()

theorem isOk_eq_true_iff {ε : Type} {result : Except ε Unit} :
    result.isOk = true ↔ result = .ok () := by
  cases result with
  | error failure => simp [Except.isOk, Except.toBool]
  | ok value => simp [Except.isOk, Except.toBool]

theorem Node.accepts_iff {node : Node} {clock : Int64}
    {vector : InventoryVector} {object : Object} :
    node.accepts clock vector object = true ↔
      node.inventory.get? vector = none ∧
        node.profile.streams.contains object.stream = true ∧
        node.Approves clock object := by
  simp only [accepts, Bool.and_eq_true, Bool.not_eq_true',
    Inventory.contains_eq_false_iff, Option.isNone_iff_eq_none,
    isOk_eq_true_iff]
  constructor
  · rintro ⟨⟨⟨hnew, hstream⟩, hexpiry⟩, hwork⟩
    exact ⟨hnew, hstream, hexpiry, hwork⟩
  · rintro ⟨hnew, hstream, hexpiry, hwork⟩
    exact ⟨⟨⟨hnew, hstream⟩, hexpiry⟩, hwork⟩

theorem Service.checkObject_eq_ok_iff {node : Node} {clock : Int64}
    {vector : InventoryVector} {object : Object} :
    checkObject node clock object = .ok vector ↔
      node.profile.streams.contains object.stream = true ∧
        node.Approves clock object ∧
        object.vector node.hasher = .ok vector := by
  unfold checkObject
  by_cases hstream : node.profile.streams.contains object.stream = true
  · rw [hstream]
    cases hexpiry : object.expiryViolation? clock with
    | some violation =>
        have hrefused : ¬ node.Approves clock object := fun happroved => by
          rw [happroved.expiry] at hexpiry
          cases hexpiry
        simp [hrefused]
    | none =>
        cases hwork : node.engine.checkWork object clock with
        | error failure =>
            have hrefused : ¬ node.Approves clock object := fun happroved => by
              rw [happroved.work] at hwork
              cases hwork
            simp [hrefused, Except.mapError, bind, Except.bind]
        | ok value =>
            have happroved : node.Approves clock object := ⟨hexpiry, hwork⟩
            cases hvector : object.vector node.hasher <;>
              simp [happroved, Except.mapError, bind, Except.bind]
  · rw [Bool.not_eq_true] at hstream
    rw [hstream]
    simp

theorem Object.isSome_nonce?_of_vector {hasher : Hasher} {object : Object}
    {vector : InventoryVector} (h : object.vector hasher = .ok vector) :
    object.nonce?.isSome = true := by
  unfold Object.vector Object.write at h
  cases hnonce : object.nonce? with
  | none =>
      rw [hnonce] at h
      cases h
  | some nonce => rfl

/-- The object is finished, stands under its own vector and is in a stream that
the node serves. -/
structure Node.Suits (node : Node) (vector : InventoryVector)
    (object : Object) : Prop where
  nonce : object.nonce?.isSome = true
  named : object.vector node.hasher = .ok vector
  stream : node.profile.streams.contains object.stream = true

theorem Node.Suits.congr {node other : Node} {vector : InventoryVector}
    {object : Object} (h : node.Suits vector object)
    (hhasher : other.hasher = node.hasher)
    (hprofile : other.profile = node.profile) : other.Suits vector object :=
  ⟨h.nonce, hhasher ▸ h.named, hprofile ▸ h.stream⟩

def Node.Intact (node : Node) : Prop :=
  ∀ vector object, node.inventory.get? vector = some object →
    node.Suits vector object

end ObjectRelay
