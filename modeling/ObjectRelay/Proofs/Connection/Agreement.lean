import ObjectRelay.Proofs.Connection.Effect
import ObjectRelay.Proofs.Gossip.RequestLedger

namespace ObjectRelay

namespace Link

/-- What the ledger says of the connection is what the connection awaits. -/
def Agrees (link : Link) : Prop :=
  ∀ vector, link.node.requests.owner? vector = some link.connection.id ↔
    link.connection.outstanding.contains vector = true

/-- The connection still agrees with the ledger, which says of others what it
said before. -/
structure Keeps (before after : Link) : Prop where
  id : after.connection.id = before.connection.id
  agrees : after.Agrees
  others : ∀ vector peer, peer ≠ before.connection.id →
    (after.node.requests.owner? vector = some peer ↔
      before.node.requests.owner? vector = some peer)

variable {before after : Link}

theorem mem_asked {link : Link} {wanted : List InventoryVector}
    {vector : InventoryVector} :
    vector ∈ link.asked wanted ↔
      vector ∈ wanted ∧ link.node.requests.owner? vector = none :=
  RequestLedger.mem_claim

theorem nodup_asked (link : Link) (wanted : List InventoryVector) :
    (link.asked wanted).Nodup :=
  RequestLedger.nodup_claim _ _ _

theorem length_asked_le (link : Link) (wanted : List InventoryVector) :
    (link.asked wanted).length ≤ wanted.length :=
  (RequestLedger.claim_sublist _ _ _).length_le

theorem Asks.owner? {wanted : List InventoryVector} {now : Nat}
    (h : Asks wanted now before after) (vector : InventoryVector) :
    after.node.requests.owner? vector =
      if vector ∈ before.asked wanted then some before.connection.id
      else before.node.requests.owner? vector := by
  rw [h.requests]
  exact RequestLedger.owner?_claim _ _ _ _

theorem Releases.owner? (h : Releases before after) (vector : InventoryVector) :
    after.node.requests.owner? vector =
      if vector ∈ before.connection.outstanding.toList ∧
          before.node.requests.owner? vector = some before.connection.id
            then none
      else before.node.requests.owner? vector := by
  rw [h.requests]
  exact RequestLedger.owner?_release _ _ _ _

theorem keeps_of_stock_eq (h : before.Agrees)
    (hstock : after.stock = before.stock) :
    Keeps before after := by
  have hid : after.connection.id = before.connection.id :=
    congrArg Stock.id hstock
  have hrequests : after.node.requests = before.node.requests :=
    congrArg Stock.requests hstock
  have houtstanding : after.connection.outstanding =
      before.connection.outstanding :=
    congrArg Stock.outstanding hstock
  refine ⟨hid, ?_, ?_⟩
  · intro vector
    rw [hid, hrequests, houtstanding]
    exact h vector
  · intro vector peer _
    rw [hrequests]

theorem Asks.keeps {wanted : List InventoryVector} {now : Nat}
    (h : before.Agrees) (hasks : Asks wanted now before after) :
    Keeps before after := by
  have hid : after.connection.id = before.connection.id :=
    congrArg Stock.id hasks.stock
  refine ⟨hid, ?_, ?_⟩
  · intro vector
    rw [hid, hasks.owner?, hasks.outstanding,
      Std.HashSet.contains_insertMany_list]
    by_cases hasked : vector ∈ before.asked wanted
    · simp [hasked]
    · simpa [hasked] using h vector
  · intro vector peer hpeer
    rw [hasks.owner?]
    by_cases hasked : vector ∈ before.asked wanted
    · simp [hasked, (mem_asked.mp hasked).2, hpeer.symm]
    · rw [if_neg hasked]

theorem Delivers.keeps {moment : Moment} {done : InventoryVector}
    {object : Object} (h : before.Agrees)
    (hdelivers : Delivers moment done object before after) :
    Keeps before after := by
  have hid : after.connection.id = before.connection.id :=
    congrArg Stock.id hdelivers.stock
  have hrequests := hdelivers.requests
  have houtstanding := hdelivers.outstanding
  by_cases hawaited : before.connection.outstanding.contains done = true
  · rw [if_pos hawaited] at hrequests houtstanding
    have hdone : before.node.requests.owner? done = some before.connection.id :=
      (h done).mpr hawaited
    refine ⟨hid, ?_, ?_⟩
    · intro vector
      rw [hid, hrequests, houtstanding, RequestLedger.owner?_complete,
        Std.HashSet.contains_erase]
      by_cases hsame : done = vector
      · simp [hsame]
      · simpa [hsame] using h vector
    · intro vector peer hpeer
      rw [hrequests, RequestLedger.owner?_complete]
      by_cases hsame : done = vector
      · subst hsame
        simp [hdone, hpeer.symm]
      · rw [if_neg hsame]
  · rw [if_neg hawaited] at hrequests houtstanding
    refine ⟨hid, ?_, ?_⟩
    · intro vector
      rw [hid, hrequests, houtstanding]
      exact h vector
    · intro vector peer _
      rw [hrequests]

theorem Releases.keeps (h : before.Agrees) (hreleases : Releases before after) :
    Keeps before after := by
  have hid : after.connection.id = before.connection.id :=
    congrArg Stock.id hreleases.stock
  refine ⟨hid, ?_, ?_⟩
  · intro vector
    rw [hid, hreleases.owner?, hreleases.outstanding]
    by_cases hown : before.node.requests.owner? vector =
      some before.connection.id
    · have hmem : vector ∈ before.connection.outstanding.toList :=
        Std.HashSet.mem_toList.mpr ((h vector).mp hown)
      simp [hown, hmem]
    · simp [hown]
  · intro vector peer hpeer
    rw [hreleases.owner?]
    split
    · rename_i hreleased
      simp [hreleased.2, hpeer.symm]
    · exact Iff.rfl

theorem keeps_perform {link : Link} (h : link.Agrees) (action : Action) :
    Keeps link (link.perform action) := by
  cases effect_perform link action with
  | speech hspeech => exact keeps_of_stock_eq h hspeech.stock
  | announced hactive hasks => exact hasks.keeps h
  | takenOver hactive hasks => exact hasks.keeps h
  | delivered hactive hvector hdelivers => exact hdelivers.keeps h
  | released hreleases => exact hreleases.keeps h

/-- The ledger holds what the connection awaits, and nothing else. -/
structure Alone (link : Link) : Prop where
  agrees : link.Agrees
  others : ∀ vector peer, link.node.requests.owner? vector = some peer →
    peer = link.connection.id

theorem Alone.isRequested_eq {link : Link} (h : link.Alone)
    (vector : InventoryVector) :
    link.node.requests.isRequested vector =
      link.connection.outstanding.contains vector := by
  rw [RequestLedger.isRequested_eq, Bool.eq_iff_iff, Option.isSome_iff_exists,
    ← h.agrees]
  constructor
  · rintro ⟨peer, howner⟩
    rwa [h.others vector peer howner] at howner
  · exact fun howner => ⟨_, howner⟩

theorem alone_perform {link : Link} (h : link.Alone) (action : Action) :
    (link.perform action).Alone := by
  have hkeeps := keeps_perform h.agrees action
  refine ⟨hkeeps.agrees, fun vector peer howner => ?_⟩
  by_contra hpeer
  rw [hkeeps.id] at hpeer
  exact hpeer
    (h.others vector peer ((hkeeps.others vector peer hpeer).mp howner))

end Link

end ObjectRelay
