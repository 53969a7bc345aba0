import ObjectRelay.Proofs.Hub.Asking
import ObjectRelay.Proofs.Hub.Refetch

namespace ObjectRelay

/-! A connection ends, and what it awaited goes to others of the same node: to
each what its peer is known to have, if nobody was quicker. -/

namespace KnownVectors

variable {known : KnownVectors} {vectors : List InventoryVector} {now : Nat}
  {vector : InventoryVector}

/-- Looking vectors up drops nothing that is still known at that time. -/
theorem exists_seen_knownOf_iff :
    (∃ seen, (known.knownOf vectors now).2.seen[vector]? = some seen ∧
      now - seen ≤ (known.knownOf vectors now).2.lifetime) ↔
        ∃ seen, known.seen[vector]? = some seen ∧
          now - seen ≤ known.lifetime := by
  cases vectors with
  | nil => exact Iff.rfl
  | cons first rest =>
      show (∃ seen, (known.purge now).seen[vector]? = some seen ∧
        now - seen ≤ known.lifetime) ↔ _
      simp only [purge, Std.HashMap.getElem?_filter', Option.filter_eq_some_iff,
        decide_eq_true_eq, and_assoc, and_self]

end KnownVectors

namespace Link

variable {link : Link} {moment : Moment} {handed : List InventoryVector}
  {vector : InventoryVector}

theorem recalls_reassign_iff (hactive : link.connection.isActive = true) :
    (link.perform (.reassign moment handed)).Recalls moment.instant vector ↔
      link.Recalls moment.instant vector := by
  have hknown : (link.perform (.reassign moment handed)).connection.known =
      (link.connection.known.knownOf handed moment.instant).2 := by
    rw [perform, reassign, if_pos hactive]
    dsimp only [Connection.request]
    split <;> rfl
  rw [Recalls, hknown]
  exact KnownVectors.exists_seen_knownOf_iff

theorem isActive_reassign (hactive : link.connection.isActive = true) :
    (link.perform (.reassign moment handed)).connection.isActive = true := by
  rw [perform, reassign, if_pos hactive, Connection.isActive, phase_request]
  exact hactive

end Link

namespace Hub

/-- The connection is closed, and lets go of what it awaits. -/
def depart (hub : Hub) (id : PeerId) (reason : DisconnectReason) : Hub :=
  hub.run [.act id (.disconnect reason), .act id .release]

/-- The heirs take over what they can, in their order, all at one time. -/
def takeovers (moment : Moment) (handed : List InventoryVector)
    (heirs : List PeerId) : List Step :=
  heirs.map fun heir => .act heir (.reassign moment handed)

def Recalls (hub : Hub) (id : PeerId) (now : Nat)
    (vector : InventoryVector) : Prop :=
  ∃ link, hub.link? id = some link ∧ link.Recalls now vector

/-- The vector was handed over, and the peer has it. -/
def Inherits (hub : Hub) (now : Nat) (handed : List InventoryVector)
    (id : PeerId) (_ : Action) (vector : InventoryVector) : Prop :=
  vector ∈ handed ∧ hub.Recalls id now vector

variable {hub : Hub} {id heir : PeerId} {link leaver : Link} {moment : Moment}
  {handed : List InventoryVector} {heirs : List PeerId}
  {vector : InventoryVector} {reason : DisconnectReason}

theorem recalls_iff {now : Nat} (hlink : hub.link? id = some link) :
    hub.Recalls id now vector ↔ link.Recalls now vector := by
  simp [Recalls, hlink]

theorem exists_inherits_iff {now : Nat} :
    (∃ id action, .act id action ∈ takeovers moment handed heirs ∧
      hub.Inherits now handed id action vector) ↔
        vector ∈ handed ∧ ∃ heir ∈ heirs, hub.Recalls heir now vector := by
  constructor
  · rintro ⟨id, action, hmem, hhanded, hrecalls⟩
    obtain ⟨heir, hheir, hsame⟩ := List.mem_map.mp hmem
    cases hsame
    exact ⟨hhanded, id, hheir, hrecalls⟩
  · rintro ⟨hhanded, heir, hheir, hrecalls⟩
    exact ⟨heir, _, List.mem_map.mpr ⟨heir, hheir, rfl⟩, hhanded, hrecalls⟩

theorem exists_link?_reassign {heirLink : Link}
    (hheir : hub.link? heir = some heirLink)
    (hactive : heirLink.connection.isActive = true)
    (hlink : hub.link? id = some link) :
    ∃ after, (hub.step (.act heir (.reassign moment handed))).link? id =
      some after ∧
      after.connection.isActive = link.connection.isActive ∧
      ∀ vector, after.Recalls moment.instant vector ↔
        link.Recalls moment.instant vector := by
  have hname := heirLink.id_perform (.reassign moment handed)
  rw [step_act hheir]
  by_cases hsame : id = heir
  · subst hsame
    rw [hheir, Option.some_inj] at hlink
    subst hlink
    exact ⟨_, link?_put_self hheir hname,
      (Link.isActive_reassign hactive).trans hactive.symm,
      fun vector => Link.recalls_reassign_iff hactive⟩
  · exact ⟨_, link?_put_other hheir hname hlink hsame, rfl,
      fun vector => Iff.rfl⟩

theorem asking_takeovers {before : Hub}
    (h : ∀ heir ∈ heirs, ∃ link, hub.link? heir = some link ∧
      link.connection.isActive = true ∧
      ∀ vector, link.Recalls moment.instant vector ↔
        before.Recalls heir moment.instant vector) :
    Asking (before.Inherits moment.instant handed) hub
      (takeovers moment handed heirs) := by
  induction heirs generalizing hub with
  | nil => exact .nil
  | cons heir rest ih =>
      obtain ⟨link, hlink, hactive, hrecalls⟩ := h heir List.mem_cons_self
      refine .cons hlink (Link.asks_reassign link moment handed hactive)
        ?_ (ih ?_)
      · intro vector
        rw [KnownVectors.mem_knownOf]
        exact and_congr_right' (hrecalls vector)
      · intro other hother
        obtain ⟨old, hold, holdActive, holdRecalls⟩ :=
          h other (List.mem_cons_of_mem _ hother)
        obtain ⟨after, hafter, hsame, hkept⟩ :=
          exists_link?_reassign hlink hactive hold
        exact ⟨after, hafter, hsame.trans holdActive, fun vector =>
          (hkept vector).trans (holdRecalls vector)⟩

theorem link?_depart (hleaver : hub.link? id = some leaver)
    (hlink : hub.link? heir = some link) (hother : heir ≠ id)
    (reason : DisconnectReason) :
    ∃ after, (hub.depart id reason).link? heir = some after ∧
      after.connection = link.connection := by
  have hclosed :=
    link?_put_self hleaver (leaver.id_perform (.disconnect reason))
  have hstays := link?_put_other hleaver
    (leaver.id_perform (.disconnect reason)) hlink hother
  rw [depart, run_cons, run_cons, run_nil, step_act hleaver, step_act hclosed]
  exact ⟨_, link?_put_other hclosed (Link.id_perform _ .release) hstays hother,
    rfl⟩

theorem recalls_depart_iff {now : Nat} (hleaver : hub.link? id = some leaver)
    (hlink : hub.link? heir = some link) (hother : heir ≠ id) :
    (hub.depart id reason).Recalls heir now vector ↔
    hub.Recalls heir now vector := by
  obtain ⟨after, hafter, hsame⟩ := link?_depart hleaver hlink hother reason
  rw [recalls_iff hafter, recalls_iff hlink, Link.Recalls, hsame]
  rfl

theorem owner?_depart (hbalanced : hub.Balanced)
    (hleaver : hub.link? id = some leaver)
    (hreleased : vector ∈ (leaver.disconnect reason).release.1) :
    (hub.depart id reason).node.requests.owner? vector = none := by
  have hclosed :=
    link?_put_self hleaver (leaver.id_perform (.disconnect reason))
  have hagrees := (hbalanced.step (.act id (.disconnect reason))).agrees
    ((congrArg (·.link? id) (step_act hleaver _)).trans hclosed)
  have howner := (hagrees vector).mpr (Std.HashSet.mem_toList.mp hreleased)
  rw [depart, run_cons, run_cons, run_nil, step_act hleaver, step_act hclosed]
  show (leaver.perform (.disconnect reason)).release.2.node.requests.owner?
    vector = none
  rw [(Link.releases_release _).owner?, if_pos ⟨hreleased, howner⟩]

theorem asking_depart (hleaver : hub.link? id = some leaver)
    (reason : DisconnectReason) (hheirs : ∀ heir ∈ heirs, heir ≠ id ∧
      ∃ link, hub.link? heir = some link ∧ link.connection.isActive = true)
    (moment : Moment) (handed : List InventoryVector) :
    Asking (hub.Inherits moment.instant handed) (hub.depart id reason)
      (takeovers moment handed heirs) := by
  refine asking_takeovers fun heir hheir => ?_
  obtain ⟨hother, link, hlink, hactive⟩ := hheirs heir hheir
  obtain ⟨after, hafter, hsame⟩ := link?_depart hleaver hlink hother reason
  refine ⟨after, hafter, hsame ▸ hactive, fun vector => ?_⟩
  rw [← recalls_iff hafter]
  exact recalls_depart_iff hleaver hlink hother

/-- What a connection awaits when it ends, whether or not the node holds it by
now, goes over to others.  A vector that one of them is known to have is awaited
by exactly one of them from then on, whose peer is asked for it in one message,
once; a vector that none is known to have is free.  Nothing else is asked for,
and what is taken over is the same in whatever order they take over. -/
theorem released_taken_over_once (hub : Hub) (hbalanced : hub.Balanced)
    {id : PeerId} {leaver : Link} (hleaver : hub.link? id = some leaver)
    (reason : DisconnectReason) {handed : List InventoryVector}
    (hhanded : handed.Perm (leaver.disconnect reason).release.1)
    (heirs : List PeerId) (hheirs : ∀ heir ∈ heirs, heir ≠ id ∧
      ∃ link, hub.link? heir = some link ∧ link.connection.isActive = true)
    (moment : Moment) :
    (∀ vector ∈ handed,
      (∃ heir ∈ heirs, hub.Recalls heir moment.instant vector) →
      ∃ taker ∈ ((hub.depart id reason).run
        (takeovers moment handed heirs)).connections, taker.id ∈ heirs ∧
        (∀ connection ∈
          ((hub.depart id reason).run
            (takeovers moment handed heirs)).connections,
          connection.outstanding.contains vector = true ↔ connection = taker) ∧
        ∃ vectors, (hub.depart id reason).requestsFor
          (takeovers moment handed heirs) vector =
          [(taker.id, .getdata vectors)] ∧ vectors.count vector = 1) ∧
    (∀ vector ∈ handed,
      (∀ heir ∈ heirs, ¬ hub.Recalls heir moment.instant vector) →
      (hub.depart id reason).requestsFor (takeovers moment handed heirs)
        vector = [] ∧
      ((hub.depart id reason).run
        (takeovers moment handed heirs)).node.requests.owner? vector = none ∧
      ∀ connection ∈
        ((hub.depart id reason).run
          (takeovers moment handed heirs)).connections,
        connection.outstanding.contains vector = false) ∧
    (∀ vector, vector ∉ handed →
      (hub.depart id reason).requestsFor (takeovers moment handed heirs)
        vector = []) ∧
    ∀ other : List PeerId, other.Perm heirs → ∀ vector,
      (hub.depart id reason).requestsFor (takeovers moment handed other)
        vector = [] ↔
        (hub.depart id reason).requestsFor (takeovers moment handed heirs)
          vector = [] := by
  have hasking := asking_depart hleaver reason hheirs moment handed
  have hfree : ∀ vector ∈ handed,
      (hub.depart id reason).node.requests.owner? vector = none :=
    fun vector hmem => owner?_depart hbalanced hleaver (hhanded.mem_iff.mp hmem)
  have hafter :
      ((hub.depart id reason).run (takeovers moment handed heirs)).Balanced :=
    (hbalanced.run _).run _
  refine ⟨?_, ?_, ?_, ?_⟩
  · intro vector hmem hknown
    obtain ⟨heir, action, vectors, hstep, -, hone, hcount, howner⟩ :=
      hasking.settle (hfree vector hmem)
        (exists_inherits_iff.mpr ⟨hmem, hknown⟩)
    obtain ⟨taker, htaker, rfl, hawaits⟩ := (hafter vector heir).mp howner
    obtain ⟨same, hsame, hnamed⟩ := List.mem_map.mp hstep
    cases hnamed
    refine ⟨taker, htaker, hsame,
      fun connection hconnection => ⟨fun hother => ?_, ?_⟩, vectors,
      hone, hcount⟩
    · exact hafter.eq_of_outstanding hconnection htaker hother hawaits
    · rintro rfl
      exact hawaits
  · intro vector hmem hunknown
    have hunwanted : ∀ heir action,
        .act heir action ∈ takeovers moment handed heirs →
        ¬ hub.Inherits moment.instant handed heir action vector := by
      intro heir action hstep hinherits
      obtain ⟨-, other, hother, hrecalls⟩ :=
        exists_inherits_iff.mp ⟨heir, action, hstep, hinherits⟩
      exact hunknown other hother hrecalls
    have hpassed := hasking.pass (.inr hunwanted)
    have howner := hpassed.2.trans (hfree vector hmem)
    exact ⟨hpassed.1, howner, hafter.owner?_eq_none_iff.mp howner⟩
  · intro vector hmem
    exact (hasking.pass (.inr fun heir action _ hinherits =>
      hmem hinherits.1)).1
  · intro other hperm vector
    have hother := asking_depart hleaver reason
      (fun heir hheir => hheirs heir (hperm.subset hheir)) moment handed
    rw [hother.requestsFor_eq_nil_iff, hasking.requestsFor_eq_nil_iff,
      exists_inherits_iff, exists_inherits_iff]
    have hknown : (∃ heir ∈ other, hub.Recalls heir moment.instant vector) ↔
        ∃ heir ∈ heirs, hub.Recalls heir moment.instant vector :=
      exists_congr fun heir => and_congr_left' hperm.mem_iff
    rw [hknown]

def awaitingPeer : Connection :=
  { Connection.opened 0 .client plainRemote 0 with
    phase := .active
    outstanding := (∅ : Std.HashSet InventoryVector).insert (.ofNat 32 0) }

def knowingPeer (id : PeerId) : Connection :=
  { Connection.opened id .server plainRemote 0 with
    phase := .active
    known := ({} : KnownVectors).insert (.ofNat 32 0) 0 }

def oneAwaitsTwoKnow : Hub where
  node := { plainNode with
    requests :=
      ⟨(∅ : Std.HashMap InventoryVector PeerId).insert (.ofNat 32 0) 0⟩ }
  connections := [awaitingPeer, knowingPeer 1, knowingPeer 2]
  nodup_ids := by decide

theorem owner?_oneAwaitsTwoKnow (vector : InventoryVector) :
    oneAwaitsTwoKnow.node.requests.owner? vector = if .ofNat 32 0 =
      vector then some 0 else none := by
  simp [oneAwaitsTwoKnow, RequestLedger.owner?, Std.HashMap.getElem?_insert]

theorem balanced_oneAwaitsTwoKnow : oneAwaitsTwoKnow.Balanced := by
  intro vector peer
  rw [owner?_oneAwaitsTwoKnow]
  by_cases hsame : .ofNat 32 0 = vector
  · simp [hsame, oneAwaitsTwoKnow, awaitingPeer, knowingPeer, Connection.opened]
  · simp [hsame, oneAwaitsTwoKnow, awaitingPeer, knowingPeer, Connection.opened]

theorem recalls_oneAwaitsTwoKnow : oneAwaitsTwoKnow.Recalls 1 0 (.ofNat 32 0) :=
  ⟨⟨oneAwaitsTwoKnow.node, knowingPeer 1⟩, rfl, 0,
    Std.HashMap.getElem?_insert_self, Nat.zero_le _⟩

theorem released_oneAwaitsTwoKnow :
    .ofNat 32 0 ∈ ((⟨oneAwaitsTwoKnow.node, awaitingPeer⟩ : Link).disconnect
      .closedByPeer).release.1 := by
  refine Std.HashSet.mem_toList.mpr ?_
  simp [Link.disconnect, Connection.disconnect, awaitingPeer, Connection.opened]

/-- The one leaves, and one of the two others is asked instead. -/
theorem oneAwaitsTwoKnow_takes_over_once :
    oneAwaitsTwoKnow.Balanced ∧
      oneAwaitsTwoKnow.link? 0 = some ⟨oneAwaitsTwoKnow.node, awaitingPeer⟩ ∧
      .ofNat 32 0 ∈ ((⟨oneAwaitsTwoKnow.node, awaitingPeer⟩ : Link).disconnect
        .closedByPeer).release.1 ∧
      (∀ peer ∈ [2, 1], peer ≠ 0 ∧
        ∃ link, oneAwaitsTwoKnow.link? peer = some link ∧
          link.connection.isActive = true) ∧
      oneAwaitsTwoKnow.Recalls 1 0 (.ofNat 32 0) ∧
      ∃ taker vectors, taker ∈ [2, 1] ∧
        (oneAwaitsTwoKnow.depart 0 .closedByPeer).requestsFor
          (takeovers plainMoment
          ((⟨oneAwaitsTwoKnow.node, awaitingPeer⟩ : Link).disconnect
            .closedByPeer).release.1 [2, 1]) (.ofNat 32 0) =
              [(taker, .getdata vectors)] ∧
              vectors.count (.ofNat 32 0) = 1 := by
  have hheirs : ∀ peer ∈ [2, 1], peer ≠ 0 ∧
      ∃ link, oneAwaitsTwoKnow.link? peer = some link ∧
        link.connection.isActive = true := by
    intro peer hpeer
    rcases List.mem_pair.mp hpeer with rfl | rfl
    · exact ⟨by decide, ⟨oneAwaitsTwoKnow.node, knowingPeer 2⟩, rfl, rfl⟩
    · exact ⟨by decide, ⟨oneAwaitsTwoKnow.node, knowingPeer 1⟩, rfl, rfl⟩
  obtain ⟨taker, -, htaker, -, vectors, hone, hcount⟩ :=
    (released_taken_over_once oneAwaitsTwoKnow balanced_oneAwaitsTwoKnow rfl
      .closedByPeer (List.Perm.refl _)
      [2, 1] hheirs plainMoment).1 _ released_oneAwaitsTwoKnow ⟨1, by simp,
      recalls_oneAwaitsTwoKnow⟩
  exact ⟨balanced_oneAwaitsTwoKnow, rfl, released_oneAwaitsTwoKnow, hheirs,
    recalls_oneAwaitsTwoKnow, taker.id, vectors, htaker, hone, hcount⟩

end Hub

end ObjectRelay
