import ObjectRelay.Proofs.Gossip.KnownVectors
import ObjectRelay.Proofs.Hub.Takeover

namespace ObjectRelay

/-! What connections ask for.  Nothing is asked for twice at a time, and nothing
that the node serves, but for a takeover: that looks at what the peer has, and
not at what the node has. -/

namespace Link

variable {link : Link} {action : Action} {vectors : List InventoryVector}
  {vector : InventoryVector}

/-- The peer was heard of the vector, and not too long ago. -/
def Recalls (link : Link) (now : Nat) (vector : InventoryVector) : Prop :=
  ∃ seen, link.connection.known.seen[vector]? = some seen ∧
    now - seen ≤ link.connection.known.lifetime

theorem exists_wants_of_queued_getdata
    (h : .getdata vectors ∈ link.queued action) :
    ∃ wanted, link.connection.isActive = true ∧ link.Wants action wanted ∧
      vectors = link.asked wanted := by
  rcases queued_cases h with hsaid | ⟨wanted, hactive, hwants, hmessage⟩
  · exact absurd rfl (hsaid.ne_getdata vectors)
  · exact ⟨wanted, hactive, hwants, Message.getdata.inj hmessage⟩

theorem nodup_of_queued_getdata (h : .getdata vectors ∈ link.queued action) :
    vectors.Nodup := by
  obtain ⟨wanted, -, -, rfl⟩ := exists_wants_of_queued_getdata h
  exact nodup_asked link wanted

theorem free_of_queued_getdata (h : .getdata vectors ∈ link.queued action)
    (hmem : vector ∈ vectors) : link.node.requests.owner? vector = none := by
  obtain ⟨wanted, -, -, rfl⟩ := exists_wants_of_queued_getdata h
  exact (mem_asked.mp hmem).2

theorem queued_getdata_served_iff
    (hserved : link.node.inventory.serves link.node.profile.streams vector =
      true) :
    (∃ vectors, .getdata vectors ∈ link.queued action ∧ vector ∈ vectors) ↔
      ∃ moment handed, action = .reassign moment handed ∧ vector ∈ handed ∧
        link.connection.isActive = true ∧ link.Recalls moment.instant vector ∧
        link.node.requests.owner? vector = none := by
  constructor
  · intro hasked
    obtain ⟨vectors, hqueued, hmem⟩ := hasked
    have hfree := free_of_queued_getdata hqueued hmem
    obtain ⟨wanted, hactive, hwants, rfl⟩ :=
      exists_wants_of_queued_getdata hqueued
    have hwanted := (mem_asked.mp hmem).1
    cases hwants with
    | announced moment offer =>
        rw [Inventory.mem_missing, hserved] at hwanted
        cases hwanted.2
    | takenOver moment handed =>
        obtain ⟨hhanded, hrecalls⟩ := KnownVectors.mem_knownOf.mp hwanted
        exact ⟨moment, handed, rfl, hhanded, hactive, hrecalls, hfree⟩
  · intro htakeover
    obtain ⟨moment, handed, rfl, hhanded, hactive, hrecalls, hfree⟩ := htakeover
    have hasked :
        vector ∈
          link.asked (link.connection.known.knownOf handed moment.instant).1 :=
      mem_asked.mpr ⟨KnownVectors.mem_knownOf.mpr ⟨hhanded, hrecalls⟩, hfree⟩
    refine ⟨_, ?_, hasked⟩
    rw [queued_reassign moment handed hactive, mem_requestFor]
    exact ⟨List.ne_nil_of_mem hasked, rfl⟩

end Link

namespace Hub

variable {hub : Hub} {id : PeerId} {action : Action}

theorem mem_queued {message : Message} :
    message ∈ hub.queued id action ↔
      ∃ link, hub.link? id = some link ∧ message ∈ link.queued action := by
  unfold queued
  cases hub.link? id with
  | none => simp
  | some link => simp

/-- What is asked for is free, each vector asked for once; and it is nothing
that the node serves, unless it is taken over from a connection that ended. -/
theorem getdata_of_served_iff_taken_over (hub : Hub) (hfresh : hub.Fresh)
    (steps : List Step) (id : PeerId) (action : Action) :
    (∀ vectors, .getdata vectors ∈ (hub.run steps).queued id action →
      vectors.Nodup ∧ ∀ vector ∈ vectors,
        ∀ connection ∈ (hub.run steps).connections,
        connection.outstanding.contains vector = false) ∧
    ∀ vector,
      (hub.run steps).node.inventory.serves (hub.run steps).node.profile.streams
        vector = true →
        ((∃ vectors, .getdata vectors ∈ (hub.run steps).queued id action ∧
          vector ∈ vectors) ↔
          ∃ moment handed link, action = .reassign moment handed ∧
            vector ∈ handed ∧
            (hub.run steps).link? id = some link ∧
            link.connection.isActive = true ∧
            link.Recalls moment.instant vector ∧
            ∀ connection ∈ (hub.run steps).connections,
              connection.outstanding.contains vector = false) := by
  have hbalanced := hfresh.balanced.run steps
  generalize hub.run steps = hub at *
  refine ⟨?_, ?_⟩
  · intro vectors hqueued
    obtain ⟨link, hlink, hsaid⟩ := mem_queued.mp hqueued
    have hnode := (link?_eq_some_iff.mp hlink).1
    refine ⟨Link.nodup_of_queued_getdata hsaid, fun vector hmem => ?_⟩
    rw [← hbalanced.owner?_eq_none_iff, ← hnode]
    exact Link.free_of_queued_getdata hsaid hmem
  · intro vector hserved
    constructor
    · intro hasked
      obtain ⟨vectors, hqueued, hmem⟩ := hasked
      obtain ⟨link, hlink, hsaid⟩ := mem_queued.mp hqueued
      have hnode := (link?_eq_some_iff.mp hlink).1
      rw [← hnode] at hserved
      obtain ⟨moment, handed, haction, hhanded, hactive, hrecalls, hfree⟩ :=
        (Link.queued_getdata_served_iff hserved).mp ⟨vectors, hsaid, hmem⟩
      rw [hnode, hbalanced.owner?_eq_none_iff] at hfree
      exact ⟨moment, handed, link, haction, hhanded, hlink, hactive,
        hrecalls, hfree⟩
    · intro htakeover
      obtain ⟨moment, handed, link, haction, hhanded, hlink, hactive, hrecalls,
        hfree⟩ := htakeover
      have hnode := (link?_eq_some_iff.mp hlink).1
      rw [← hbalanced.owner?_eq_none_iff, ← hnode] at hfree
      rw [← hnode] at hserved
      obtain ⟨vectors, hsaid, hmem⟩ :=
        (Link.queued_getdata_served_iff hserved).mpr
        ⟨moment, handed, haction, hhanded, hactive, hrecalls, hfree⟩
      exact ⟨vectors, mem_queued.mpr ⟨link, hlink, hsaid⟩, hmem⟩

def plainObject : Object :=
  ⟨some (.ofNat 8 0), 0, 2, 1, 1, .letter []⟩

theorem checkObject_plainObject {node : Node} (h : node.Resembles plainNode) :
    Service.checkObject node 0 plainObject = .ok (.ofNat 32 0) := by
  have hsame : Service.checkObject node 0 plainObject =
      Service.checkObject plainNode 0 plainObject := by
    simp only [Service.checkObject, Node.hasher, h.profile, h.engine]
  rw [hsame]
  rfl

theorem serves_publish_plainObject {node : Node}
    (h : node.Resembles plainNode) :
    (node.publish 0 plainObject).inventory.serves
      (node.publish 0 plainObject).profile.streams (.ofNat 32 0) = true := by
  rw [Node.publish, checkObject_plainObject h]
  have habsent : node.inventory.get? (.ofNat 32 0) = none := by
    rw [h.inventory]
    exact Std.HashMap.getElem?_empty
  have hstored := Inventory.get?_store_of_eq_none habsent plainObject
  have hprofile := h.profile
  simp only [Node.store, Inventory.serves, hstored, hprofile, Option.any_some]
  rfl

def lateTakeover : List Step :=
  announcements plainGreeting plainMoment [[.ofNat 32 0]] ++
    .work (.publish 0 plainObject) :: departure

/-- The second peer is asked for what the node serves. -/
theorem twoDialed_asks_for_published :
    (twoDialed plainNode plainRemote).Fresh ∧
      ((twoDialed plainNode plainRemote).run lateTakeover).node.inventory.serves
        ((twoDialed plainNode plainRemote).run
          lateTakeover).node.profile.streams (.ofNat 32 0) = true ∧
      ∃ vectors, .getdata vectors ∈
        ((twoDialed plainNode plainRemote).run lateTakeover).queued 1
        (.reassign plainMoment [.ofNat 32 0]) ∧ .ofNat 32 0 ∈ vectors := by
  have hfresh := fresh_twoDialed size_requests_plainNode plainRemote
  have hshared := shared_announcements size_requests_plainNode
    welcomes_plainGreeting plainRemote
    plainMoment [[.ofNat 32 0]] fun vector _ => plainNode_serves _ vector
  obtain ⟨link, hlink, hactive, hnode, hseen, hfree⟩ :=
    (hshared.work (.publish 0 plainObject)).depart (by decide) .closedByPeer
  have hrun : ((twoDialed plainNode plainRemote).run lateTakeover).link? 1 =
      some link := by
    rw [lateTakeover, run_append, run_cons]
    exact hlink
  have hserved : link.node.inventory.serves link.node.profile.streams
      (.ofNat 32 0) = true := by
    rw [hnode.inventory, hnode.profile]
    exact serves_publish_plainObject hshared.node
  rw [(link?_eq_some_iff.mp hrun).1] at hserved hfree
  refine ⟨hfresh, hserved, ?_⟩
  refine ((getdata_of_served_iff_taken_over _ hfresh lateTakeover 1 _).2 _
    hserved).mpr ?_
  refine ⟨plainMoment, [.ofNat 32 0], link, rfl, by simp, hrun, ?_, ?_, ?_⟩
  · simp [Connection.isActive, hactive]
  · exact ⟨plainMoment.instant, hseen _ (by simp),
      Nat.sub_self plainMoment.instant ▸ Nat.zero_le _⟩
  · exact (hfresh.balanced.run lateTakeover).owner?_eq_none_iff.mp (hfree _)

end Hub

end ObjectRelay
