import ObjectRelay.Proofs.Service.Course
import ObjectRelay.Proofs.Service.Publication

namespace ObjectRelay.Service

variable {service : Service} {id : PeerId} {vector : InventoryVector}

/-- What an accepted object is announced for is known to who delivered it. -/
theorem queue_act_accepted (service : Service) (moment : Moment) (id : PeerId)
    (vector : InventoryVector) :
    (service.act moment id (some (.accepted vector))).peers.queue id =
      service.peers.queue id := by
  unfold act
  dsimp only
  split
  · rfl
  · rename_i object hheld
    show (service.peers.announce moment.shuffle moment.instant vector
      object.stream (some id)).2.queue id = _
    rw [PeerTable.queue_announce]
    refine if_neg ?_
    rintro ⟨htold, -⟩
    exact (PeerTable.awaits_of_mem_targets htold).other rfl

theorem Recalls.queue_announce {since now : Nat}
    (h : service.Recalls id vector since) (horderly : service.Orderly)
    (hnow : now ≤ since + ({} : KnownVectors).lifetime) (shuffle : Shuffle)
    (stream : UInt64) (except? : Option PeerId) :
    (service.peers.announce shuffle now vector stream except?).2.queue id =
      service.peers.queue id := by
  have hheard : ∀ peer, service.peers.get? id = some peer →
      peer.known.HeardSince vector since ∧
      now ≤ since + peer.known.lifetime := by
    intro peer hpeer
    rw [horderly.lasting id peer hpeer]
    exact ⟨h.heard peer hpeer, hnow⟩
  rw [PeerTable.queue_announce]
  refine if_neg ?_
  rintro ⟨htold, -⟩
  exact PeerTable.not_awaits_of_heardSince hheard
    (PeerTable.awaits_of_mem_targets htold)

/-- An announcement picks as many peers as there are, but no more than the
limit, of those that are active, share the stream and have not been heard of the
vector for a lifetime.  Each of them that has room is told once, and nobody else
is told anything.  It is never told to who delivered it, whatever became of a
service that nobody had come to, nor within five minutes to who named it. -/
theorem offered_only_where_lacking :
    (∀ (table : PeerTable) (shuffle : Shuffle) (now : Nat)
      (vector : InventoryVector) (stream : UInt64) (except? : Option PeerId),
      let told := table.targets shuffle now vector stream except?
      let announced := table.announce shuffle now vector stream except?
      told.Nodup ∧
      (∀ id ∈ told, table.Awaits now vector stream except? id) ∧
      (∃ all : Finset PeerId,
        (∀ id, id ∈ all ↔ table.Awaits now vector stream except? id) ∧
        told.length = min Fanout.mostOffers all.card) ∧
      announced.1 = told.countP table.hasRoom ∧
      ∀ id, announced.2.queue id =
        if id ∈ told ∧ table.hasRoom id = true then
          table.queue id ++ [.offer vector]
        else table.queue id) ∧
    (∀ (service : Service) (moment : Moment) (id : PeerId)
      (vector : InventoryVector),
      (service.act moment id (some (.accepted vector))).peers.queue id =
        service.peers.queue id) ∧
    (∀ (settings : ServiceSettings) (node : Node)
      (steps : List (Moment × Step)),
      (run { settings := settings, node := node } steps).Orderly) ∧
    ∀ (service : Service), service.Orderly →
      ∀ (id : PeerId) (session : Session),
      service.sessions[id]? = some session →
      session.connection.phase = .active →
      ∀ (heard : Moment) (message : Message) (vector : InventoryVector),
      message.Names service.node.hasher vector →
      ∀ (later : List (Moment × Step)) (now : Nat),
      (∀ entry ∈ later, heard.instant ≤ entry.1.instant ∧
        entry.1.instant ≤ now) →
      now ≤ heard.instant + 5 * 60 * 1000 →
      let after := service.run ((heard, .hear id message) :: later)
      ∀ (shuffle : Shuffle) (stream : UInt64) (except? : Option PeerId),
      (after.peers.announce shuffle now vector stream except?).2.queue id =
        after.peers.queue id := by
  refine ⟨?_, queue_act_accepted,
    fun settings node => (orderly_new settings node).run, ?_⟩
  · intro table shuffle now vector stream except? told announced
    exact ⟨table.nodup_targets shuffle now vector stream except?,
      fun id => PeerTable.awaits_of_mem_targets,
      table.exists_length_targets shuffle now vector stream except?,
      table.fst_announce shuffle now vector stream except?,
      table.queue_announce shuffle now vector stream except?⟩
  · intro service horderly id session hsession hactive heard message vector
      hnames later now htime hnow after shuffle stream except?
    have hfirst := recalls_hear horderly hsession hactive hnames heard
    have hheard := horderly.step heard (.hear id message)
    have hrecalls : after.Recalls id vector heard.instant :=
      hfirst.run hheard fun entry hentry =>
        ⟨(htime entry hentry).1, Nat.le_trans (htime entry hentry).2 hnow⟩
    exact hrecalls.queue_announce (hheard.run later) hnow shuffle stream except?

def onePeerService : Service :=
  { plainService with
    peers := PeerTable.empty.insert
      { info :=
          { id := 0, address := Hub.plainRemote, mode := .server,
            lifecycle := .active, streams := [1], connectedAt := 0 } }
    sessions := (∅ : Std.HashMap PeerId Session).insert 0
      { connection := plainPeer }
    nextId := 1 }

theorem orderly_onePeerService : onePeerService.Orderly where
  named id session hsession := by
    rw [onePeerService, Std.HashMap.getElem?_insert] at hsession
    split at hsession
    · rename_i hid
      rw [← Option.some_inj.mp hsession, ← eq_of_beq hid]
      exact ⟨rfl, Nat.zero_lt_one⟩
    · simp at hsession
  numbered id peer hpeer := by
    rw [onePeerService, PeerTable.get?_insert] at hpeer
    split at hpeer
    · rename_i hid
      rw [← hid]
      exact Nat.zero_lt_one
    · rw [PeerTable.get?_empty] at hpeer
      cases hpeer
  lasting id peer hpeer := by
    rw [onePeerService, PeerTable.get?_insert] at hpeer
    split at hpeer
    · rw [← Option.some_inj.mp hpeer]
    · rw [PeerTable.get?_empty] at hpeer
      cases hpeer

/-- Five minutes later it is still left out. -/
theorem onePeerService_offered_only_where_lacking :
    let vector : InventoryVector := .ofNat 32 0
    let after := onePeerService.run [(Hub.plainMoment, .hear 0 (.inv [vector])),
      (⟨300000, 0, .none⟩, .tick 0)]
    (after.peers.announce .none 300000 vector 1 none).2.queue 0 =
      after.peers.queue 0 := by
  intro vector after
  obtain ⟨-, -, -, hnever⟩ := offered_only_where_lacking
  have hsession : onePeerService.sessions[0]? =
      some { connection := plainPeer } := by simp [onePeerService]
  have htime : ∀ entry ∈ [((⟨300000, 0, .none⟩ : Moment), Step.tick 0)],
      Hub.plainMoment.instant ≤ entry.1.instant ∧ entry.1.instant ≤ 300000 := by
    intro entry hentry
    rw [List.mem_singleton.mp hentry]
    exact ⟨Nat.zero_le _, Nat.le_refl _⟩
  exact hnever onePeerService orderly_onePeerService 0
    { connection := plainPeer } hsession rfl Hub.plainMoment
    (.inv [vector]) vector (List.mem_singleton_self vector)
      [(⟨300000, 0, .none⟩, .tick 0)] 300000 htime (Nat.le_refl _) .none 1 none

end ObjectRelay.Service
