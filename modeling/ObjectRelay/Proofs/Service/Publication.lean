import ObjectRelay.Proofs.Connection.Activation
import ObjectRelay.Proofs.Hub.Refetch
import ObjectRelay.Proofs.Hub.Storage
import ObjectRelay.Proofs.Message.Sizes
import ObjectRelay.Service.Session

namespace ObjectRelay

/-! An object that a service publishes is judged as one that a peer delivers.
What was published is told to peers that ask for it, and the frame for it may be
longer than frames can be. -/

theorem Object.checkWork_of_trialValue_eq_zero {hasher : Hasher}
    {object : Object} {nonce : Octets 8} (hnonce : object.nonce? = some nonce)
    (hvalue : trialValue hasher (UInt64.ofNat nonce.toNat)
      (object.initialHash hasher) = 0) (difficulty : Difficulty) (now : Int64) :
    object.checkWork hasher difficulty now = .ok () := by
  rw [checkWork, hnonce]
  dsimp only
  rw [hvalue, if_pos UInt64.zero_le]

theorem Link.event_object_ne_activated {link : Link}
    (hactive : link.connection.phase = .active) (moment : Moment)
    (object : Object) :
    (link.receive moment (.object object)).2 ≠ some .activated := by
  have hreceive : link.receive moment (.object object) =
      (link.hear moment.instant).receiveObject moment object := by
    simp [receive, hactive, receiveActive, hear]
  rw [hreceive]
  exact event_receiveObject_ne_activated _ moment object

namespace Service

variable {service : Service} {moment : Moment} {object : Object}
  {vector : InventoryVector}

theorem publish_eq (service : Service) (moment : Moment) (object : Object) :
    (service.publish moment object).1 =
      checkObject service.node moment.clock object := by
  unfold publish
  split
  · rename_i hcheck
    exact hcheck.symm
  · rename_i hcheck
    exact hcheck.symm

theorem takes_iff_publish {connection : Connection}
    (hactive : connection.phase = .active) {arrival : Moment}
    (hclock : arrival.clock = moment.clock)
    (hnew : ∀ vector, object.vector service.node.hasher = .ok vector →
      service.node.inventory.contains vector = false) :
    Link.Takes ⟨service.node, connection⟩ arrival vector object ↔
      (service.publish moment object).1 = .ok vector := by
  rw [publish_eq, checkObject_eq_ok_iff]
  constructor
  · rintro ⟨-, hvector, -, hstream, happroves⟩
    exact ⟨hstream, hclock ▸ happroves, hvector⟩
  · rintro ⟨hstream, happroves, hvector⟩
    have habsent := Inventory.contains_eq_false_iff.mp (hnew vector hvector)
    have hisActive :
        connection.isActive = true := by simp [Connection.isActive, hactive]
    exact ⟨hisActive, hvector, habsent, hstream, hclock ▸ happroves⟩

theorem inventory_publish {connection : Connection}
    (hactive : connection.phase = .active) {arrival : Moment}
    (hclock : arrival.clock = moment.clock)
    (hnew : ∀ vector, object.vector service.node.hasher = .ok vector →
      service.node.inventory.contains vector = false) :
    (service.publish moment object).2.node.inventory =
      (Link.perform ⟨service.node, connection⟩
        (.receive arrival (.object object))).node.inventory := by
  have htakes_iff : ∀ vector,
      Link.Takes ⟨service.node, connection⟩ arrival vector object ↔
      checkObject service.node moment.clock object = .ok vector := by
    intro vector
    rw [takes_iff_publish hactive hclock hnew, publish_eq]
  rw [node_publish]
  cases Link.shelves_perform ⟨service.node,
    connection⟩ (.receive arrival (.object object)) with
  | keeps hnone hinventory hreceived =>
      cases hcheck : checkObject service.node moment.clock object with
      | error failure => rw [Node.publish_of_error hcheck, hinventory]
      | ok vector =>
          exact absurd ((htakes_iff vector).mpr hcheck)
            (hnone arrival vector object rfl)
  | adds haction htakes hinventory hreceived =>
      cases haction
      rw [Node.publish_of_ok ((htakes_iff _).mp htakes), hinventory]

/-- An object that is new to a node gets in by being published just when it gets
in by being delivered, and the inventory is the same afterwards.  The connection
goes on in any case. -/
theorem published_iff_accepted (service : Service) (connection : Connection)
    (hactive : connection.phase = .active) (moment arrival : Moment)
    (hclock : arrival.clock = moment.clock) (object : Object)
    (hnew : ∀ vector, object.vector service.node.hasher = .ok vector →
      service.node.inventory.contains vector = false) :
    let published := service.publish moment object
    let delivered :=
      Link.receive ⟨service.node, connection⟩ arrival (.object object)
    (∀ vector, published.1 = .ok vector ↔
      delivered.2 = some (.accepted vector)) ∧
    published.2.node.inventory = delivered.1.node.inventory ∧
    delivered.1.connection.phase = .active ∧
    ∀ failure, published.1 = .error failure →
      delivered.2 = none ∧
      delivered.1.node.inventory = service.node.inventory := by
  intro published delivered
  have hsame : ∀ vector,
      published.1 = .ok vector ↔ delivered.2 = some (.accepted vector) := by
    intro vector
    rw [← takes_iff_publish hactive hclock hnew, Link.event_receive_eq_iff]
    constructor
    · intro htakes
      exact ⟨object, rfl, htakes⟩
    · rintro ⟨_, hmessage, htakes⟩
      cases hmessage
      exact htakes
  have hinventory : published.2.node.inventory = delivered.1.node.inventory :=
    inventory_publish hactive hclock hnew
  refine ⟨hsame, hinventory, ?_, fun failure hfailure => ⟨?_, ?_⟩⟩
  · have hchats : Link.Chats ⟨service.node, connection⟩ delivered.1 :=
      Link.chats_receive hactive arrival trivial
    exact (congrArg Bearing.phase hchats.bearing).trans hactive
  · cases hevent : delivered.2 with
    | none => rfl
    | some event =>
        cases event with
        | activated =>
            exact absurd hevent
              (Link.event_object_ne_activated hactive arrival object)
        | accepted vector =>
            rw [← hsame, hfailure] at hevent
            cases hevent
  · rw [← hinventory, node_publish]
    rw [publish_eq] at hfailure
    rw [Node.publish_of_error hfailure]

theorem get?_publish (h : (service.publish moment object).1 = .ok vector) :
    (service.publish moment object).2.node.inventory.get? vector =
      some ((service.node.inventory.get? vector).getD object) := by
  rw [publish_eq] at h
  rw [node_publish, Node.publish_of_ok h]
  cases hheld : service.node.inventory.get? vector with
  | none => exact Inventory.get?_store_of_eq_none hheld object
  | some held => exact Inventory.get?_store_of_eq_some hheld vector object

theorem isSome_nonce?_getD (hintact : service.node.Intact)
    (h : (service.publish moment object).1 = .ok vector) :
    (((service.node.inventory.get? vector).getD object).nonce?).isSome =
      true := by
  cases hheld : service.node.inventory.get? vector with
  | none =>
      rw [publish_eq, checkObject_eq_ok_iff] at h
      exact Object.isSome_nonce?_of_vector h.2.2
  | some held => exact (hintact vector held hheld).nonce

def plainService : Service where
  settings := {}
  node := Hub.plainNode

def plainPeer : Connection :=
  { Connection.opened 0 .server Hub.plainRemote 0 with
    phase := .active, streams := [1] }

theorem plainService_accepts_published :
    plainPeer.phase = .active ∧
      (∀ vector, Hub.plainObject.vector plainService.node.hasher = .ok vector →
        plainService.node.inventory.contains vector = false) ∧
      (plainService.publish Hub.plainMoment Hub.plainObject).1 =
        .ok (.ofNat 32 0) ∧
      (Link.receive ⟨plainService.node, plainPeer⟩ Hub.plainMoment
        (.object Hub.plainObject)).2 = some (.accepted (.ofNat 32 0)) := by
  have hnew : ∀ vector, Hub.plainObject.vector plainService.node.hasher =
      .ok vector →
      plainService.node.inventory.contains vector = false := by
    intro vector _
    simp [plainService, Hub.plainNode, Inventory.contains_eq, Inventory.get?]
  have hpublished : (plainService.publish Hub.plainMoment Hub.plainObject).1 =
      .ok (.ofNat 32 0) := by
    rw [publish_eq]
    rfl
  have hagree := published_iff_accepted plainService plainPeer rfl
    Hub.plainMoment Hub.plainMoment rfl Hub.plainObject hnew
  exact ⟨rfl, hnew, hpublished, (hagree.1 _).mp hpublished⟩

end Service

namespace Link

theorem queue_request (link : Link) (hactive : link.connection.phase = .active)
    {vector : InventoryVector} {object : Object}
    (hheld : link.node.inventory.get? vector = some object) (asking : Moment) :
    (link.perform (.receive asking (.getdata [vector]))).connection.queue =
        link.connection.queue ++ [.object object] ∧
      (link.perform (.receive asking (.getdata [vector]))).connection.phase =
        .active := by
  obtain ⟨known, hserved⟩ :=
    exists_receiveRequest_eq (link.hear asking.instant) asking [vector]
  rw [perform_receive_of_active hactive, receiveActive, hserved]
  simp [hear, hheld, hactive]

end Link

namespace Connection

theorem phase_writeQueue_object {connection : Connection}
    (hactive : connection.phase = .active) (hasher : Hasher)
    (magic : Frame.Magic) {object : Object}
    (hnonce : object.nonce?.isSome = true) :
    (connection.writeQueue hasher magic [.object object]).2.phase =
      if 8 + object.bodyLength ≤ Frame.largestPayload then .active
      else .disconnected
        (.io (FrameError.tooLarge (8 + object.bodyLength)).message) := by
  split_ifs with hfits
  · have haccepts : Frame.Accepts hasher magic (.object object) :=
      (Frame.accepts_object_iff hnonce).mpr hfits
    obtain ⟨frame, hframe⟩ := haccepts
    rw [writeQueue, hframe]
    exact hactive
  · rw [writeQueue, Frame.encode_object_of_lt hnonce (Nat.not_le.mp hfits)]
    simp [disconnect, hactive]

end Connection

namespace Service

/-- Publishing does not look at how long an object is.  The encoder does, and a
connection that answers a request for one that is too long ends. -/
theorem published_deliverable_iff (service : Service)
    (hintact : service.node.Intact) {moment : Moment} {object : Object}
    {vector : InventoryVector} (hpublished : (service.publish moment object).1 =
      .ok vector) (magic : Frame.Magic) :
    ∃ stored, (service.publish moment object).2.node.inventory.get? vector =
      some stored ∧
      (service.node.inventory.get? vector = none → stored = object) ∧
      (Frame.Accepts service.node.hasher magic (.object stored) ↔
        8 + stored.bodyLength ≤ Frame.largestPayload) ∧
      ∀ (connection : Connection) (asking : Moment),
        connection.phase = .active →
        connection.queue = [] →
          let asked := (Link.receive ⟨(service.publish moment object).2.node,
            connection⟩ asking (.getdata [vector])).1.connection
          asked.queue = [.object stored] ∧
          (asked.writeQueue service.node.hasher magic asked.queue).2.phase =
            if 8 + stored.bodyLength ≤ Frame.largestPayload then .active
            else .disconnected
              (.io (FrameError.tooLarge (8 + stored.bodyLength)).message) := by
  have hnonce := isSome_nonce?_getD hintact hpublished
  have hstored := get?_publish hpublished
  refine ⟨_, hstored, ?_, Frame.accepts_object_iff hnonce, ?_⟩
  · intro hfresh
    rw [hfresh, Option.getD_none]
  · intro connection asking hactive hqueue asked
    obtain ⟨hsaid, hphase⟩ := Link.queue_request
      ⟨(service.publish moment object).2.node,
        connection⟩ hactive hstored asking
    have hasked : asked.queue =
        [.object ((service.node.inventory.get? vector).getD object)] := by
      rw [hqueue] at hsaid
      exact hsaid
    refine ⟨hasked, ?_⟩
    rw [hasked]
    exact Connection.phase_writeQueue_object hphase _ magic hnonce

/-- One byte longer than fits a frame. -/
def longObject : Object :=
  { Hub.plainObject with payload := .unknown (List.replicate 1599982 0) }

theorem length_longObject :
    8 + longObject.bodyLength = Frame.largestPayload + 1 := by
  have hpayload : longObject.payload.length = 1599982 := List.length_replicate
  rw [Object.bodyLength, hpayload]
  rfl

theorem publish_longObject :
    (plainService.publish Hub.plainMoment longObject).1 =
      .ok (.ofNat 32 0) := by
  have hwork : plainService.node.engine.checkWork longObject
      Hub.plainMoment.clock = .ok () :=
    Object.checkWork_of_trialValue_eq_zero rfl rfl _ _
  rw [publish_eq, checkObject_eq_ok_iff]
  exact ⟨rfl, ⟨by decide, hwork⟩, rfl⟩

theorem plainService_drops_plainPeer :
    plainService.node.Intact ∧
      (plainService.publish Hub.plainMoment longObject).1 = .ok (.ofNat 32 0) ∧
      ¬ Frame.Accepts plainService.node.hasher Frame.networkMagic
        (.object longObject) ∧
      ((Link.receive ⟨(plainService.publish Hub.plainMoment longObject).2.node,
        plainPeer⟩ Hub.plainMoment (.getdata
          [.ofNat 32 0])).1.connection.writeQueue plainService.node.hasher
          Frame.networkMagic [.object longObject]).2.phase =
        .disconnected
          (.io (FrameError.tooLarge (Frame.largestPayload + 1)).message) := by
  have hintact : plainService.node.Intact := by
    intro vector object hheld
    simp [plainService, Hub.plainNode, Inventory.get?] at hheld
  have hfresh : plainService.node.inventory.get? (.ofNat 32 0) = none := by
    simp [plainService, Hub.plainNode, Inventory.get?]
  have hlong : ¬ Frame.largestPayload + 1 ≤ Frame.largestPayload :=
    Nat.not_succ_le_self _
  obtain ⟨stored, -, hsame, haccepts, hasked⟩ :=
    published_deliverable_iff plainService hintact publish_longObject
      Frame.networkMagic
  obtain ⟨hqueue, hphase⟩ := hasked plainPeer Hub.plainMoment rfl rfl
  rw [hqueue, hsame hfresh, length_longObject, if_neg hlong] at hphase
  rw [hsame hfresh, length_longObject] at haccepts
  exact ⟨hintact, publish_longObject, fun h => hlong (haccepts.mp h), hphase⟩

end Service

end ObjectRelay
