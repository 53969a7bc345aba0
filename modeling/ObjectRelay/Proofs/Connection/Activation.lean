import ObjectRelay.Proofs.AddressBook.Basic
import ObjectRelay.Proofs.Connection.Meeting

namespace ObjectRelay

namespace Message

theorem addr_not_mem_announce (vectors : List InventoryVector)
    (records : List PeerRecord) :
    .addr records ∉ announce vectors := by
  intro hmem
  obtain ⟨part, hpart, -⟩ := eq_inv_of_mem_announce hmem
  cases hpart

end Message

namespace Link

variable {link before after : Link} {moment : Moment} {message : Message}
  {said : List Message} {records : List PeerRecord}

/-- No addresses are told, and those that are known change as they may. -/
structure Discreet (before after : Link) : Prop where
  queue : ∃ said, after.connection.queue = before.connection.queue ++ said ∧
    ∀ records, .addr records ∉ said
  addresses : before.node.addresses.Change after.node.addresses

theorem discreet_of_queue (hnode : after.node.addresses = before.node.addresses)
    (hqueue : after.connection.queue = before.connection.queue ++ said)
    (hsaid : ∀ records, .addr records ∉ said) : Discreet before after :=
  ⟨⟨said, hqueue, hsaid⟩, hnode ▸ .kept⟩

theorem discreet_of_silent
    (hnode : after.node.addresses = before.node.addresses)
    (hqueue : after.connection.queue = before.connection.queue) :
    Discreet before after :=
  discreet_of_queue hnode (hqueue.trans (List.append_nil _).symm) (by simp)

theorem discreet_disconnect (link : Link) (reason : DisconnectReason) :
    Discreet link (link.disconnect reason) := by
  cases hphase : link.connection.phase <;>
    exact discreet_of_silent
      (by simp [disconnect, Connection.disconnect, hphase])
      (by simp [disconnect, Connection.disconnect, hphase])

/-- What a connection that becomes active tells of addresses, if it is not
nothing. -/
def tidings (link : Link) (moment : Moment) : List PeerRecord :=
  if link.connection.mode = .sync then []
  else link.node.knownAddresses moment Message.mostAddresses
    link.node.profile.streams

/-- The addresses that a connection tells when it becomes active, if it tells
any. -/
def told? (link : Link) (moment : Moment) : Option (List PeerRecord) :=
  if link.tidings moment = [] then none else some (link.tidings moment)

theorem told?_eq_none_iff :
    link.told? moment = none ↔ link.tidings moment = [] := by
  simp [told?]

theorem told?_eq_some_iff {records : List PeerRecord} :
    link.told? moment = some records ↔ records ≠ [] ∧
    records = link.tidings moment := by
  unfold told?
  split
  · rename_i hnothing
    rw [hnothing]
    simp
  · rename_i hsome
    constructor
    · rintro ⟨rfl⟩
      exact ⟨hsome, rfl⟩
    · rintro ⟨-, rfl⟩
      rfl

theorem tellAddresses_eq (link : Link) (moment : Moment) :
    link.tellAddresses moment = { link with
      connection := { link.connection with
        queue := link.connection.queue ++
          (link.told? moment).toList.map .addr } } := by
  unfold tellAddresses told? tidings
  dsimp only
  split
  · simp
  · split
    · rename_i hempty
      rw [List.isEmpty_iff.mp hempty]
      simp
    · rename_i hsome
      have hne := mt List.isEmpty_iff.mpr hsome
      rw [if_neg hne]
      rfl

theorem queue_activate (link : Link) (moment : Moment) :
    (link.activate moment).connection.queue =
      link.connection.queue ++ (link.told? moment).toList.map .addr ++
        Message.announce
          (link.node.inventory.vectors link.connection.streams) := by
  unfold activate tellInventory
  rw [foldl_send, tellAddresses_eq]
  rfl

theorem exists_queue_activate (link : Link) (moment : Moment) :
    ∃ said, (link.activate moment).connection.queue =
      link.connection.queue ++ said ∧
      ∀ records, .addr records ∈ said ↔ records ≠ [] ∧
        records = link.tidings moment := by
  refine ⟨_, (queue_activate link moment).trans (List.append_assoc _ _ _),
    fun records => ?_⟩
  rw [List.mem_append, or_iff_left (Message.addr_not_mem_announce _ records),
    ← told?_eq_some_iff]
  cases link.told? moment <;> simp [eq_comm]

theorem addresses_activate (link : Link) (moment : Moment) :
    (link.activate moment).node.addresses =
      link.node.addresses.offer moment.shuffle moment.clock
      (link.connection.peerRecords moment.clock) := by
  unfold activate tellInventory learnPeer tellAddresses
  rw [foldl_send]
  dsimp only
  split
  · rfl
  · split <;> rfl

inductive Course (link : Link) (moment : Moment) :
    Link × Option Event → Prop where
  | discreet {after : Link} {event? : Option Event} (hevent : event? ≠
      some .activated)
      (h : Discreet link after) : Course link moment (after, event?)
  | activates {opened : Link} (hnode : opened.node = link.node)
      (hmode : opened.connection.mode = link.connection.mode)
        (h : Discreet link opened) :
      Course link moment (opened.activate moment, some .activated)

theorem course_disconnect (link : Link) (moment : Moment)
    (reason : DisconnectReason) :
    Course link moment (link.disconnect reason, none) :=
  .discreet (by simp) (discreet_disconnect link reason)

theorem course_receiveGreeting (link : Link) (moment : Moment)
    (greeting : Greeting) :
    Course link moment (link.receiveGreeting moment greeting) := by
  have hmet : Discreet link ((link.meet greeting).send .verack) :=
    discreet_of_queue rfl rfl (by simp)
  unfold receiveGreeting
  split
  · exact course_disconnect link moment _
  · split
    · exact course_disconnect link moment _
    · split
      · exact course_disconnect link moment _
      · dsimp only
        split
        · have hanswered :
              (((link.meet greeting).send .verack).greet
                moment).connection.queue = link.connection.queue ++
                [.verack, .version (link.node.greeting link.connection.remote
                  moment.clock)] := by
            simp [greet, meet, send, Connection.send]
          exact .discreet (by simp) (discreet_of_queue rfl hanswered (by simp))
        · exact .activates rfl rfl hmet
        · exact .activates rfl rfl hmet

theorem course_receiveVerack (link : Link) (moment : Moment) :
    Course link moment (link.receiveVerack moment) := by
  have hsame : Discreet link link := discreet_of_silent rfl rfl
  unfold receiveVerack
  split
  · split
    · exact .activates rfl rfl hsame
    · exact course_disconnect link moment _
  · exact .discreet (by simp) hsame
  · exact .discreet (by simp) hsame

theorem discreet_receiveCustom (link : Link) (request : CustomMessage) :
    Discreet link (link.receiveCustom request) := by
  unfold receiveCustom
  split
  · rename_i answer _ _ _
    cases hresponse : answer request with
    | none => exact discreet_disconnect link _
    | some response =>
        obtain ⟨⟨said, hqueue, hsaid⟩, haddresses⟩ :=
          discreet_disconnect (link.send (.custom response))
            .customRequestServed
        refine ⟨⟨.custom response :: said, ?_, by simpa using hsaid⟩,
          haddresses⟩
        rw [hqueue]
        simp [send, Connection.send]
  · exact discreet_disconnect link _

theorem course_receiveConnecting (link : Link) (moment : Moment)
    (message : Message) :
    Course link moment (link.receiveConnecting moment message) := by
  cases message with
  | version greeting => exact course_receiveGreeting link moment greeting
  | verack => exact course_receiveVerack link moment
  | custom request =>
      exact .discreet (by simp) (discreet_receiveCustom link request)
  | _ => exact .discreet (by simp) (discreet_of_silent rfl rfl)

theorem addresses_receiveObject (link : Link) (moment : Moment)
    (object : Object) :
    (link.receiveObject moment object).1.node.addresses =
      link.node.addresses := by
  unfold receiveObject
  split
  · rfl
  · rename_i vector _
    have hdelivered : ((link.remember vector moment.instant).deliver moment
        vector).node.addresses = link.node.addresses := by
      unfold deliver
      split <;> rfl
    dsimp only
    split
    · exact hdelivered
    · exact hdelivered

theorem event_receiveObject_ne_activated (link : Link) (moment : Moment)
    (object : Object) :
    (link.receiveObject moment object).2 ≠ some .activated := by
  unfold receiveObject
  split
  · simp
  · dsimp only
    split <;> simp

theorem course_receiveActive (link : Link) (moment : Moment)
    (message : Message) :
    Course link moment (link.receiveActive moment message) := by
  cases message with
  | inv vectors =>
      refine .discreet (by simp)
        (discreet_of_queue rfl
          (asks_receiveInventory link moment vectors).queue ?_)
      intro records hmem
      cases (mem_requestFor.mp hmem).2
  | getdata vectors =>
      obtain ⟨known, hserved⟩ := exists_receiveRequest_eq link moment vectors
      refine .discreet (by simp) ?_
      rw [hserved]
      exact discreet_of_queue rfl rfl (by simp)
  | object object =>
      exact .discreet (event_receiveObject_ne_activated link moment object)
        (discreet_of_silent (addresses_receiveObject link moment object)
          (queue_receiveObject link moment object))
  | addr records =>
      exact .discreet (by simp)
        ⟨⟨[], (List.append_nil _).symm, by simp⟩,
          .offered moment.shuffle moment.clock records⟩
  | version greeting => exact course_disconnect link moment _
  | verack => exact course_disconnect link moment _
  | custom request => exact course_disconnect link moment _
  | unknown command payload =>
      exact .discreet (by simp) (discreet_of_silent rfl rfl)

theorem Course.of_hear {now : Nat} {result : Link × Option Event}
    (h : Course (link.hear now) moment result) : Course link moment result := by
  cases h with
  | discreet hevent hdiscreet =>
      exact .discreet hevent ⟨hdiscreet.queue, hdiscreet.addresses⟩
  | activates hnode hmode hdiscreet =>
      exact .activates hnode hmode ⟨hdiscreet.queue, hdiscreet.addresses⟩

theorem course_receive (link : Link) (moment : Moment) (message : Message) :
    Course link moment (link.receive moment message) := by
  unfold receive
  dsimp only
  split
  · exact (course_receiveConnecting (link.hear moment.instant) moment
      message).of_hear
  · exact (course_receiveActive (link.hear moment.instant) moment
      message).of_hear
  · exact .discreet (by simp) (discreet_of_silent rfl rfl)

theorem exists_opened_of_activated
    (h : link.receive moment message = (after, some .activated)) :
    ∃ opened : Link, opened.node = link.node ∧
      after = opened.activate moment := by
  have hcourse := course_receive link moment message
  rw [h] at hcourse
  cases hcourse with
  | discreet hevent _ => exact absurd rfl hevent
  | activates hnode _ _ => exact ⟨_, hnode, rfl⟩

theorem discreet_start (link : Link) (moment : Moment) :
    Discreet link (link.start moment) := by
  unfold start
  split
  · exact discreet_of_silent rfl rfl
  · exact discreet_of_queue rfl rfl (by simp)
  · exact discreet_of_queue rfl rfl (by simp)

theorem discreet_offer (link : Link) (moment : Moment)
    (vector : InventoryVector) :
    Discreet link (link.offer moment vector) := by
  unfold offer
  dsimp only
  split
  · exact discreet_of_queue rfl rfl (by simp)
  · exact discreet_of_silent rfl rfl

theorem discreet_reassign (link : Link) (moment : Moment)
    (vectors : List InventoryVector) :
    Discreet link (link.reassign moment vectors) := by
  by_cases hactive : link.connection.isActive = true
  · have hnode : (link.reassign moment vectors).node.addresses =
        link.node.addresses := by
      rw [reassign, if_pos hactive]
    refine discreet_of_queue hnode
      (asks_reassign link moment vectors hactive).queue ?_
    intro records hmem
    cases (mem_requestFor.mp hmem).2
  · rw [reassign, if_neg hactive]
    exact discreet_of_silent rfl rfl

theorem discreet_tick (link : Link) (now : Nat) :
    Discreet link (link.tick now) := by
  unfold tick
  split
  · exact discreet_disconnect link _
  · exact discreet_of_silent rfl rfl

theorem discreet_perform {action : Action}
    (h : ∀ moment message, action ≠ .receive moment message) :
    Discreet link (link.perform action) := by
  cases action with
  | start moment => exact discreet_start link moment
  | receive moment message => exact absurd rfl (h moment message)
  | offer moment vector => exact discreet_offer link moment vector
  | reassign moment vectors => exact discreet_reassign link moment vectors
  | tick now => exact discreet_tick link now
  | disconnect reason => exact discreet_disconnect link reason
  | release => exact discreet_of_silent rfl rfl

theorem Discreet.addr_not_mem_queued {action : Action}
    (h : Discreet link (link.perform action)) :
    .addr records ∉ link.queued action := by
  obtain ⟨said, hqueue, hsaid⟩ := h.queue
  rw [queued_eq hqueue]
  exact hsaid records

/-- Addresses are told when a connection becomes active, and then all that are
known. -/
theorem addr_mem_queued_receive_iff :
    .addr records ∈ link.queued (.receive moment message) ↔
      (link.receive moment message).2 = some .activated ∧ records ≠ [] ∧
        records = link.tidings moment := by
  have hcourse := course_receive link moment message
  generalize hresult : link.receive moment message = result at hcourse ⊢
  have hperformed : link.perform (.receive moment message) = result.1 := by
    rw [perform, hresult]
  cases hcourse with
  | discreet hevent hdiscreet =>
      exact iff_of_false (Discreet.addr_not_mem_queued (hperformed ▸ hdiscreet))
        fun h => hevent h.1
  | @activates opened hnode hmode hdiscreet =>
      obtain ⟨⟨earlier, hearlier, hnone⟩, -⟩ := hdiscreet
      obtain ⟨said, hsaid, htold⟩ := exists_queue_activate opened moment
      have hqueue : (link.perform (.receive moment message)).connection.queue =
          link.connection.queue ++ (earlier ++ said) := by
        rw [hperformed, hsaid, hearlier, List.append_assoc]
      have htidings : opened.tidings moment = link.tidings moment := by
        rw [tidings, tidings, hnode, hmode]
      rw [queued_eq hqueue, List.mem_append, or_iff_right (hnone records),
        htold, htidings]
      simp

theorem addr_mem_queued_iff {action : Action} :
    .addr records ∈ link.queued action ↔
      ∃ moment message, action = .receive moment message ∧
        (link.receive moment message).2 = some .activated ∧ records ≠ [] ∧
          records = link.tidings moment := by
  by_cases hreceive : ∃ moment message, action = .receive moment message
  · obtain ⟨moment, message, rfl⟩ := hreceive
    rw [addr_mem_queued_receive_iff]
    constructor
    · exact fun h => ⟨moment, message, rfl, h⟩
    · rintro ⟨_, _, hsame, h⟩
      cases hsame
      exact h
  · refine iff_of_false (Discreet.addr_not_mem_queued (discreet_perform ?_)) ?_
    · exact fun moment message h => hreceive ⟨moment, message, h⟩
    · exact fun ⟨moment, message, h, _⟩ => hreceive ⟨moment, message, h⟩

theorem addresses_perform (link : Link) (action : Action) :
    link.node.addresses.Change (link.perform action).node.addresses := by
  by_cases hreceive : ∃ moment message, action = .receive moment message
  · obtain ⟨moment, message, rfl⟩ := hreceive
    have hcourse := course_receive link moment message
    rw [perform]
    generalize link.receive moment message = result at hcourse
    cases hcourse with
    | discreet _ hdiscreet => exact hdiscreet.addresses
    | activates hnode _ _ =>
        rw [addresses_activate, hnode]
        exact .offered _ _ _
  · exact (discreet_perform fun moment message h =>
      hreceive ⟨moment, message, h⟩).addresses

end Link

end ObjectRelay
