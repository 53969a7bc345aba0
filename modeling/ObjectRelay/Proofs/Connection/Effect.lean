import ObjectRelay.Proofs.Connection.Speech

namespace ObjectRelay

def Connection.opened (id : PeerId) (mode : Mode) (remote : SocketAddress)
    (now : Nat) : Connection :=
  { id := id, mode := mode, remote := remote, startedAt := now }

inductive Action where
  | start (moment : Moment)
  | receive (moment : Moment) (message : Message)
  | offer (moment : Moment) (vector : InventoryVector)
  | reassign (moment : Moment) (vectors : List InventoryVector)
  | tick (now : Nat)
  | disconnect (reason : DisconnectReason)
  | release

/-- What no action ever changes. -/
def Stock.settled (stock : Stock) : PeerId × Profile :=
  (stock.id, stock.profile)

namespace Link

def perform (link : Link) : Action → Link
  | .start moment => link.start moment
  | .receive moment message => (link.receive moment message).1
  | .offer moment vector => link.offer moment vector
  | .reassign moment vectors => link.reassign moment vectors
  | .tick now => link.tick now
  | .disconnect reason => link.disconnect reason
  | .release => link.release.2

/-- The messages that an action adds to the queue. -/
def queued (link : Link) (action : Action) : List Message :=
  (link.perform action).connection.queue.drop link.connection.queue.length

/-- What of the wanted vectors nobody has requested yet. -/
def asked (link : Link) (wanted : List InventoryVector) :
    List InventoryVector :=
  (link.node.requests.claim link.connection.id wanted).1

/-- One request for some vectors, or none where there is nothing to ask for. -/
def requestFor : List InventoryVector → List Message
  | [] => []
  | vectors => [.getdata vectors]

/-- What of the wanted vectors is free becomes the connection's, and its peer is
asked for it. -/
structure Asks (wanted : List InventoryVector) (now : Nat)
    (before after : Link) : Prop where
  stock : after.stock = { before.stock with
    requests := (before.node.requests.claim before.connection.id wanted).2
    outstanding :=
      before.connection.outstanding.insertMany (before.asked wanted)
    lastObjectAt :=
      if (before.asked wanted).isEmpty then before.connection.lastObjectAt
      else if before.connection.outstanding.isEmpty then now
      else before.connection.lastObjectAt }
  queue : after.connection.queue =
    before.connection.queue ++ requestFor (before.asked wanted)

/-- An awaited object is awaited no longer, and one that is accepted is held
from now on. -/
structure Delivers (moment : Moment) (vector : InventoryVector)
    (object : Object) (before after : Link) : Prop where
  stock : after.stock = { before.stock with
    inventory :=
      if before.node.accepts moment.clock vector object then
        before.node.inventory.store vector object
      else before.node.inventory
    requests :=
      if before.connection.outstanding.contains vector
        then before.node.requests.complete vector
      else before.node.requests
    outstanding :=
      if before.connection.outstanding.contains vector then
        before.connection.outstanding.erase vector
      else before.connection.outstanding
    lastObjectAt :=
      if before.connection.outstanding.contains vector then moment.instant
      else before.connection.lastObjectAt
    received :=
      if before.node.accepts moment.clock vector object
        then before.connection.received + 1
      else before.connection.received }
  queue : after.connection.queue = before.connection.queue

/-- Nothing is awaited any longer, and all that was awaited is free. -/
structure Releases (before after : Link) : Prop where
  stock : after.stock = { before.stock with
    requests := before.node.requests.release before.connection.id
      before.connection.outstanding.toList
    outstanding := ∅ }
  queue : after.connection.queue = before.connection.queue

section

variable {before after : Link} {wanted : List InventoryVector} {now : Nat}
  {moment : Moment} {vector : InventoryVector} {object : Object}

theorem Asks.requests (h : Asks wanted now before after) :
    after.node.requests =
      (before.node.requests.claim before.connection.id wanted).2 :=
  congrArg Stock.requests h.stock

theorem Asks.outstanding (h : Asks wanted now before after) :
    after.connection.outstanding =
      before.connection.outstanding.insertMany (before.asked wanted) :=
  congrArg Stock.outstanding h.stock

theorem Delivers.requests (h : Delivers moment vector object before after) :
    after.node.requests =
      if before.connection.outstanding.contains vector
        then before.node.requests.complete vector
      else before.node.requests :=
  congrArg Stock.requests h.stock

theorem Delivers.outstanding (h : Delivers moment vector object before after) :
    after.connection.outstanding =
      if before.connection.outstanding.contains vector then
        before.connection.outstanding.erase vector
      else before.connection.outstanding :=
  congrArg Stock.outstanding h.stock

theorem Releases.requests (h : Releases before after) :
    after.node.requests = before.node.requests.release before.connection.id
      before.connection.outstanding.toList :=
  congrArg Stock.requests h.stock

theorem Releases.outstanding (h : Releases before after) :
    after.connection.outstanding = ∅ :=
  congrArg Stock.outstanding h.stock

end

inductive Effect (link : Link) : Action → Link → Prop where
  | speech {action : Action} {after : Link}
      (h : Speaks link.node.Utterance link after) :
      Effect link action after
  | announced {moment : Moment} {offer : List InventoryVector} {after : Link}
      (hactive : link.connection.isActive = true)
      (h : Asks (link.node.inventory.missing offer link.node.profile.streams)
        moment.instant link after) :
      Effect link (.receive moment (.inv offer)) after
  | takenOver {moment : Moment} {vectors : List InventoryVector} {after : Link}
      (hactive : link.connection.isActive = true)
      (h : Asks (link.connection.known.knownOf vectors moment.instant).1
        moment.instant link after) :
      Effect link (.reassign moment vectors) after
  | delivered {moment : Moment} {object : Object} {vector : InventoryVector}
      {after : Link} (hactive : link.connection.isActive = true)
      (hvector : object.vector link.node.hasher = .ok vector)
      (h : Delivers moment vector object link after) :
      Effect link (.receive moment (.object object)) after
  | released {after : Link} (h : Releases link after) :
      Effect link .release after

variable (link : Link) (moment : Moment)

theorem asks_request (wanted : List InventoryVector) (known : KnownVectors)
    (now : Nat) :
    Asks wanted now link
      ⟨{ link.node with
          requests := (link.node.requests.claim link.connection.id wanted).2 },
        { link.connection with known := known }.request (link.asked wanted)
          now⟩ := by
  unfold Connection.request
  cases hasked : link.asked wanted with
  | nil =>
      refine ⟨?_, ?_⟩
      · rw [hasked, Std.HashSet.insertMany_nil]
        rfl
      · rw [hasked]
        exact (List.append_nil _).symm
  | cons vector rest =>
      refine ⟨?_, ?_⟩
      · rw [hasked]
        rfl
      · rw [hasked]
        rfl

theorem asks_receiveInventory (offer : List InventoryVector) :
    Asks (link.node.inventory.missing offer link.node.profile.streams)
      moment.instant link (link.receiveInventory moment offer) :=
  asks_request link _ _ _

theorem asks_reassign (vectors : List InventoryVector)
    (hactive : link.connection.isActive = true) :
    Asks (link.connection.known.knownOf vectors moment.instant).1 moment.instant
      link (link.reassign moment vectors) := by
  unfold reassign
  rw [if_pos hactive]
  exact asks_request link _ _ _

theorem releases_release : Releases link link.release.2 :=
  ⟨rfl, rfl⟩

theorem accepts_deliver (clock : Int64) (vector : InventoryVector)
    (object : Object) :
    ((link.remember vector moment.instant).deliver moment vector).node.accepts
      clock vector object = link.node.accepts clock vector object := by
  unfold deliver
  split <;> rfl

theorem delivers_receiveObject {object : Object} {vector : InventoryVector}
    (hvector : object.vector link.node.hasher = .ok vector) :
    Delivers moment vector object link
      (link.receiveObject moment object).1 := by
  have hsame := accepts_deliver link moment moment.clock vector object
  unfold receiveObject
  rw [hvector]
  dsimp only
  rw [hsame]
  by_cases haccepts : link.node.accepts moment.clock vector object = true
  · by_cases hawaited : link.connection.outstanding.contains vector = true
    · refine ⟨?_, ?_⟩ <;>
        simp [haccepts, hawaited, deliver, remember, stock, Node.store]
    · refine ⟨?_, ?_⟩ <;>
        simp [haccepts, hawaited, deliver, remember, stock, Node.store]
  · by_cases hawaited : link.connection.outstanding.contains vector = true
    · refine ⟨?_, ?_⟩ <;> simp [haccepts, hawaited, deliver, remember, stock]
    · refine ⟨?_, ?_⟩ <;> simp [haccepts, hawaited, deliver, remember, stock]

def hear (now : Nat) : Link :=
  { link with connection := { link.connection with lastActivity := now } }

variable {link} in
theorem perform_receive_of_connecting (h : link.connection.phase = .connecting)
    (moment : Moment) (message : Message) :
    link.perform (.receive moment message) =
      ((link.hear moment.instant).receiveConnecting moment message).1 := by
  simp [perform, receive, h, hear]

variable {link} in
theorem perform_receive_of_active (h : link.connection.phase = .active)
    (moment : Moment) (message : Message) :
    link.perform (.receive moment message) =
      ((link.hear moment.instant).receiveActive moment message).1 := by
  simp [perform, receive, h, hear]

theorem speaks_hear {allowed : Message → Prop} (now : Nat) :
    Speaks allowed link (link.hear now) :=
  Speaks.silent rfl rfl

theorem asks_hear_receiveInventory (offer : List InventoryVector) :
    Asks (link.node.inventory.missing offer link.node.profile.streams)
      moment.instant
      link ((link.hear moment.instant).receiveInventory moment offer) :=
  have h := asks_receiveInventory (link.hear moment.instant) moment offer
  ⟨h.stock, h.queue⟩

theorem effect_receiveActive (message : Message)
    (hactive : link.connection.isActive = true) :
    Effect link (.receive moment message)
      ((link.hear moment.instant).receiveActive moment message).1 := by
  let heard := link.hear moment.instant
  have hheard : Speaks link.node.Utterance link heard := speaks_hear link _
  cases message with
  | inv vectors =>
      exact .announced hactive (asks_hear_receiveInventory link moment vectors)
  | getdata vectors =>
      exact .speech (hheard.trans (speaks_receiveRequest heard moment vectors))
  | object object =>
      cases hvector : object.vector link.node.hasher with
      | error failure =>
          have hdropped : (heard.receiveObject moment object).1 = heard := by
            have hheardVector : object.vector heard.node.hasher =
                .error failure := hvector
            simp [receiveObject, hheardVector]
          exact .speech (hdropped ▸ hheard)
      | ok vector =>
          have h := delivers_receiveObject heard moment hvector
          exact .delivered hactive hvector ⟨h.stock, h.queue⟩
  | addr records => exact .speech (Speaks.silent rfl rfl)
  | version greeting => exact .speech (hheard.trans (speaks_disconnect heard _))
  | verack => exact .speech (hheard.trans (speaks_disconnect heard _))
  | custom request => exact .speech (hheard.trans (speaks_disconnect heard _))
  | unknown command payload => exact .speech hheard

theorem effect_receive (message : Message) :
    Effect link (.receive moment message) (link.receive moment message).1 := by
  unfold receive
  dsimp only
  split
  · exact .speech ((speaks_hear link _).trans
      (speaks_receiveConnecting (link.hear moment.instant) moment message))
  · rename_i hphase
    exact effect_receiveActive link moment message
      (by simp [Connection.isActive, hphase])
  · exact .speech (Speaks.refl link)

theorem effect_perform (action : Action) :
    Effect link action (link.perform action) := by
  cases action with
  | start moment => exact .speech (speaks_start link moment)
  | receive moment message => exact effect_receive link moment message
  | offer moment vector => exact .speech (speaks_offer link moment vector)
  | reassign moment vectors =>
      by_cases hactive : link.connection.isActive = true
      · exact .takenOver hactive (asks_reassign link moment vectors hactive)
      · have hsame : link.perform (.reassign moment vectors) = link := by
          simp [perform, reassign, hactive]
        rw [hsame]
        exact .speech (Speaks.refl link)
  | tick now => exact .speech (speaks_tick link now)
  | disconnect reason => exact .speech (speaks_disconnect link reason)
  | release => exact .released (releases_release link)

theorem field_perform {α : Type} (field : Stock → α)
    (hfield : ∀ stock inventory requests outstanding lastObjectAt received,
      field { stock with
        inventory := inventory
        requests := requests
        outstanding := outstanding
        lastObjectAt := lastObjectAt
        received := received } = field stock)
    (action : Action) : field (link.perform action).stock =
      field link.stock := by
  have heffect := effect_perform link action
  generalize link.perform action = after at heffect
  cases heffect with
  | speech hspeech => exact congrArg field hspeech.stock
  | announced hactive hasks =>
      rw [hasks.stock]
      exact hfield ..
  | takenOver hactive hasks =>
      rw [hasks.stock]
      exact hfield ..
  | delivered hactive hvector hdelivers =>
      rw [hdelivers.stock]
      exact hfield ..
  | released hreleases =>
      rw [hreleases.stock]
      exact hfield ..

theorem settled_perform (action : Action) :
    (link.perform action).stock.settled = link.stock.settled :=
  field_perform link Stock.settled (fun _ _ _ _ _ _ => rfl) action

theorem id_perform (action : Action) :
    (link.perform action).connection.id = link.connection.id :=
  congrArg (·.1) (settled_perform link action)

theorem profile_perform (action : Action) :
    (link.perform action).node.profile = link.node.profile :=
  congrArg (·.2) (settled_perform link action)

theorem engine_perform (action : Action) :
    (link.perform action).node.engine = link.node.engine :=
  field_perform link Stock.engine (fun _ _ _ _ _ _ => rfl) action

theorem mode_perform (action : Action) :
    (link.perform action).connection.mode = link.connection.mode :=
  field_perform link Stock.mode (fun _ _ _ _ _ _ => rfl) action

variable {link}

theorem queued_eq {action : Action} {said : List Message}
    (h : (link.perform action).connection.queue =
      link.connection.queue ++ said) :
    link.queued action = said := by
  rw [queued, h, List.drop_left]

theorem mem_requestFor {vectors : List InventoryVector} {message : Message} :
    message ∈ requestFor vectors ↔ vectors ≠ [] ∧
    message = .getdata vectors := by
  cases vectors with
  | nil => simp [requestFor]
  | cons vector rest => simp [requestFor]

/-- Where the objects come from that a connection wants. -/
inductive Wants (link : Link) : Action → List InventoryVector → Prop where
  | announced (moment : Moment) (offer : List InventoryVector) :
      Wants link (.receive moment (.inv offer))
        (link.node.inventory.missing offer link.node.profile.streams)
  | takenOver (moment : Moment) (vectors : List InventoryVector) :
      Wants link (.reassign moment vectors)
        (link.connection.known.knownOf vectors moment.instant).1

theorem queued_cases {action : Action} {message : Message}
    (h : message ∈ link.queued action) :
    link.node.Utterance message ∨
      ∃ wanted, link.connection.isActive = true ∧ link.Wants action wanted ∧
        message = .getdata (link.asked wanted) := by
  have heffect := effect_perform link action
  generalize hafter : link.perform action = after at heffect
  cases heffect with
  | speech hspeech =>
      obtain ⟨said, hqueue, hallowed⟩ := hspeech.queue
      rw [queued_eq (hafter ▸ hqueue)] at h
      exact .inl (hallowed message h)
  | announced hactive hasks =>
      rw [queued_eq (hafter ▸ hasks.queue), mem_requestFor] at h
      exact .inr ⟨_, hactive, .announced _ _, h.2⟩
  | takenOver hactive hasks =>
      rw [queued_eq (hafter ▸ hasks.queue), mem_requestFor] at h
      exact .inr ⟨_, hactive, .takenOver _ _, h.2⟩
  | delivered hactive hvector hdelivers =>
      have hsilent := hdelivers.queue.trans (List.append_nil _).symm
      rw [queued_eq (hafter ▸ hsilent)] at h
      cases h
  | released hreleases =>
      have hsilent := hreleases.queue.trans (List.append_nil _).symm
      rw [queued_eq (hafter ▸ hsilent)] at h
      cases h

theorem asks_announcement (moment : Moment) (offer : List InventoryVector)
    (hactive : link.connection.phase = .active) :
    Asks (link.node.inventory.missing offer link.node.profile.streams)
      moment.instant link (link.perform (.receive moment (.inv offer))) := by
  rw [perform_receive_of_active hactive]
  exact asks_hear_receiveInventory link moment offer

theorem queued_reassign (moment : Moment) (vectors : List InventoryVector)
    (hactive : link.connection.isActive = true) :
    link.queued (.reassign moment vectors) =
      requestFor
        (link.asked (link.connection.known.knownOf vectors moment.instant).1) :=
  queued_eq (asks_reassign link moment vectors hactive).queue

end Link

end ObjectRelay
