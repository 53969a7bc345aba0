import ObjectRelay.Proofs.Connection.Lifecycle
import ObjectRelay.Proofs.Connection.Storing

namespace ObjectRelay

/-- What the greeting of a node says of it, wherever it is sent. -/
structure Introduces (profile : Profile) (greeting : Greeting) : Prop where
  nonce : greeting.nonce = profile.nonce
  version : greeting.version = protocolVersion
  streams : greeting.streams = profile.streams

theorem Node.introduces_greeting (node : Node) (remote : SocketAddress)
    (clock : Int64) :
    Introduces node.profile (node.greeting remote clock) :=
  ⟨rfl, rfl, rfl⟩

theorem Introduces.welcomes {own other : Profile} {greeting : Greeting}
    (h : Introduces other greeting) (hnonce : other.nonce ≠ own.nonce) :
    Link.Welcomes own greeting := by
  refine ⟨?_, ?_⟩
  · rw [h.nonce]
    exact hnonce
  · rw [h.version]
    decide

namespace Message

/-- What an active connection hears without ending. -/
def IsGossip : Message → Prop
  | addr _ | inv _ | getdata _ | object _ => True
  | version _ | verack | custom _ | unknown _ _ => False

end Message

/-- What two peers have agreed on, and how far they have come. -/
structure Bearing where
  profile : Profile
  mode : Mode
  phase : Phase
  peer? : Option PeerIdentity
  streams : List UInt64

namespace Link

def bearing (link : Link) : Bearing where
  profile := link.node.profile
  mode := link.connection.mode
  phase := link.connection.phase
  peer? := link.connection.peer?
  streams := link.connection.streams

/-- The connection waits for a greeting. -/
structure Waits (link : Link) : Prop where
  phase : link.connection.phase = .connecting
  peer : link.connection.peer? = none

/-- The peer has greeted: both speak one version, and share the streams that
both name. -/
structure Met (other : Profile) (link : Link) : Prop where
  version : link.connection.peer?.map (·.version) = some protocolVersion
  streams : link.connection.streams = link.node.profile.streams.filter
    fun stream =>
    other.streams.contains stream

/-- The peer has greeted and was answered. -/
structure Greeted (other : Profile) (link : Link) : Prop where
  phase : link.connection.phase = .connecting
  met : link.Met other

/-- The handshake is over. -/
structure Engaged (other : Profile) (link : Link) : Prop where
  phase : link.connection.phase = .active
  met : link.Met other

/-- The bearing is the same, and only gossip was queued. -/
structure Chats (before after : Link) : Prop where
  bearing : after.bearing = before.bearing
  queue : ∃ said, after.connection.queue = before.connection.queue ++ said ∧
    ∀ message ∈ said, message.IsGossip

variable {link before after : Link} {own other : Profile} {greeting : Greeting}
  {said : List Message} {message : Message}

theorem Waits.congr (h : before.Waits)
    (hsame : after.bearing = before.bearing) : after.Waits :=
  ⟨(congrArg Bearing.phase hsame).trans h.phase,
    (congrArg Bearing.peer? hsame).trans h.peer⟩

theorem Met.congr (h : before.Met other)
    (hsame : after.bearing = before.bearing) :
    after.Met other := by
  have hpeer : after.connection.peer? = before.connection.peer? :=
    congrArg Bearing.peer? hsame
  have hstreams : after.connection.streams = before.connection.streams :=
    congrArg Bearing.streams hsame
  have hprofile : after.node.profile = before.node.profile :=
    congrArg Bearing.profile hsame
  refine ⟨?_, ?_⟩
  · rw [hpeer]
    exact h.version
  · rw [hstreams, hprofile]
    exact h.streams

theorem Greeted.congr (h : before.Greeted other)
    (hsame : after.bearing = before.bearing) :
    after.Greeted other :=
  ⟨(congrArg Bearing.phase hsame).trans h.phase, h.met.congr hsame⟩

theorem Engaged.congr (h : before.Engaged other)
    (hsame : after.bearing = before.bearing) :
    after.Engaged other :=
  ⟨(congrArg Bearing.phase hsame).trans h.phase, h.met.congr hsame⟩

theorem Met.isSome_peer? (h : link.Met other) :
    link.connection.peer?.isSome = true := by
  rw [← Option.isSome_map (f := (·.version)), h.version]
  rfl

theorem met_meet (hintroduces : Introduces other greeting) :
    (link.meet greeting).Met other := by
  refine ⟨?_, ?_⟩
  · simp only [meet, Option.map_some, hintroduces.version]
    rfl
  · simp only [meet, hintroduces.streams]

theorem Floods.isGossip (h : link.Floods said) (hmem : message ∈ said) :
    message.IsGossip := by
  obtain ⟨told, htold, rfl⟩ := h
  rcases List.mem_append.mp hmem with haddress | hannounced
  · obtain ⟨records, rfl⟩ := htold message haddress
    trivial
  · obtain ⟨part, rfl, -⟩ := Message.eq_inv_of_mem_announce hannounced
    trivial

theorem exists_answer_of_greeting (hwaits : link.Waits)
    (hmode : link.connection.mode = .server)
    (hintroduces : Introduces other greeting)
    (hnonce : other.nonce ≠ link.node.profile.nonce) (moment : Moment) :
    let after := link.perform (.receive moment (.version greeting))
    after.Greeted other ∧ ∃ answer, Introduces link.node.profile answer ∧
      after.connection.queue =
        link.connection.queue ++ [.verack, .version answer] := by
  have hwelcome := hintroduces.welcomes hnonce
  have hanswered : link.perform (.receive moment (.version greeting)) =
      ((((link.hear moment.instant).meet greeting).send .verack).greet
        moment) := by
    rw [perform_receive_of_connecting hwaits.phase, receiveConnecting,
      receiveGreeting]
    simp [hear, hwaits.peer, hwelcome.nonce, hwelcome.version, hmode]
  have hmet : ((link.hear moment.instant).meet greeting).Met other :=
    met_meet hintroduces
  rw [hanswered]
  refine ⟨⟨hwaits.phase, hmet.congr rfl⟩, _,
    link.node.introduces_greeting link.connection.remote moment.clock, ?_⟩
  simp [greet, send, Connection.send, meet, hear]

/-- A connection has just become active, with these words. -/
structure Opens (other : Profile) (after : Link) (said : List Message) :
    Prop where
  engaged : after.Engaged other
  floods : after.Floods said

theorem exists_opens_activate (hmet : link.Met other) (moment : Moment) :
    ∃ said, Opens other (link.activate moment) said ∧
      (link.activate moment).connection.queue =
        link.connection.queue ++ said := by
  obtain ⟨said, hfloods, hconnection⟩ := exists_connection_activate link moment
  have hstock := (speaks_activate link moment).stock
  have hprofile : (link.activate moment).node.profile = link.node.profile :=
    congrArg Stock.profile hstock
  have hinventory : (link.activate moment).node.inventory =
      link.node.inventory :=
    congrArg Stock.inventory hstock
  refine ⟨said, ⟨⟨activate_phase moment, ?_, ?_⟩, ?_⟩, ?_⟩
  · rw [hconnection]
    exact hmet.version
  · rw [activate_streams, hprofile]
    exact hmet.streams
  · rw [Floods, activate_streams, hinventory]
    exact hfloods
  · rw [hconnection]

theorem exists_opens_of_greeting (hwaits : link.Waits)
    (hmode : link.connection.mode ≠ .server)
    (hintroduces : Introduces other greeting)
    (hnonce : other.nonce ≠ link.node.profile.nonce) (moment : Moment) :
    let after := link.perform (.receive moment (.version greeting))
    ∃ said, Opens other after said ∧
      after.connection.queue = link.connection.queue ++ .verack :: said := by
  have hwelcome := hintroduces.welcomes hnonce
  let acknowledged := ((link.hear moment.instant).meet greeting).send .verack
  have hopened : link.perform (.receive moment (.version greeting)) =
      acknowledged.activate moment := by
    rw [perform_receive_of_connecting hwaits.phase, receiveConnecting,
      receiveGreeting]
    cases hcase : link.connection.mode with
    | server => exact absurd hcase hmode
    | client =>
        simp [hear, hwaits.peer, hwelcome.nonce, hwelcome.version, hcase,
          acknowledged]
    | sync =>
        simp [hear, hwaits.peer, hwelcome.nonce, hwelcome.version, hcase,
          acknowledged]
  have hmet : acknowledged.Met other := (met_meet hintroduces).congr rfl
  obtain ⟨said, hopens, hqueue⟩ := exists_opens_activate hmet moment
  rw [hopened]
  refine ⟨said, hopens, ?_⟩
  rw [hqueue]
  simp [acknowledged, send, Connection.send, meet, hear]

/-- An accepted connection is active once its own greeting is acknowledged. -/
theorem exists_opens_of_verack (hgreeted : link.Greeted other)
    (hmode : link.connection.mode = .server) (moment : Moment) :
    let after := link.perform (.receive moment .verack)
    ∃ said, Opens other after said ∧
      after.connection.queue = link.connection.queue ++ said := by
  have hopened : link.perform (.receive moment .verack) =
      (link.hear moment.instant).activate moment := by
    rw [perform_receive_of_connecting hgreeted.phase, receiveConnecting,
      receiveVerack]
    simp [hear, hmode, hgreeted.met.isSome_peer?]
  rw [hopened]
  exact exists_opens_activate (hgreeted.met.congr rfl) moment

/-- A dialed connection has nothing to do where its greeting is acknowledged. -/
theorem perform_verack_of_dialed (hwaits : link.Waits)
    (hmode : link.connection.mode ≠ .server) (moment : Moment) :
    link.perform (.receive moment .verack) = link.hear moment.instant := by
  rw [perform_receive_of_connecting hwaits.phase, receiveConnecting,
    receiveVerack]
  cases hcase : link.connection.mode with
  | server => exact absurd hcase hmode
  | client => simp [hear, hcase]
  | sync => simp [hear, hcase]

theorem stock_of_version (link : Link) (moment : Moment) (greeting : Greeting) :
    (link.perform (.receive moment (.version greeting))).stock =
      link.stock := by
  cases effect_perform link (.receive moment (.version greeting)) with
  | speech hspeech => exact hspeech.stock

theorem stock_of_verack (link : Link) (moment : Moment) :
    (link.perform (.receive moment .verack)).stock = link.stock := by
  cases effect_perform link (.receive moment .verack) with
  | speech hspeech => exact hspeech.stock

theorem Chats.refl (link : Link) : Chats link link :=
  ⟨rfl, [], (List.append_nil _).symm, by simp⟩

theorem chats_of_requestFor {wanted : List InventoryVector}
    (hbearing : after.bearing = before.bearing)
    (hqueue : after.connection.queue =
      before.connection.queue ++ requestFor wanted) :
    Chats before after := by
  refine ⟨hbearing, _, hqueue, ?_⟩
  intro message hmem
  obtain ⟨-, rfl⟩ := mem_requestFor.mp hmem
  trivial

theorem bearing_request (node : Node) (connection : Connection)
    (vectors : List InventoryVector) (now : Nat) :
    (⟨node, connection.request vectors now⟩ : Link).bearing =
      (⟨node, connection⟩ : Link).bearing := by
  unfold Connection.request
  split <;> rfl

/-- The objects that are held are sent, in the order in which they were asked
for. -/
theorem exists_receiveRequest_eq (link : Link) (moment : Moment)
    (vectors : List InventoryVector) :
    ∃ known, link.receiveRequest moment vectors = { link with
      connection := { link.connection with
        known := known
        queue := link.connection.queue ++
          (vectors.filterMap link.node.inventory.get?).map .object } } := by
  unfold receiveRequest
  induction vectors generalizing link with
  | nil => exact ⟨link.connection.known, by simp⟩
  | cons vector rest ih =>
      obtain ⟨known, hrest⟩ := ih (serve moment link vector)
      refine ⟨known, ?_⟩
      rw [List.foldl_cons, hrest, serve]
      cases hheld : link.node.inventory.get? vector with
      | none => simp [hheld]
      | some object => simp [hheld, remember, send, Connection.send]

theorem bearing_receiveObject (link : Link) (moment : Moment)
    (object : Object) :
    (link.receiveObject moment object).1.bearing = link.bearing := by
  unfold receiveObject
  split
  · rfl
  · rename_i vector _
    have hdeliver :
        ((link.remember vector moment.instant).deliver moment vector).bearing =
        link.bearing := by
      unfold deliver
      split <;> rfl
    dsimp only
    split
    · exact hdeliver
    · exact hdeliver

theorem queue_receiveObject (link : Link) (moment : Moment) (object : Object) :
    (link.receiveObject moment object).1.connection.queue =
      link.connection.queue := by
  cases hvector : object.vector link.node.hasher with
  | error failure => simp [receiveObject, hvector]
  | ok vector => exact (delivers_receiveObject link moment hvector).queue

theorem chats_receive (hactive : link.connection.phase = .active)
    (moment : Moment) (hgossip : message.IsGossip) :
    Chats link (link.perform (.receive moment message)) := by
  cases message with
  | inv vectors =>
      refine chats_of_requestFor ?_
        (asks_announcement moment vectors hactive).queue
      rw [perform_receive_of_active hactive]
      exact bearing_request _ _ _ _
  | getdata vectors =>
      obtain ⟨known, hserved⟩ :=
        exists_receiveRequest_eq (link.hear moment.instant) moment vectors
      rw [perform_receive_of_active hactive, receiveActive, hserved]
      refine ⟨rfl, _, rfl, ?_⟩
      intro message hmem
      obtain ⟨object, -, rfl⟩ := List.mem_map.mp hmem
      trivial
  | object object =>
      rw [perform_receive_of_active hactive]
      exact ⟨bearing_receiveObject _ moment object, [],
        (queue_receiveObject _ moment object).trans (List.append_nil _).symm, by
          simp⟩
  | addr records =>
      rw [perform_receive_of_active hactive]
      exact ⟨rfl, [], (List.append_nil _).symm, by simp⟩
  | _ => exact hgossip.elim

theorem chats_offer (link : Link) (moment : Moment) (vector : InventoryVector) :
    Chats link (link.perform (.offer moment vector)) := by
  rw [perform, offer]
  split
  · exact ⟨rfl, [.inv [vector]], rfl, by simp [Message.IsGossip]⟩
  · exact Chats.refl link

theorem chats_reassign (link : Link) (moment : Moment)
    (vectors : List InventoryVector) :
    Chats link (link.perform (.reassign moment vectors)) := by
  by_cases hactive : link.connection.isActive = true
  · refine chats_of_requestFor ?_
      (asks_reassign link moment vectors hactive).queue
    rw [perform, reassign, if_pos hactive]
    exact bearing_request _ _ _ _
  · rw [perform, reassign, if_neg hactive]
    exact Chats.refl link

end Link

end ObjectRelay
