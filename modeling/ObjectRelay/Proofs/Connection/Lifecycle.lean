import ObjectRelay.Proofs.Connection.Ending

namespace ObjectRelay

namespace Phase

def rank : Phase → Nat
  | connecting => 0
  | active => 1
  | disconnected _ => 2

end Phase

namespace Action

def greeting? : Action → Option Greeting
  | receive _ (.version greeting) => some greeting
  | _ => none

end Action

namespace Link

variable {link : Link}

theorem foldl_send (messages : List Message) (link : Link) :
    messages.foldl send link =
      { link with connection :=
        { link.connection with
          queue := link.connection.queue ++ messages } } := by
  induction messages generalizing link with
  | nil => simp
  | cons message rest ih =>
      rw [List.foldl_cons, ih]
      simp [send, Connection.send]

structure Persists (before after : Link) : Prop where
  streams : after.connection.streams = before.connection.streams
  phase : after.connection.phase = before.connection.phase ∨
    after.connection.isDisconnected = true

theorem Persists.refl (link : Link) : Persists link link :=
  ⟨rfl, .inl rfl⟩

theorem Persists.trans {before middle after : Link}
    (hfirst : Persists before middle) (hsecond : Persists middle after) :
    Persists before after := by
  refine ⟨hsecond.streams.trans hfirst.streams, ?_⟩
  rcases hsecond.phase with hsame | hended
  · rw [Connection.isDisconnected, Connection.reason?, hsame]
    exact hfirst.phase
  · exact .inr hended

theorem persists_disconnect (link : Link) (reason : DisconnectReason) :
    Persists link (link.disconnect reason) := by
  refine ⟨?_, .inr (link.connection.isDisconnected_disconnect reason)⟩
  cases hphase : link.connection.phase <;>
    simp [disconnect, Connection.disconnect, hphase]

theorem persists_serve (moment : Moment) (link : Link)
    (vector : InventoryVector) :
    Persists link (serve moment link vector) := by
  unfold serve
  split
  · exact ⟨rfl, .inl rfl⟩
  · exact Persists.refl link

theorem persists_receiveRequest (moment : Moment)
    (vectors : List InventoryVector) (link : Link) :
    Persists link (link.receiveRequest moment vectors) := by
  unfold receiveRequest
  induction vectors generalizing link with
  | nil => exact Persists.refl link
  | cons vector rest ih =>
      exact (persists_serve moment link vector).trans (ih _)

theorem streams_request (connection : Connection)
    (vectors : List InventoryVector) (now : Nat) :
    (connection.request vectors now).streams = connection.streams := by
  unfold Connection.request
  split <;> rfl

theorem phase_request (connection : Connection) (vectors : List InventoryVector)
    (now : Nat) :
    (connection.request vectors now).phase = connection.phase := by
  unfold Connection.request
  split <;> rfl

theorem persists_receiveObject (moment : Moment) (object : Object) :
    Persists link (link.receiveObject moment object).1 := by
  have hdeliver : ∀ vector, Persists link
      ((link.remember vector moment.instant).deliver moment vector) := by
    intro vector
    unfold deliver
    split <;> exact ⟨rfl, .inl rfl⟩
  unfold receiveObject
  split
  · exact Persists.refl link
  · rename_i vector _
    dsimp only
    split
    · exact (hdeliver vector).trans ⟨rfl, .inl rfl⟩
    · exact hdeliver vector

theorem persists_receiveActive (moment : Moment) (message : Message) :
    Persists link (link.receiveActive moment message).1 := by
  cases message with
  | inv vectors => exact ⟨streams_request _ _ _, .inl (phase_request _ _ _)⟩
  | getdata vectors => exact persists_receiveRequest moment vectors link
  | object object => exact persists_receiveObject moment object
  | addr records => exact ⟨rfl, .inl rfl⟩
  | version greeting => exact persists_disconnect link _
  | verack => exact persists_disconnect link _
  | custom request => exact persists_disconnect link _
  | unknown command payload => exact Persists.refl link

theorem persists_perform (h : link.connection.isActive = true) {action : Action}
    (hcall : action.IsCall) : Persists link (link.perform action) := by
  have hphase : link.connection.phase =
      .active := by simpa [Connection.isActive] using h
  cases action with
  | start moment => cases hcall
  | receive moment message =>
      have hactive : Persists (link.hear moment.instant)
          ((link.hear moment.instant).receiveActive moment message).1 :=
        persists_receiveActive moment message
      rw [perform_receive_of_active hphase]
      exact ⟨hactive.streams, hactive.phase⟩
  | offer moment vector =>
      rw [perform, offer]
      split
      · exact ⟨rfl, .inl rfl⟩
      · exact Persists.refl link
  | reassign moment vectors =>
      rw [perform, reassign, if_pos h]
      exact ⟨streams_request _ _ _, .inl (phase_request _ _ _)⟩
  | tick now =>
      rw [perform, tick]
      split
      · exact persists_disconnect link _
      · exact Persists.refl link
  | disconnect reason => exact persists_disconnect link reason
  | release => cases hcall

/-- All that a handshake reads and writes but the phase. -/
structure Standing where
  node : Node
  mode : Mode
  remote : SocketAddress
  peer? : Option PeerIdentity
  streams : List UInt64
  queue : List Message

def standing (link : Link) : Standing where
  node := link.node
  mode := link.connection.mode
  remote := link.connection.remote
  peer? := link.connection.peer?
  streams := link.connection.streams
  queue := link.connection.queue

structure Welcomes (profile : Profile) (greeting : Greeting) : Prop where
  nonce : greeting.nonce ≠ profile.nonce
  version : ¬ greeting.version < leastProtocolVersion

inductive Advance (link : Link) : Action → Link → Prop where
  | waits {action : Action} {after : Link} (hgreeting : action.greeting? = none)
      (hphase : after.connection.phase = .connecting)
        (hstanding : after.standing = link.standing) :
      Advance link action after
  | ends {action : Action} {after : Link}
      (hphase : after.connection.isDisconnected = true)
      (hstanding : after.standing = link.standing) :
      Advance link action after
  | answers {moment : Moment} {answer : CustomMessage → Option CustomMessage}
      {request response : CustomMessage} {after : Link}
      (hmode : link.connection.mode = .server)
        (hpeer : link.connection.peer? = none)
      (hanswer : link.node.profile.answer? = some answer)
      (hresponse : answer request = some response)
      (hphase : after.connection.isDisconnected = true)
      (hstanding : after.standing =
        { link.standing with
          queue := link.connection.queue ++ [.custom response] }) :
      Advance link (.receive moment (.custom request)) after
  | meets {moment : Moment} {greeting : Greeting} {after : Link}
      (hmode : link.connection.mode = .server)
        (hpeer : link.connection.peer? = none)
      (hwelcome : Welcomes link.node.profile greeting)
      (hphase : after.connection.phase = .connecting)
      (hstanding : after.standing = { (link.meet greeting).standing with
        queue := link.connection.queue ++
          [.verack, .version
            (link.node.greeting link.connection.remote moment.clock)] }) :
      Advance link (.receive moment (.version greeting)) after
  | connects {moment : Moment} {greeting : Greeting} {after : Link}
      (hmode : link.connection.mode ≠ .server)
        (hpeer : link.connection.peer? = none)
      (hwelcome : Welcomes link.node.profile greeting)
      (hphase : after.connection.phase = .active)
      (hstreams : after.connection.streams =
        (link.meet greeting).connection.streams) :
      Advance link (.receive moment (.version greeting)) after
  | confirms {moment : Moment} {after : Link}
      (hmode : link.connection.mode = .server)
        (hpeer : link.connection.peer?.isSome = true)
      (hphase : after.connection.phase = .active)
      (hstreams : after.connection.streams = link.connection.streams) :
      Advance link (.receive moment .verack) after

theorem standing_disconnect (link : Link) (reason : DisconnectReason) :
    (link.disconnect reason).standing = link.standing := by
  cases hphase : link.connection.phase <;>
    simp [disconnect, Connection.disconnect, hphase, standing]

theorem advance_disconnect (link : Link) (action : Action)
    (reason : DisconnectReason) :
    Advance link action (link.disconnect reason) :=
  .ends (link.connection.isDisconnected_disconnect reason)
    (standing_disconnect link reason)

/-- Addresses at most, and then the inventory. -/
def Floods (link : Link) (said : List Message) : Prop :=
  ∃ told, (∀ message ∈ told, ∃ records, message = .addr records) ∧
    said = told ++
      Message.announce (link.node.inventory.vectors link.connection.streams)

/-- Becoming active changes nothing of a connection but its phase and its
queue. -/
theorem exists_connection_activate (link : Link) (moment : Moment) :
    ∃ said, link.Floods said ∧
      (link.activate moment).connection = { link.connection with
      phase := .active
      lastActivity := moment.instant
      queue := link.connection.queue ++ said } := by
  unfold activate tellInventory learnPeer tellAddresses
  rw [foldl_send]
  dsimp only
  split
  · exact ⟨_, ⟨[], by simp, rfl⟩, rfl⟩
  · split
    · exact ⟨_, ⟨[], by simp, rfl⟩, rfl⟩
    · exact ⟨_, ⟨[.addr _], by simp, rfl⟩, by rw [← List.append_assoc]; rfl⟩

theorem activate_phase (moment : Moment) :
    (link.activate moment).connection.phase = .active := by
  obtain ⟨said, -, hconnection⟩ := exists_connection_activate link moment
  rw [hconnection]

theorem activate_streams (moment : Moment) :
    (link.activate moment).connection.streams = link.connection.streams := by
  obtain ⟨said, -, hconnection⟩ := exists_connection_activate link moment
  rw [hconnection]

theorem activate_known (moment : Moment) :
    (link.activate moment).connection.known = link.connection.known := by
  obtain ⟨said, -, hconnection⟩ := exists_connection_activate link moment
  rw [hconnection]

theorem advance_receiveGreeting (hphase : link.connection.phase = .connecting)
    (moment : Moment) (greeting : Greeting) :
    Advance link (.receive moment (.version greeting))
      (link.receiveGreeting moment greeting).1 := by
  unfold receiveGreeting
  split
  · exact advance_disconnect link _ _
  · rename_i hpeer
    rw [Option.not_isSome_iff_eq_none] at hpeer
    split
    · exact advance_disconnect link _ _
    · rename_i hnonce
      split
      · exact advance_disconnect link _ _
      · rename_i hversion
        have hwelcome : Welcomes link.node.profile greeting :=
          ⟨hnonce, hversion⟩
        dsimp only
        split
        · rename_i hmode
          refine .meets hmode hpeer hwelcome hphase ?_
          simp [standing, greet, meet, send, Connection.send]
        · rename_i hmode
          exact .connects (by simp [hmode]) hpeer hwelcome
            (activate_phase moment) (activate_streams moment)
        · rename_i hmode
          exact .connects (by simp [hmode]) hpeer hwelcome
            (activate_phase moment) (activate_streams moment)

theorem advance_receiveVerack (hphase : link.connection.phase = .connecting)
    (moment : Moment) :
    Advance link (.receive moment .verack) (link.receiveVerack moment).1 := by
  unfold receiveVerack
  split
  · rename_i hmode
    split
    · rename_i hpeer
      exact .confirms hmode hpeer (activate_phase moment)
        (activate_streams moment)
    · exact advance_disconnect link _ _
  · exact .waits rfl hphase rfl
  · exact .waits rfl hphase rfl

theorem advance_receiveCustom (moment : Moment) (request : CustomMessage) :
    Advance link (.receive moment (.custom request))
      (link.receiveCustom request) := by
  unfold receiveCustom
  split
  · rename_i answer hmode hpeer hanswer
    dsimp only
    cases hresponse : answer request with
    | none => exact advance_disconnect link _ _
    | some response =>
        exact .answers hmode hpeer hanswer hresponse
          ((link.send _).connection.isDisconnected_disconnect _)
            (standing_disconnect _ _)
  · exact advance_disconnect link _ _

theorem advance_receiveConnecting (hphase : link.connection.phase = .connecting)
    (moment : Moment) (message : Message) :
    Advance link (.receive moment message)
      (link.receiveConnecting moment message).1 := by
  cases message with
  | version greeting => exact advance_receiveGreeting hphase moment greeting
  | verack => exact advance_receiveVerack hphase moment
  | custom request => exact advance_receiveCustom moment request
  | _ => exact .waits rfl hphase rfl

theorem standing_meet_congr {other : Link}
    (hsame : link.standing = other.standing) (greeting : Greeting) :
    (link.meet greeting).standing = (other.meet greeting).standing := by
  obtain ⟨node, connection⟩ := link
  obtain ⟨otherNode, otherConnection⟩ := other
  simp only [standing, Standing.mk.injEq] at hsame
  obtain ⟨rfl, hmode, hremote, -, -, hqueue⟩ := hsame
  simp [standing, meet, hmode, hremote, hqueue]

theorem Advance.congr {other : Link} (hsame : link.standing = other.standing)
    {action : Action} {after : Link} (h : Advance link action after) :
    Advance other action after := by
  have hnode : link.node = other.node := congrArg Standing.node hsame
  have hsameMode : link.connection.mode = other.connection.mode :=
    congrArg Standing.mode hsame
  have hsamePeer : link.connection.peer? = other.connection.peer? :=
    congrArg Standing.peer? hsame
  have hsameRemote : link.connection.remote = other.connection.remote :=
    congrArg Standing.remote hsame
  have hsameQueue : link.connection.queue = other.connection.queue :=
    congrArg Standing.queue hsame
  cases h with
  | waits hgreeting hphase hstanding =>
      exact .waits hgreeting hphase (hstanding.trans hsame)
  | ends hphase hstanding => exact .ends hphase (hstanding.trans hsame)
  | answers hmode hpeer hanswer hresponse hphase hstanding =>
      rw [hsameMode] at hmode
      rw [hsamePeer] at hpeer
      rw [hnode] at hanswer
      rw [hsame, hsameQueue] at hstanding
      exact .answers hmode hpeer hanswer hresponse hphase hstanding
  | meets hmode hpeer hwelcome hphase hstanding =>
      rw [hsameMode] at hmode
      rw [hsamePeer] at hpeer
      rw [hnode] at hwelcome
      rw [standing_meet_congr hsame, hnode, hsameQueue, hsameRemote]
        at hstanding
      exact .meets hmode hpeer hwelcome hphase hstanding
  | connects hmode hpeer hwelcome hphase hstreams =>
      rw [hsameMode] at hmode
      rw [hsamePeer] at hpeer
      rw [hnode] at hwelcome
      exact .connects hmode hpeer hwelcome hphase
        (hstreams.trans
          (congrArg Standing.streams (standing_meet_congr hsame _)))
  | confirms hmode hpeer hphase hstreams =>
      rw [hsameMode] at hmode
      rw [hsamePeer] at hpeer
      exact .confirms hmode hpeer hphase
        (hstreams.trans (congrArg Standing.streams hsame))

theorem advance_perform (hphase : link.connection.phase = .connecting)
    {action : Action} (hcall : action.IsCall) :
    Advance link action (link.perform action) := by
  have hidle : link.connection.isActive =
      false := by simp [Connection.isActive, hphase]
  cases action with
  | start moment => cases hcall
  | receive moment message =>
      have hheardPhase : (link.hear moment.instant).connection.phase =
          .connecting := hphase
      have hsame : (link.hear moment.instant).standing = link.standing := rfl
      rw [perform_receive_of_connecting hphase]
      exact (advance_receiveConnecting hheardPhase moment message).congr hsame
  | offer moment vector =>
      have hsame : link.perform (.offer moment vector) =
          link := by simp [perform, offer, hidle]
      rw [hsame]
      exact .waits rfl hphase rfl
  | reassign moment vectors =>
      have hsame : link.perform (.reassign moment vectors) = link := by
        simp [perform, reassign, hidle]
      rw [hsame]
      exact .waits rfl hphase rfl
  | tick now =>
      rw [perform, tick]
      split
      · exact advance_disconnect link _ _
      · exact .waits rfl hphase rfl
  | disconnect reason => exact advance_disconnect link _ reason
  | release => cases hcall

theorem rank_of_isDisconnected {connection : Connection}
    (h : connection.isDisconnected = true) :
    connection.phase.rank = 2 := by
  obtain ⟨reason, hphase⟩ := Connection.exists_reason_of_isDisconnected h
  rw [hphase]
  rfl

theorem rank_le_perform (link : Link) {action : Action}
    (hcall : action.IsCall) :
    link.connection.phase.rank ≤
      (link.perform action).connection.phase.rank := by
  cases hphase : link.connection.phase with
  | connecting => exact Nat.zero_le _
  | active =>
      have hactive : link.connection.isActive =
          true := by simp [Connection.isActive, hphase]
      rcases (persists_perform hactive hcall).phase with hsame | hended
      · exact Nat.le_of_eq (by rw [hsame, hphase])
      · rw [rank_of_isDisconnected hended]
        decide
  | disconnected reason =>
      have hended : link.connection.isDisconnected = true := by
        simp [Connection.isDisconnected, Connection.reason?, hphase]
      exact Nat.le_of_eq
        (by rw [perform_of_isDisconnected hended hcall, hphase])

end Link

end ObjectRelay
