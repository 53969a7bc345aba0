import ObjectRelay.Proofs.Connection.Meeting

namespace ObjectRelay

/-- When the owner of the connection does it; disconnecting and releasing read
no clock. -/
def Action.instant? : Action → Option Nat
  | start moment | receive moment _ | offer moment _ | reassign moment _ =>
    some moment.instant
  | tick now => some now
  | disconnect _ | release => none

namespace Link

variable {link after : Link} {action : Action} {wanted : List InventoryVector}
  {now : Nat}

/-- The connection begins to wait, or gets something that it waits for. -/
inductive Progresses (link : Link) : Action → Nat → Prop where
  | begins {action : Action} {now : Nat} (hinstant : action.instant? = some now)
      (hidle : link.connection.outstanding.isEmpty = true)
      (hwaits : (link.perform action).connection.outstanding.isEmpty = false) :
      Progresses link action now
  | delivered {moment : Moment} {object : Object} {vector : InventoryVector}
      (hactive : link.connection.isActive = true)
      (hvector : object.vector link.node.hasher = .ok vector)
      (hawaited : link.connection.outstanding.contains vector = true) :
      Progresses link (.receive moment (.object object)) moment.instant

/-- What is heard or done in the meantime: nothing new is awaited where nothing
was, and nothing comes that is awaited. -/
def Chatters (link : Link) : Action → Prop
  | .receive _ (.inv vectors) =>
      link.connection.outstanding.isEmpty = false ∨
        link.asked
          (link.node.inventory.missing vectors link.node.profile.streams) = []
  | .receive _ (.object object) => ∀ vector, object.vector link.node.hasher =
    .ok vector →
      link.connection.outstanding.contains vector = false
  | .reassign moment vectors =>
      link.connection.outstanding.isEmpty = false ∨
        link.asked (link.connection.known.knownOf vectors moment.instant).1 = []
  | _ => True

theorem Progresses.instant?_eq (h : link.Progresses action now) :
    action.instant? = some now := by
  cases h with
  | begins hinstant hidle hwaits => exact hinstant
  | delivered hactive hvector hawaited => rfl

theorem Asks.lastObjectAt (h : Asks wanted now link after) :
    after.connection.lastObjectAt =
      if (link.asked wanted).isEmpty then link.connection.lastObjectAt
      else if link.connection.outstanding.isEmpty then now
      else link.connection.lastObjectAt :=
  congrArg Stock.lastObjectAt h.stock

theorem Delivers.lastObjectAt {moment : Moment} {vector : InventoryVector}
    {object : Object} (h : Delivers moment vector object link after) :
    after.connection.lastObjectAt =
      if link.connection.outstanding.contains vector then moment.instant
      else link.connection.lastObjectAt :=
  congrArg Stock.lastObjectAt h.stock

theorem Asks.isEmpty_outstanding (h : Asks wanted now link after) :
    after.connection.outstanding.isEmpty =
      (link.connection.outstanding.isEmpty && (link.asked wanted).isEmpty) := by
  rw [h.outstanding, Std.HashSet.isEmpty_insertMany_list]

/-- The clock stands still, and no wait begins. -/
structure Stands (before after : Link) : Prop where
  clock : after.connection.lastObjectAt = before.connection.lastObjectAt
  waits : after.connection.outstanding.isEmpty = false →
    before.connection.outstanding.isEmpty = false

theorem stands_of_stock_eq (h : after.stock = link.stock) :
    Stands link after := by
  have houtstanding : after.connection.outstanding =
      link.connection.outstanding :=
    congrArg Stock.outstanding h
  refine ⟨congrArg Stock.lastObjectAt h, ?_⟩
  rw [houtstanding]
  exact id

theorem Asks.stands (h : Asks wanted now link after)
    (hquiet : link.connection.outstanding.isEmpty = false ∨
      link.asked wanted = []) :
    Stands link after := by
  refine ⟨?_, ?_⟩
  · rw [h.lastObjectAt]
    rcases hquiet with hwaiting | hnothing
    · simp [hwaiting]
    · simp [hnothing]
  · intro hwaits
    rw [h.isEmpty_outstanding] at hwaits
    rcases hquiet with hwaiting | hnothing
    · exact hwaiting
    · simpa [hnothing] using hwaits

theorem Asks.lastObjectAt_of_begins (h : Asks wanted now link after)
    (hidle : link.connection.outstanding.isEmpty = true)
    (hwaits : after.connection.outstanding.isEmpty = false) :
    after.connection.lastObjectAt = now := by
  have hasked : (link.asked wanted).isEmpty = false := by
    rw [h.isEmpty_outstanding, hidle, Bool.true_and] at hwaits
    exact hwaits
  simp [h.lastObjectAt, hasked, hidle]

theorem Delivers.stands {moment : Moment} {vector : InventoryVector}
    {object : Object} (h : Delivers moment vector object link after)
    (hunawaited : link.connection.outstanding.contains vector = false) :
    Stands link after := by
  refine ⟨?_, ?_⟩
  · simp [h.lastObjectAt, hunawaited]
  · simp [h.outstanding, hunawaited]

theorem Releases.stands (h : Releases link after) : Stands link after := by
  refine ⟨congrArg Stock.lastObjectAt h.stock, ?_⟩
  rw [h.outstanding, Std.HashSet.isEmpty_empty]
  exact fun hwaits => Bool.noConfusion hwaits

theorem stands_of_chatters (h : link.Chatters action) :
    Stands link (link.perform action) := by
  cases effect_perform link action with
  | speech hspeech => exact stands_of_stock_eq hspeech.stock
  | announced hactive hasks => exact hasks.stands h
  | takenOver hactive hasks => exact hasks.stands h
  | delivered hactive hvector hdelivers => exact hdelivers.stands (h _ hvector)
  | released hreleases => exact hreleases.stands

/-- A request that asks for something begins the wait, unless there is one
already. -/
theorem Asks.progresses_or_stands
    (h : Asks wanted now link (link.perform action))
    (hinstant : action.instant? = some now) :
    (∃ now, link.Progresses action now) ∨
    Stands link (link.perform action) := by
  cases hidle : link.connection.outstanding.isEmpty with
  | false => exact .inr (h.stands (.inl hidle))
  | true =>
      cases hwaits : (link.perform action).connection.outstanding.isEmpty with
      | false => exact .inl ⟨now, .begins hinstant hidle hwaits⟩
      | true =>
          rw [h.isEmpty_outstanding, hidle, Bool.true_and, List.isEmpty_iff]
            at hwaits
          exact .inr (h.stands (.inr hwaits))

theorem progresses_or_stands (link : Link) (action : Action) :
    (∃ now, link.Progresses action now) ∨
    Stands link (link.perform action) := by
  cases effect_perform link action with
  | speech hspeech => exact .inr (stands_of_stock_eq hspeech.stock)
  | announced hactive hasks => exact hasks.progresses_or_stands rfl
  | takenOver hactive hasks => exact hasks.progresses_or_stands rfl
  | @delivered moment object vector _ hactive hvector hdelivers =>
      cases hawaited : link.connection.outstanding.contains vector with
      | true => exact .inl ⟨_, .delivered hactive hvector hawaited⟩
      | false => exact .inr (hdelivers.stands hawaited)
  | released hreleases => exact .inr hreleases.stands

theorem Progresses.lastObjectAt (h : link.Progresses action now) :
    (link.perform action).connection.lastObjectAt = now := by
  cases h with
  | begins hinstant hidle hwaits =>
      have hbegins : ¬ Stands link (link.perform action) := by
        intro hstands
        rw [hstands.waits hwaits] at hidle
        cases hidle
      cases effect_perform link action with
      | speech hspeech =>
          exact absurd (stands_of_stock_eq hspeech.stock) hbegins
      | announced hactive hasks =>
          rw [hasks.lastObjectAt_of_begins hidle hwaits]
          exact Option.some.inj hinstant
      | takenOver hactive hasks =>
          rw [hasks.lastObjectAt_of_begins hidle hwaits]
          exact Option.some.inj hinstant
      | delivered hactive hvector hdelivers =>
          exact absurd
            (hdelivers.stands (Std.HashSet.contains_of_isEmpty hidle)) hbegins
      | released hreleases => exact absurd hreleases.stands hbegins
  | delivered hactive hvector hawaited =>
      rw [(delivers_perform hactive hvector _).lastObjectAt, if_pos hawaited]

theorem waits_of_announcement (hactive : link.connection.phase = .active)
    (moment : Moment) {offer : List InventoryVector} {vector : InventoryVector}
    (hasked : vector ∈ link.asked
      (link.node.inventory.missing offer link.node.profile.streams)) :
    (link.perform (.receive moment
      (.inv offer))).connection.outstanding.isEmpty = false := by
  have hsome := List.isEmpty_eq_false_iff.mpr (List.ne_nil_of_mem hasked)
  rw [(asks_announcement moment offer hactive).isEmpty_outstanding, hsome,
    Bool.and_false]

theorem not_progresses_of_chatters (h : link.Chatters action) :
    ¬ link.Progresses action now := by
  intro hprogresses
  cases hprogresses with
  | begins hinstant hidle hwaits =>
      rw [(stands_of_chatters h).waits hwaits] at hidle
      cases hidle
  | delivered hactive hvector hawaited =>
      rw [h _ hvector] at hawaited
      cases hawaited

structure Heeds (now : Nat) (link : Link) : Prop where
  lastActivity : link.connection.lastActivity = now
  phase : link.connection.phase ≠ .disconnected .syncComplete

theorem phase_ne_of_open (hopen : link.connection.isDisconnected = false)
    (reason : DisconnectReason) :
    link.connection.phase ≠ .disconnected reason := by
  intro hended
  simp [Connection.isDisconnected, Connection.reason?, hended] at hopen

theorem open_of_perform
    (hopen : (link.perform action).connection.isDisconnected = false) :
    link.connection.isDisconnected = false := by
  rw [← Bool.not_eq_true]
  intro hended
  obtain ⟨reason, hreason⟩ := Connection.exists_reason_of_isDisconnected hended
  exact phase_ne_of_open hopen reason
    ((phase_perform_of_isDisconnected hended action).trans hreason)

theorem lastActivity_disconnect (link : Link) (reason : DisconnectReason) :
    (link.disconnect reason).connection.lastActivity =
      link.connection.lastActivity := by
  cases hphase : link.connection.phase <;>
    simp [disconnect, Connection.disconnect, hphase]

theorem Heeds.disconnect (h : Heeds now link) {reason : DisconnectReason}
    (hreason : reason ≠ .syncComplete) :
    Heeds now (link.disconnect reason) := by
  refine ⟨(lastActivity_disconnect link reason).trans h.lastActivity, ?_⟩
  cases hphase : link.connection.phase with
  | connecting => simp [Link.disconnect, Connection.disconnect, hphase, hreason]
  | active => simp [Link.disconnect, Connection.disconnect, hphase, hreason]
  | disconnected old =>
      have hsame : link.disconnect reason = link := by
        simp [Link.disconnect, Connection.disconnect, hphase]
      rw [hsame]
      exact h.phase

theorem heeds_activate (link : Link) (moment : Moment) :
    Heeds moment.instant (link.activate moment) := by
  obtain ⟨said, -, hconnection⟩ := exists_connection_activate link moment
  refine ⟨?_, ?_⟩
  · rw [hconnection]
  · rw [hconnection]
    exact Phase.noConfusion

theorem Heeds.receiveGreeting {moment : Moment} (h : Heeds moment.instant link)
    (greeting : Greeting) :
    Heeds moment.instant (link.receiveGreeting moment greeting).1 := by
  unfold Link.receiveGreeting
  split
  · exact h.disconnect DisconnectReason.noConfusion
  · split
    · exact h.disconnect DisconnectReason.noConfusion
    · split
      · exact h.disconnect DisconnectReason.noConfusion
      · dsimp only
        split
        · exact ⟨h.lastActivity, h.phase⟩
        · exact heeds_activate _ moment
        · exact heeds_activate _ moment

theorem Heeds.receiveVerack {moment : Moment} (h : Heeds moment.instant link) :
    Heeds moment.instant (link.receiveVerack moment).1 := by
  unfold Link.receiveVerack
  split
  · split
    · exact heeds_activate link moment
    · exact h.disconnect DisconnectReason.noConfusion
  · exact h
  · exact h

theorem Heeds.receiveCustom (h : Heeds now link) (request : CustomMessage) :
    Heeds now (link.receiveCustom request) := by
  unfold Link.receiveCustom
  split
  · rename_i answer _ _ _
    cases answer request with
    | none => exact h.disconnect DisconnectReason.noConfusion
    | some response =>
        have hsent : Heeds now (link.send (.custom response)) :=
          ⟨h.lastActivity, h.phase⟩
        exact hsent.disconnect DisconnectReason.noConfusion
  · exact h.disconnect DisconnectReason.noConfusion

theorem lastActivity_request (connection : Connection)
    (vectors : List InventoryVector) (now : Nat) :
    (connection.request vectors now).lastActivity =
      connection.lastActivity := by
  unfold Connection.request
  split <;> rfl

theorem Heeds.request {node : Node} {connection : Connection}
    (h : Heeds now ⟨node, connection⟩) (vectors : List InventoryVector)
    (instant : Nat) :
    Heeds now ⟨node, connection.request vectors instant⟩ := by
  refine ⟨(lastActivity_request connection vectors instant).trans
    h.lastActivity, ?_⟩
  change (connection.request vectors instant).phase ≠ _
  rw [phase_request]
  exact h.phase

theorem Heeds.receiveObject {moment : Moment} (h : Heeds now link)
    (object : Object) :
    Heeds now (link.receiveObject moment object).1 := by
  unfold Link.receiveObject
  split
  · exact h
  · rename_i vector _
    have hdelivered : Heeds now
        ((link.remember vector moment.instant).deliver moment vector) := by
      unfold deliver
      split
      · exact ⟨h.lastActivity, h.phase⟩
      · exact ⟨h.lastActivity, h.phase⟩
    dsimp only
    split
    · exact ⟨hdelivered.lastActivity, hdelivered.phase⟩
    · exact hdelivered

theorem Heeds.receiveActive {moment : Moment} (h : Heeds now link)
    (message : Message) :
    Heeds now (link.receiveActive moment message).1 := by
  cases message with
  | inv vectors =>
      apply Heeds.request
      exact ⟨h.lastActivity, h.phase⟩
  | getdata vectors =>
      obtain ⟨known, hserved⟩ := exists_receiveRequest_eq link moment vectors
      rw [Link.receiveActive, hserved]
      exact ⟨h.lastActivity, h.phase⟩
  | object object => exact h.receiveObject object
  | addr records => exact ⟨h.lastActivity, h.phase⟩
  | unknown command payload => exact h
  | _ => exact h.disconnect DisconnectReason.noConfusion

theorem heeds_receive (hopen : link.connection.isDisconnected = false)
    (moment : Moment) (message : Message) :
    Heeds moment.instant (link.perform (.receive moment message)) := by
  have hheard : Heeds moment.instant (link.hear moment.instant) :=
    ⟨rfl, phase_ne_of_open hopen .syncComplete⟩
  cases hcase : link.connection.phase with
  | connecting =>
      rw [perform_receive_of_connecting hcase]
      cases message with
      | version greeting => exact hheard.receiveGreeting greeting
      | verack => exact hheard.receiveVerack
      | custom request => exact hheard.receiveCustom request
      | _ => exact hheard
  | active =>
      rw [perform_receive_of_active hcase]
      exact hheard.receiveActive message
  | disconnected reason => exact absurd hcase (phase_ne_of_open hopen reason)

theorem lastActivity_perform (link : Link)
    (hsilent : ∀ moment message, action ≠ .receive moment message) :
    (link.perform action).connection.lastActivity =
      link.connection.lastActivity := by
  cases action with
  | start moment =>
      rw [perform, start]
      split <;> rfl
  | receive moment message => exact absurd rfl (hsilent moment message)
  | offer moment vector =>
      rw [perform, offer]
      split <;> rfl
  | reassign moment vectors =>
      rw [perform, reassign]
      split
      · exact lastActivity_request _ _ _
      · rfl
  | tick now =>
      rw [perform, tick]
      split
      · exact lastActivity_disconnect link _
      · rfl
  | disconnect reason => exact lastActivity_disconnect link reason
  | release => rfl

theorem phase_tick_of_isActive (hactive : link.connection.isActive = true)
    (now : Nat) :
    (link.perform (.tick now)).connection.phase =
      ((link.overdue? now).map Phase.disconnected).getD .active := by
  have hphase := phase_of_isActive hactive
  rw [perform, tick]
  cases link.overdue? now with
  | none => exact hphase
  | some reason => simp [disconnect, Connection.disconnect, hphase]

theorem idleTimeout_tick_iff (hactive : link.connection.isActive = true)
    (now : Nat) :
    (link.perform (.tick now)).connection.phase = .disconnected .idleTimeout ↔
      link.connection.outstanding.isEmpty = false ∧
        link.node.profile.idleTimeout ≤ now - link.connection.lastObjectAt := by
  rw [phase_tick_of_isActive hactive]
  simp only [overdue?, phase_of_isActive hactive]
  cases link.connection.outstanding.isEmpty with
  | true =>
      simp only [if_true, Bool.true_eq_false, false_and, iff_false]
      split <;> simp
  | false =>
      simp only [Bool.false_eq_true, if_false, true_and]
      split <;> simp [*]

/-- What a tick finds that ends a connection as one that is synchronized. -/
structure Synchronized (link : Link) (now : Nat) : Prop where
  mode : link.connection.mode = .sync
  idle : link.connection.outstanding.isEmpty = true
  quiet : link.node.profile.quietPeriod ≤ now - link.connection.lastActivity

theorem synchronized_of_overdue? (h : link.overdue? now = some .syncComplete) :
    link.Synchronized now := by
  unfold overdue? at h
  dsimp only at h
  split at h
  · split at h <;> cases h
  · split at h
    · rename_i hidle
      split at h
      · rename_i hquiet
        exact ⟨hquiet.1, hidle, hquiet.2⟩
      · cases h
    · split at h <;> cases h
  · cases h

/-- Only a tick ends a connection as one that is synchronized, unless its owner
says so. -/
theorem synchronized_of_syncComplete
    (hopen : link.connection.isDisconnected = false)
    (haction : action ≠ .disconnect .syncComplete)
    (hended : (link.perform action).connection.phase =
      .disconnected .syncComplete) :
    ∃ now, action = .tick now ∧ link.Synchronized now := by
  have hphase := phase_ne_of_open hopen .syncComplete
  have hlink : Heeds link.connection.lastActivity link := ⟨rfl, hphase⟩
  cases action with
  | start moment =>
      rw [perform, start] at hended
      split at hended <;> exact absurd hended hphase
  | receive moment message =>
      exact absurd hended (heeds_receive hopen moment message).phase
  | offer moment vector =>
      have hbearing := (chats_offer link moment vector).bearing
      exact absurd ((congrArg Bearing.phase hbearing).symm.trans hended) hphase
  | reassign moment vectors =>
      have hbearing := (chats_reassign link moment vectors).bearing
      exact absurd ((congrArg Bearing.phase hbearing).symm.trans hended) hphase
  | tick now =>
      refine ⟨now, rfl, ?_⟩
      rw [perform, tick] at hended
      cases hoverdue : link.overdue? now with
      | none =>
          rw [hoverdue] at hended
          exact absurd hended hphase
      | some reason =>
          rw [hoverdue] at hended
          by_cases hreason : reason = .syncComplete
          · exact synchronized_of_overdue? (hreason ▸ hoverdue)
          · exact absurd hended (hlink.disconnect hreason).phase
  | disconnect reason =>
      have hreason : reason ≠ .syncComplete :=
        fun hsame => haction (hsame ▸ rfl)
      exact absurd hended (hlink.disconnect hreason).phase
  | release => exact absurd hended hphase

end Link

end ObjectRelay
