import ObjectRelay.Proofs.Connection.Hearing
import ObjectRelay.Proofs.Dialogue.Basic
import ObjectRelay.Proofs.Hub.Refetch

namespace ObjectRelay

/-! Two nodes that greet each other.  Each word of the handshake is said once
and finds the other side where it expects it; after the last of them all is
gossip. -/

namespace Dialogue

/-- What each side is throughout. -/
structure Paired (profile : Side → Profile) (dialogue : Dialogue) : Prop where
  own : ∀ side, (dialogue.link side).node.profile = profile side
  dialer : (dialogue.link .dialer).connection.mode ≠ .server
  acceptor : (dialogue.link .acceptor).connection.mode = .server
  nonce : ∀ side, (profile side.other).nonce ≠ (profile side).nonce

/-- Neither side knows the other, and the dialing side has called. -/
structure Dialing (profile : Side → Profile) (dialogue : Dialogue) : Prop where
  dialer : (dialogue.link .dialer).Waits
  acceptor : (dialogue.link .acceptor).Waits
  call : ∃ greeting, Introduces (profile .dialer) greeting ∧
    dialogue.underway .dialer = [.version greeting]
  silent : dialogue.underway .acceptor = []

/-- The accepting side has answered, and its greeting is still to come, after
the lead. -/
structure Answered (profile : Side → Profile) (lead : List Message)
    (dialogue : Dialogue) : Prop where
  dialer : (dialogue.link .dialer).Waits
  acceptor : (dialogue.link .acceptor).Greeted (profile .dialer)
  answer : ∃ greeting, Introduces (profile .acceptor) greeting ∧
    dialogue.underway .acceptor = lead ++ [.version greeting]
  silent : dialogue.underway .dialer = []

/-- The dialing side is active, and its gossip comes after its
acknowledgement. -/
structure Opened (profile : Side → Profile) (dialogue : Dialogue) : Prop where
  dialer : (dialogue.link .dialer).Engaged (profile .acceptor)
  acceptor : (dialogue.link .acceptor).Greeted (profile .dialer)
  verack : ∃ gossip, (∀ message ∈ gossip, message.IsGossip) ∧
    dialogue.underway .dialer = .verack :: gossip
  silent : dialogue.underway .acceptor = []

/-- Both sides are active, and all is gossip. -/
structure Engaged (profile : Side → Profile) (dialogue : Dialogue) : Prop where
  sides : ∀ side, (dialogue.link side).Engaged (profile side.other)
  gossip : ∀ side, ∀ message ∈ dialogue.underway side, message.IsGossip

/-- How far the two sides have come, and what is on its way between them. -/
inductive Stage (profile : Side → Profile) (dialogue : Dialogue) : Prop where
  | dialing (h : dialogue.Dialing profile)
  | answered (h : dialogue.Answered profile [.verack])
  | acknowledged (h : dialogue.Answered profile [])
  | opened (h : dialogue.Opened profile)
  | engaged (h : dialogue.Engaged profile)

variable {profile : Side → Profile} {before after : Dialogue} {side : Side}
  {action : Action} {moment : Moment} {message : Message} {heard : List Message}

theorem Paired.congr (h : before.Paired profile)
    (hprofile : ∀ side, (after.link side).node.profile =
      (before.link side).node.profile)
    (hmode : ∀ side, (after.link side).connection.mode =
      (before.link side).connection.mode) :
    after.Paired profile where
  own side := (hprofile side).trans (h.own side)
  dialer := by
    rw [hmode]
    exact h.dialer
  acceptor := (hmode _).trans h.acceptor
  nonce := h.nonce

theorem Rests.paired (hrests : before.Rests after) (h : before.Paired profile) :
    after.Paired profile :=
  h.congr (fun side => congrArg Bearing.profile (hrests.bearing side))
    fun side => congrArg Bearing.mode (hrests.bearing side)

theorem Rests.dialing (hrests : before.Rests after)
    (h : before.Dialing profile) :
    after.Dialing profile where
  dialer := h.dialer.congr (hrests.bearing _)
  acceptor := h.acceptor.congr (hrests.bearing _)
  call := hrests.underway _ ▸ h.call
  silent := (hrests.underway _).trans h.silent

theorem Rests.answered {lead : List Message} (hrests : before.Rests after)
    (h : before.Answered profile lead) : after.Answered profile lead where
  dialer := h.dialer.congr (hrests.bearing _)
  acceptor := h.acceptor.congr (hrests.bearing _)
  answer := hrests.underway _ ▸ h.answer
  silent := (hrests.underway _).trans h.silent

theorem Rests.opened (hrests : before.Rests after) (h : before.Opened profile) :
    after.Opened profile where
  dialer := h.dialer.congr (hrests.bearing _)
  acceptor := h.acceptor.congr (hrests.bearing _)
  verack := hrests.underway _ ▸ h.verack
  silent := (hrests.underway _).trans h.silent

theorem Rests.engaged (hrests : before.Rests after)
    (h : before.Engaged profile) :
    after.Engaged profile where
  sides side := (h.sides side).congr (hrests.bearing side)
  gossip side := hrests.underway side ▸ h.gossip side

theorem Rests.stage (hrests : before.Rests after) (h : Stage profile before) :
    Stage profile after := by
  cases h with
  | dialing h => exact .dialing (hrests.dialing h)
  | answered h => exact .answered (hrests.answered h)
  | acknowledged h => exact .acknowledged (hrests.answered h)
  | opened h => exact .opened (hrests.opened h)
  | engaged h => exact .engaged (hrests.engaged h)

/-- What a side makes of a word, and what it says then. -/
def Heeds (profile : Side → Profile) (before : Dialogue) (side : Side)
    (moment : Moment) (message : Message) (after : Dialogue) : Prop :=
  ∃ said, Link.Hears (profile side.other) (before.link side) moment message said
      (after.link side) ∧
    after.underway side = before.underway side ++ said

theorem Acts.eq_of_underway {rest : List Message}
    (h : before.Acts side action [message] after) {next : Message}
    (hunderway : before.underway side.other = next :: rest) :
    message = next ∧ after.underway side.other = rest := by
  have hheard := h.heard
  rw [hunderway] at hheard
  obtain ⟨hnext, hrest⟩ := List.cons.inj hheard
  exact ⟨hnext.symm, hrest.symm⟩

theorem Acts.ne_nil (h : before.Acts side action [message] after) :
    before.underway side.other ≠ [] := by
  rw [h.heard]
  exact List.cons_ne_nil _ _

theorem answered_of_dialing (hpaired : before.Paired profile)
    (h : before.Dialing profile)
    (hacts : before.Acts side (.receive moment message) [message] after) :
    after.Answered profile [.verack] ∧
    Heeds profile before side moment message after := by
  cases side with
  | dialer => exact absurd h.silent hacts.ne_nil
  | acceptor =>
      obtain ⟨greeting, hintroduces, hcall⟩ := h.call
      obtain ⟨rfl, hrest⟩ := hacts.eq_of_underway hcall
      have hnonce : (profile .dialer).nonce ≠
          (before.link .acceptor).node.profile.nonce := by
        rw [hpaired.own]
        exact hpaired.nonce .acceptor
      obtain ⟨hgreeted, answer, hanswers, hqueue⟩ :=
        Link.exists_answer_of_greeting h.acceptor hpaired.acceptor hintroduces
          hnonce moment
      rw [← hacts.actor] at hgreeted hqueue
      have hsaid := hacts.underway hqueue
      refine ⟨⟨hacts.other ▸ h.dialer, hgreeted, ⟨answer, ?_, ?_⟩, hrest⟩,
        _, .talks ?_ ?_ ?_ ?_, hsaid⟩
      · exact hpaired.own .acceptor ▸ hanswers
      · rw [hsaid, h.silent]
        rfl
      · exact fun h => h
      · simp [Message.IsRelay]
      · rw [hacts.actor]
        exact Link.stock_of_version _ moment greeting
      · simp [Connection.isActive, hgreeted.phase, h.acceptor.phase]

theorem acknowledged_of_answered (hpaired : before.Paired profile)
    (h : before.Answered profile [.verack])
    (hacts : before.Acts side (.receive moment message) [message] after) :
    after.Answered profile [] ∧
    Heeds profile before side moment message after := by
  cases side with
  | acceptor => exact absurd h.silent hacts.ne_nil
  | dialer =>
      obtain ⟨greeting, hintroduces, hanswer⟩ := h.answer
      obtain ⟨rfl, hrest⟩ := hacts.eq_of_underway hanswer
      have hheard : after.link .dialer =
          (before.link .dialer).hear moment.instant :=
        hacts.actor.trans
          (Link.perform_verack_of_dialed h.dialer hpaired.dialer moment)
      have hsaid : after.underway .dialer = before.underway .dialer ++ [] :=
        hacts.underway (by rw [hheard, List.append_nil]; rfl)
      refine ⟨⟨hheard ▸ h.dialer.congr rfl, hacts.other ▸ h.acceptor,
        ⟨greeting, hintroduces, hrest⟩, ?_⟩, _, .talks ?_ ?_ ?_ ?_, hsaid⟩
      · rw [hsaid, h.silent]
        rfl
      · exact fun h => h
      · simp
      · rw [hheard]
        rfl
      · rw [hheard]
        rfl

theorem opened_of_acknowledged (hpaired : before.Paired profile)
    (h : before.Answered profile [])
    (hacts : before.Acts side (.receive moment message) [message] after) :
    after.Opened profile ∧ Heeds profile before side moment message after := by
  cases side with
  | acceptor => exact absurd h.silent hacts.ne_nil
  | dialer =>
      obtain ⟨greeting, hintroduces, hanswer⟩ := h.answer
      obtain ⟨rfl, hrest⟩ := hacts.eq_of_underway hanswer
      have hnonce : (profile .acceptor).nonce ≠
          (before.link .dialer).node.profile.nonce := by
        rw [hpaired.own]
        exact hpaired.nonce .dialer
      obtain ⟨gossip, hopens, hqueue⟩ :=
        Link.exists_opens_of_greeting h.dialer hpaired.dialer hintroduces
          hnonce moment
      rw [← hacts.actor] at hopens hqueue
      have hsaid := hacts.underway hqueue
      refine ⟨⟨hopens.engaged, hacts.other ▸ h.acceptor,
        ⟨gossip, fun _ => hopens.floods.isGossip, ?_⟩, hrest⟩,
        _, .opens [.verack] ?_ ?_ ?_ hopens, hsaid⟩
      · rw [hsaid, h.silent]
        rfl
      · exact fun h => h
      · simp [Message.IsRelay]
      · rw [hacts.actor]
        exact Link.stock_of_version _ moment greeting

theorem engaged_of_opened (hpaired : before.Paired profile)
    (h : before.Opened profile)
    (hacts : before.Acts side (.receive moment message) [message] after) :
    after.Engaged profile ∧ Heeds profile before side moment message after := by
  cases side with
  | dialer => exact absurd h.silent hacts.ne_nil
  | acceptor =>
      obtain ⟨gossip, hgossip, hverack⟩ := h.verack
      obtain ⟨rfl, hrest⟩ := hacts.eq_of_underway hverack
      obtain ⟨said, hopens, hqueue⟩ :=
        Link.exists_opens_of_verack h.acceptor hpaired.acceptor moment
      rw [← hacts.actor] at hopens hqueue
      have hsaid := hacts.underway hqueue
      refine ⟨⟨?_, ?_⟩, _, .opens [] ?_ ?_ ?_ hopens, hsaid⟩
      · rintro (_ | _)
        · exact hacts.other ▸ h.dialer
        · exact hopens.engaged
      · rintro (_ | _)
        · rw [show after.underway .dialer = gossip from hrest]
          exact hgossip
        · rw [hsaid, h.silent]
          exact fun _ => hopens.floods.isGossip
      · exact fun h => h
      · simp
      · rw [hacts.actor]
        exact Link.stock_of_verack _ moment

theorem engaged_of_chats (h : before.Engaged profile)
    (hacts : before.Acts side action heard after)
    (hchats : (before.link side).Chats (after.link side)) :
    after.Engaged profile := by
  obtain ⟨said, hqueue, hsaid⟩ := hchats.queue
  refine ⟨fun each => ?_, fun each message hmem => ?_⟩
  · rcases side.eq_or_eq_other each with rfl | rfl
    · exact (h.sides _).congr hchats.bearing
    · exact hacts.other ▸ h.sides _
  · rcases side.eq_or_eq_other each with rfl | rfl
    · rw [hacts.underway hqueue] at hmem
      rcases List.mem_append.mp hmem with hold | hnew
      · exact h.gossip _ message hold
      · exact hsaid message hnew
    · apply h.gossip _ message
      rw [hacts.heard]
      exact List.mem_append_right heard hmem

theorem Acts.mem_underway (hacts : before.Acts side action [message] after) :
    message ∈ before.underway side.other := by
  rw [hacts.heard]
  exact List.mem_cons_self

theorem Acts.isGossip (hacts : before.Acts side action [message] after)
    (h : before.Engaged profile) : message.IsGossip :=
  h.gossip side.other message hacts.mem_underway

theorem engaged_receive (h : before.Engaged profile)
    (hacts : before.Acts side (.receive moment message) [message] after) :
    after.Engaged profile ∧ Heeds profile before side moment message after := by
  have hphase := (h.sides side).phase
  have hgossip := hacts.isGossip h
  have hchats := Link.chats_receive hphase moment hgossip
  obtain ⟨said, hhears, hqueue⟩ :=
    Link.exists_hears_of_gossip (profile side.other) hphase hgossip moment
  rw [← hacts.actor] at hchats hhears hqueue
  exact ⟨engaged_of_chats h hacts hchats, said, hhears, hacts.underway hqueue⟩

theorem stage_receive (hpaired : before.Paired profile)
    (hstage : Stage profile before)
    (hacts : before.Acts side (.receive moment message) [message] after) :
    Stage profile after ∧ Heeds profile before side moment message after := by
  cases hstage with
  | dialing h => exact (answered_of_dialing hpaired h hacts).imp_left .answered
  | answered h =>
      exact (acknowledged_of_answered hpaired h hacts).imp_left .acknowledged
  | acknowledged h =>
      exact (opened_of_acknowledged hpaired h hacts).imp_left .opened
  | opened h => exact (engaged_of_opened hpaired h hacts).imp_left .engaged
  | engaged h => exact (engaged_receive h hacts).imp_left .engaged

theorem Dialing.connecting (h : before.Dialing profile) (side : Side) :
    (before.link side).connection.phase = .connecting := by
  cases side with
  | dialer => exact h.dialer.phase
  | acceptor => exact h.acceptor.phase

theorem Answered.connecting {lead : List Message}
    (h : before.Answered profile lead) (side : Side) :
    (before.link side).connection.phase = .connecting := by
  cases side with
  | dialer => exact h.dialer.phase
  | acceptor => exact h.acceptor.phase

theorem Stage.cases_side (h : Stage profile before) (side : Side) :
    (before.link side).connection.phase = .connecting ∨
      (before.link side).Engaged (profile side.other) := by
  cases h with
  | dialing h => exact .inl (h.connecting side)
  | answered h => exact .inl (h.connecting side)
  | acknowledged h => exact .inl (h.connecting side)
  | opened h =>
      cases side with
      | dialer => exact .inr h.dialer
      | acceptor => exact .inl h.acceptor.phase
  | engaged h => exact .inr (h.sides side)

theorem Acts.rests (hacts : before.Acts side action [] after)
    (hidle : (before.link side).perform action = before.link side) :
    before.Rests after := by
  have hlink : ∀ each, after.link each = before.link each := by
    intro each
    rcases side.eq_or_eq_other each with rfl | rfl
    · exact hacts.actor.trans hidle
    · exact hacts.other
  refine ⟨fun each => ⟨(before.link each).connection.queue, hlink each⟩,
    fun each => ?_⟩
  rcases side.eq_or_eq_other each with rfl | rfl
  · rw [Dialogue.underway, hacts.sent, hlink]
    rfl
  · exact hacts.heard.symm

theorem stage_of_chats (hstage : Stage profile before)
    (hacts : before.Acts side action [] after)
    (hphase : (before.link side).connection.phase = .active)
    (hchats : (before.link side).Chats (after.link side)) :
    Stage profile after := by
  cases hstage with
  | dialing h => simp [h.connecting side] at hphase
  | answered h => simp [h.connecting side] at hphase
  | acknowledged h => simp [h.connecting side] at hphase
  | opened h =>
      cases side with
      | acceptor => simp [h.acceptor.phase] at hphase
      | dialer =>
          obtain ⟨gossip, hgossip, hverack⟩ := h.verack
          obtain ⟨said, hqueue, hsaid⟩ := hchats.queue
          have hunderway := hacts.underway hqueue
          rw [hverack] at hunderway
          refine .opened ⟨h.dialer.congr hchats.bearing,
            hacts.other ▸ h.acceptor,
            ⟨_, ?_, hunderway⟩, hacts.heard.symm.trans h.silent⟩
          intro message hmem
          rcases List.mem_append.mp hmem with hold | hnew
          · exact hgossip message hold
          · exact hsaid message hnew
  | engaged h => exact .engaged (engaged_of_chats h hacts hchats)

theorem paired_step (h : before.Paired profile) (move : Move) :
    (before.step move).Paired profile :=
  h.congr (fun side =>
    stock_step Stock.profile Link.profile_perform before move side)
    fun side => stock_step Stock.mode Link.mode_perform before move side

theorem stage_step (hpaired : before.Paired profile)
    (hstage : Stage profile before) (move : Move) :
    Stage profile (before.step move) := by
  have hturn := turn_step before move
  generalize before.step move = after at hturn ⊢
  -- A side that is not active neither offers nor reassigns anything.
  cases hturn with
  | rests hrests => exact hrests.stage hstage
  | hears hnext hacts => exact (stage_receive hpaired hstage hacts).1
  | @offers side moment vector _ hacts =>
      by_cases hactive : (before.link side).connection.isActive = true
      · exact stage_of_chats hstage hacts (Link.phase_of_isActive hactive)
          (hacts.actor ▸ Link.chats_offer _ moment vector)
      · exact (hacts.rests (by simp [Link.perform, Link.offer, hactive])).stage
          hstage
  | @reassigns side moment vectors _ hacts =>
      by_cases hactive : (before.link side).connection.isActive = true
      · exact stage_of_chats hstage hacts (Link.phase_of_isActive hactive)
          (hacts.actor ▸ Link.chats_reassign _ moment vectors)
      · exact (hacts.rests
          (by simp [Link.perform, Link.reassign, hactive])).stage hstage

variable {dialogue : Dialogue}

theorem Begins.paired (h : dialogue.Begins) :
    dialogue.Paired fun side => (dialogue.link side).node.profile := by
  obtain ⟨node, id, mode, remote, now, moment, hmode, hdialer⟩ := h.dialer
  obtain ⟨other, otherId, otherRemote, otherNow, otherMoment, hacceptor⟩ :=
    h.acceptor
  refine ⟨fun _ => rfl, ?_, ?_, ?_⟩
  · rw [hdialer, (Link.launched_given node id mode remote now moment).2.1]
    exact hmode
  · rw [hacceptor]
    rfl
  · rintro (_ | _)
    · exact h.nonce.symm
    · exact h.nonce

theorem queue_launched {mode : Mode} (hmode : mode ≠ .server) (node : Node)
    (id : PeerId) (remote : SocketAddress) (now : Nat) (moment : Moment) :
    (Link.launched node id mode remote now moment).connection.queue =
      [.version (node.greeting remote moment.clock)] := by
  cases mode with
  | server => exact absurd rfl hmode
  | client => rfl
  | sync => rfl

theorem waits_launched (node : Node) (id : PeerId) (mode : Mode)
    (remote : SocketAddress) (now : Nat) (moment : Moment) :
    (Link.launched node id mode remote now moment).Waits :=
  have hbegins := Link.begins_launched node id mode remote now moment
  ⟨hbegins.phase, hbegins.peer⟩

theorem Begins.dialing (h : dialogue.Begins) :
    dialogue.Dialing fun side => (dialogue.link side).node.profile := by
  obtain ⟨node, id, mode, remote, now, moment, hmode, hdialer⟩ := h.dialer
  obtain ⟨other, otherId, otherRemote, otherNow, otherMoment, hacceptor⟩ :=
    h.acceptor
  refine ⟨?_, ?_, ⟨node.greeting remote moment.clock, ?_, ?_⟩, ?_⟩
  · exact hdialer ▸ waits_launched node id mode remote now moment
  · exact hacceptor ▸ waits_launched other otherId .server otherRemote otherNow
      otherMoment
  · rw [hdialer, (Link.launched_given node id mode remote now moment).1]
    exact node.introduces_greeting remote moment.clock
  · rw [underway, h.sent, hdialer, queue_launched hmode]
    rfl
  · rw [underway, h.sent, hacceptor]
    rfl

theorem paired_run (h : dialogue.Paired profile) (moves : List Move) :
    (dialogue.run moves).Paired profile :=
  h.congr (profile_run dialogue moves) (mode_run dialogue moves)

theorem stage_run (hpaired : dialogue.Paired profile)
    (hstage : Stage profile dialogue) (moves : List Move) :
    Stage profile (dialogue.run moves) := by
  induction moves generalizing dialogue with
  | nil => exact hstage
  | cons move rest ih =>
      exact ih (paired_step hpaired move) (stage_step hpaired hstage move)

theorem exists_reaches_receive {comes : Dialogue → Prop} {rest : List Message}
    (side : Side) (hpaired : before.Paired profile)
    (hunderway : before.underway side.other = message :: rest) (moment : Moment)
    (hcomes : ∀ {middle after}, before.Rests middle → middle.Paired profile →
      middle.Acts side (.receive moment message) [message] after →
      comes after) :
    ∃ after, Reaches moment before after ∧ after.Paired profile ∧
      comes after := by
  obtain ⟨middle, after, hreaches, hrests, hacts⟩ :=
    exists_reaches_of_underway side hunderway moment
  have hkept : after.Paired profile := by
    obtain ⟨moves, -, rfl⟩ := hreaches
    exact paired_run hpaired moves
  exact ⟨after, hreaches, hkept, hcomes hrests (hrests.paired hpaired) hacts⟩

theorem Opened.exists_reaches_engaged (hpaired : before.Paired profile)
    (h : before.Opened profile) (moment : Moment) :
    ∃ after, Reaches moment before after ∧ after.Engaged profile := by
  obtain ⟨gossip, -, hverack⟩ := h.verack
  obtain ⟨after, hreaches, -, hengaged⟩ :=
    exists_reaches_receive .acceptor hpaired hverack moment
    fun hrests hpaired hacts =>
      (engaged_of_opened hpaired (hrests.opened h) hacts).1
  exact ⟨after, hreaches, hengaged⟩

theorem exists_reaches_engaged_of_acknowledged (hpaired : before.Paired profile)
    (h : before.Answered profile []) (moment : Moment) :
    ∃ after, Reaches moment before after ∧ after.Engaged profile := by
  obtain ⟨answer, -, hanswer⟩ := h.answer
  obtain ⟨middle, hfirst, hpaired, hopened⟩ :=
    exists_reaches_receive .dialer hpaired hanswer
    moment fun hrests hpaired hacts =>
      (opened_of_acknowledged hpaired (hrests.answered h) hacts).1
  obtain ⟨after, hsecond, hengaged⟩ :=
    hopened.exists_reaches_engaged hpaired moment
  exact ⟨after, hfirst.trans hsecond, hengaged⟩

theorem exists_reaches_engaged_of_answered (hpaired : before.Paired profile)
    (h : before.Answered profile [.verack]) (moment : Moment) :
    ∃ after, Reaches moment before after ∧ after.Engaged profile := by
  obtain ⟨answer, -, hverack⟩ := h.answer
  obtain ⟨middle, hfirst, hpaired, hacknowledged⟩ :=
    exists_reaches_receive .dialer hpaired hverack
    moment fun hrests hpaired hacts =>
      (acknowledged_of_answered hpaired (hrests.answered h) hacts).1
  obtain ⟨after, hsecond, hengaged⟩ :=
    exists_reaches_engaged_of_acknowledged hpaired hacknowledged moment
  exact ⟨after, hfirst.trans hsecond, hengaged⟩

theorem Dialing.exists_reaches_engaged (hpaired : before.Paired profile)
    (h : before.Dialing profile) (moment : Moment) :
    ∃ after, Reaches moment before after ∧ after.Engaged profile := by
  obtain ⟨greeting, -, hcall⟩ := h.call
  obtain ⟨middle, hfirst, hpaired, hanswered⟩ :=
    exists_reaches_receive .acceptor hpaired hcall
    moment fun hrests hpaired hacts =>
      (answered_of_dialing hpaired (hrests.dialing h) hacts).1
  obtain ⟨after, hsecond, hengaged⟩ :=
    exists_reaches_engaged_of_answered hpaired hanswered moment
  exact ⟨after, hfirst.trans hsecond, hengaged⟩

/-- Wherever the two sides are, what is on its way can carry them through the
handshake. -/
theorem Stage.exists_reaches_engaged (hpaired : before.Paired profile)
    (hstage : Stage profile before) (moment : Moment) :
    ∃ after, Reaches moment before after ∧ after.Engaged profile := by
  cases hstage with
  | dialing h => exact h.exists_reaches_engaged hpaired moment
  | answered h => exact exists_reaches_engaged_of_answered hpaired h moment
  | acknowledged h =>
      exact exists_reaches_engaged_of_acknowledged hpaired h moment
  | opened h => exact h.exists_reaches_engaged hpaired moment
  | engaged h => exact ⟨before, .refl moment before, h⟩

theorem Stage.not_disconnected (h : Stage profile dialogue) (side : Side) :
    (dialogue.link side).connection.isDisconnected = false := by
  rcases h.cases_side side with hconnecting | hengaged
  · simp [Connection.isDisconnected, Connection.reason?, hconnecting]
  · simp [Connection.isDisconnected, Connection.reason?, hengaged.phase]

theorem Stage.engaged_of_isActive (h : Stage profile dialogue)
    (hactive : (dialogue.link side).connection.isActive = true) :
    (dialogue.link side).Engaged (profile side.other) := by
  rcases h.cases_side side with hconnecting | hengaged
  · simp [Connection.isActive, hconnecting] at hactive
  · exact hengaged

theorem Stage.dialer_isActive (h : Stage profile dialogue)
    (hactive : (dialogue.link .acceptor).connection.isActive = true) :
    (dialogue.link .dialer).connection.isActive = true := by
  have hphase := Link.phase_of_isActive hactive
  cases h with
  | dialing h => simp [h.acceptor.phase] at hphase
  | answered h => simp [h.acceptor.phase] at hphase
  | acknowledged h => simp [h.acceptor.phase] at hphase
  | opened h => simp [h.acceptor.phase] at hphase
  | engaged h => simp [Connection.isActive, (h.sides .dialer).phase]

theorem Engaged.isActive (h : dialogue.Engaged profile) (side : Side) :
    (dialogue.link side).connection.isActive = true := by
  simp [Connection.isActive, (h.sides side).phase]

/-- Two nodes that are not the same never end their connection, whatever is
sent, offered and reassigned when.  The dialing side is active first, and once
both are they speak one version and share the streams that both serve; and
nothing that happens keeps them from getting there. -/
theorem handshake_never_fails {dialogue : Dialogue} (hbegins : dialogue.Begins)
    (moves : List Move) :
    (∀ side, ((dialogue.run moves).link side).connection.isDisconnected =
      false) ∧
    (((dialogue.run moves).link .acceptor).connection.isActive = true →
      ((dialogue.run moves).link .dialer).connection.isActive = true) ∧
    ((∀ side, ((dialogue.run moves).link side).connection.isActive = true) →
      (∃ version, ∀ side,
        ((dialogue.run moves).link side).connection.peer?.map (·.version) =
          some version) ∧
      ∀ side stream,
        stream ∈ ((dialogue.run moves).link side).connection.streams ↔
        ∀ each, stream ∈ (dialogue.link each).node.profile.streams) ∧
    ∃ later, (∀ move ∈ later, move.IsTransport) ∧
      ∀ side, ((dialogue.run (moves ++ later)).link side).connection.isActive =
        true := by
  have hpaired := paired_run hbegins.paired moves
  have hstage := stage_run hbegins.paired (.dialing hbegins.dialing) moves
  refine ⟨hstage.not_disconnected, hstage.dialer_isActive,
    fun hactive => ⟨?_, ?_⟩, ?_⟩
  · exact ⟨protocolVersion,
      fun side => (hstage.engaged_of_isActive (hactive side)).met.version⟩
  · intro side stream
    rw [(hstage.engaged_of_isActive (hactive side)).met.streams, profile_run,
      List.mem_filter, List.contains_iff_mem]
    constructor
    · rintro ⟨hown, hother⟩ each
      rcases side.eq_or_eq_other each with rfl | rfl
      · exact hown
      · exact hother
    · exact fun hboth => ⟨hboth side, hboth side.other⟩
  · obtain ⟨after, ⟨later, hlater, rfl⟩, hengaged⟩ :=
      hstage.exists_reaches_engaged hpaired ⟨0, 0, .none⟩
    refine ⟨later, fun move hmem => (hlater move hmem).isTransport,
      fun side => ?_⟩
    rw [run_append]
    exact hengaged.isActive side

def holderNode : Node :=
  Node.store { Hub.plainNode with
    profile := { Hub.plainNode.profile with streams := [1, 2, 3] } }
    (.ofNat 32 0) Hub.plainObject

def emptyNode : Node :=
  { Hub.plainNode with
    profile := { Hub.plainNode.profile with nonce := 2, streams := [3, 1] } }

def holderCallsEmpty : Dialogue where
  link
    | .dialer =>
      Link.launched holderNode 0 .client Hub.plainRemote 0 Hub.plainMoment
    | .acceptor =>
      Link.launched emptyNode 0 .server Hub.plainRemote 0 Hub.plainMoment
  sent _ := []

theorem begins_holderCallsEmpty : holderCallsEmpty.Begins where
  dialer := ⟨holderNode, 0, .client, Hub.plainRemote, 0, Hub.plainMoment,
    Mode.noConfusion, rfl⟩
  acceptor := ⟨emptyNode, 0, Hub.plainRemote, 0, Hub.plainMoment, rfl⟩
  nonce := by decide
  sent _ := rfl

/-- Both get through, and share two streams. -/
theorem holderCallsEmpty_share_streams :
    holderCallsEmpty.Begins ∧ ∃ moves,
      (∀ side, ((holderCallsEmpty.run moves).link side).connection.isActive =
        true) ∧
      (∀ side, ((holderCallsEmpty.run moves).link
        side).connection.isDisconnected = false) ∧
      ∀ side stream,
        stream ∈ ((holderCallsEmpty.run moves).link side).connection.streams ↔
        stream = 1 ∨ stream = 3 := by
  obtain ⟨-, -, -, moves, -, hactive⟩ :=
    handshake_never_fails begins_holderCallsEmpty []
  rw [List.nil_append] at hactive
  obtain ⟨hopen, -, hboth, -⟩ :=
    handshake_never_fails begins_holderCallsEmpty moves
  refine ⟨begins_holderCallsEmpty, moves, hactive, hopen, fun side stream => ?_⟩
  rw [(hboth hactive).2 side stream]
  constructor
  · intro hserved
    have hdialer : stream ∈ [1, 2, 3] := hserved .dialer
    have hacceptor : stream ∈ [3, 1] := hserved .acceptor
    simp only [List.mem_cons, List.not_mem_nil, or_false] at hdialer hacceptor
    exact hacceptor.symm
  · have hserved : ∀ each,
        1 ∈ (holderCallsEmpty.link each).node.profile.streams ∧
        3 ∈ (holderCallsEmpty.link each).node.profile.streams := by
      rintro (_ | _)
      · show 1 ∈ [1, 2, 3] ∧ 3 ∈ [1, 2, 3]
        decide
      · show 1 ∈ [3, 1] ∧ 3 ∈ [3, 1]
        decide
    rintro (rfl | rfl) each
    · exact (hserved each).1
    · exact (hserved each).2

end Dialogue

end ObjectRelay
