import ObjectRelay.Proofs.Dialogue.Handshake

namespace ObjectRelay

namespace Message

/-- An announcement may be answered with a request, and a request with as many
objects as it names. -/
def weight : Message → Nat
  | inv vectors => vectors.length + 2
  | getdata vectors => vectors.length + 1
  | version _ | verack | addr _ | object _ | custom _ | unknown _ _ => 1

def load (words : List Message) : Nat :=
  (words.map weight).sum

@[simp] theorem load_cons (message : Message) (words : List Message) :
    load (message :: words) = message.weight + load words :=
  List.sum_cons

@[simp] theorem load_append (words later : List Message) :
    load (words ++ later) = load words + load later := by
  simp [load]

theorem load_map_object (objects : List Object) :
    load (objects.map .object) = objects.length := by
  induction objects with
  | nil => rfl
  | cons object rest ih =>
      rw [List.map_cons, load_cons, ih, List.length_cons, weight, Nat.add_comm]

theorem load_requestFor_le (vectors : List InventoryVector) :
    load (Link.requestFor vectors) ≤ vectors.length + 1 := by
  cases vectors with
  | nil => exact Nat.zero_le _
  | cons vector rest => exact Nat.le_refl _

end Message

namespace Link

variable {link : Link} {message : Message}

theorem exists_lighter_answer (hphase : link.connection.phase = .active)
    (hgossip : message.IsGossip) (moment : Moment) :
    ∃ said, (link.perform (.receive moment message)).connection.queue =
        link.connection.queue ++ said ∧ Message.load said < message.weight := by
  cases message with
  | inv vectors =>
      refine ⟨_, (asks_announcement moment vectors hphase).queue, ?_⟩
      have hasked := length_asked_le link
        (link.node.inventory.missing vectors link.node.profile.streams)
      have hmissing := (Inventory.missing_sublist link.node.inventory vectors
        link.node.profile.streams).length_le
      have hload := Message.load_requestFor_le
        (link.asked
          (link.node.inventory.missing vectors link.node.profile.streams))
      show _ < vectors.length + 2
      omega
  | getdata vectors =>
      obtain ⟨known, hserved⟩ :=
        exists_receiveRequest_eq (link.hear moment.instant) moment vectors
      rw [perform_receive_of_active hphase, receiveActive, hserved]
      refine ⟨_, rfl, ?_⟩
      rw [Message.load_map_object]
      exact Nat.lt_succ_of_le (List.length_filterMap_le _ _)
  | object object =>
      rw [perform_receive_of_active hphase]
      exact ⟨[], (queue_receiveObject _ moment object).trans
        (List.append_nil _).symm, Nat.zero_lt_one⟩
  | addr records =>
      rw [perform_receive_of_active hphase]
      exact ⟨[], (List.append_nil _).symm, Nat.zero_lt_one⟩
  | _ => exact hgossip.elim

end Link

namespace Dialogue

variable {profile : Side → Profile} {before after dialogue : Dialogue}
  {side : Side} {moment : Moment} {message : Message}

def load (dialogue : Dialogue) : Nat :=
  Message.load (dialogue.underway .dialer) +
    Message.load (dialogue.underway .acceptor)

theorem load_eq (dialogue : Dialogue) (side : Side) :
    dialogue.load =
      Message.load (dialogue.underway side) +
        Message.load (dialogue.underway side.other) := by
  cases side with
  | dialer => rfl
  | acceptor => exact Nat.add_comm _ _

theorem Rests.load (hrests : before.Rests after) :
    after.load = before.load := by
  rw [Dialogue.load, hrests.underway, hrests.underway]
  rfl

theorem Acts.load_lt
    (hacts : before.Acts side (.receive moment message) [message] after)
    (h : before.Engaged profile) : after.load < before.load := by
  have hheard : before.underway side.other =
      message :: after.underway side.other := hacts.heard
  obtain ⟨said, hqueue, hlighter⟩ :=
    Link.exists_lighter_answer (h.sides side).phase (hacts.isGossip h) moment
  rw [← hacts.actor] at hqueue
  rw [after.load_eq side, before.load_eq side, hacts.underway hqueue, hheard,
    Message.load_append, Message.load_cons]
  omega

theorem underway_eq_nil_iff :
    dialogue.underway side = [] ↔
      dialogue.sent side = [] ∧ (dialogue.link side).connection.queue = [] :=
  List.append_eq_nil_iff

theorem exists_reaches_quiet (moment : Moment) (h : before.Engaged profile) :
    ∃ after, Reaches moment before after ∧ after.Engaged profile ∧
      ∀ side, after.underway side = [] := by
  induction hload : before.load using Nat.strongRecOn generalizing before with
  | ind load ih =>
      subst hload
      by_cases hquiet : ∀ side, before.underway side = []
      · exact ⟨before, .refl moment before, h, hquiet⟩
      · push Not at hquiet
        obtain ⟨speaker, hwords⟩ := hquiet
        obtain ⟨message, rest, hunderway⟩ := List.exists_cons_of_ne_nil hwords
        rw [← speaker.other_other] at hunderway
        obtain ⟨middle, next, hreaches, hrests, hacts⟩ :=
          exists_reaches_of_underway speaker.other hunderway moment
        have hlighter := hacts.load_lt (hrests.engaged h)
        rw [hrests.load] at hlighter
        obtain ⟨after, hlater, hafter⟩ := ih next.load hlighter
          (engaged_receive (hrests.engaged h) hacts).1 rfl
        exact ⟨after, hreaches.trans hlater, hafter⟩

/-- A dialogue that begins can get through the handshake and come to rest. -/
theorem Begins.exists_reaches_quiet (h : dialogue.Begins) (moment : Moment) :
    ∃ after, Reaches moment dialogue after ∧
      after.Engaged (fun side => (dialogue.link side).node.profile) ∧
        ∀ side, after.underway side = [] := by
  obtain ⟨middle, hfirst, hengaged⟩ :=
    h.dialing.exists_reaches_engaged h.paired moment
  obtain ⟨after, hsecond, hafter⟩ :=
    Dialogue.exists_reaches_quiet moment hengaged
  exact ⟨after, hfirst.trans hsecond, hafter⟩

end Dialogue

end ObjectRelay
