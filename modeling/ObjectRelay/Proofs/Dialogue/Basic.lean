import Mathlib.Logic.Function.Basic
import ObjectRelay.Proofs.Connection.Handshake
import ObjectRelay.Proofs.Connection.Meeting

namespace ObjectRelay

inductive Side where
  | dialer
  | acceptor
deriving DecidableEq

namespace Side

def other : Side → Side
  | dialer => acceptor
  | acceptor => dialer

@[simp] theorem other_other (side : Side) : side.other.other = side := by
  cases side <;> rfl

theorem other_ne (side : Side) : side.other ≠ side := by
  cases side <;> decide

theorem eq_or_eq_other (side each : Side) :
    each = side ∨ each = side.other := by
  cases side <;> cases each <;> decide

end Side

structure Dialogue where
  /-- The end of each side. -/
  link : Side → Link
  /-- What each side has sent and the other has not received. -/
  sent : Side → List Message

inductive Move where
  | send (side : Side)
  | deliver (side : Side) (moment : Moment)
  | offer (side : Side) (moment : Moment) (vector : InventoryVector)
  | reassign (side : Side) (moment : Moment) (vectors : List InventoryVector)

def Link.withQueue (link : Link) (queue : List Message) : Link :=
  { link with connection := { link.connection with queue := queue } }

namespace Move

/-- The move only carries words. -/
def IsTransport : Move → Prop
  | send _ | deliver _ _ => True
  | offer _ _ _ | reassign _ _ _ => False

/-- The move only carries words, at one moment. -/
def IsTransportAt (moment : Moment) : Move → Prop
  | send _ => True
  | deliver _ instant => instant = moment
  | offer _ _ _ | reassign _ _ _ => False

theorem IsTransportAt.isTransport {moment : Moment} {move : Move}
    (h : move.IsTransportAt moment) : move.IsTransport := by
  cases move with
  | send side => trivial
  | deliver side instant => trivial
  | offer side instant vector => exact h
  | reassign side instant vectors => exact h

end Move

namespace Dialogue

def act (dialogue : Dialogue) (side : Side) (action : Action) : Dialogue :=
  { dialogue with
    link := Function.update dialogue.link side
      ((dialogue.link side).perform action) }

/-- A side without words sends nothing, and receives nothing where nothing was
sent. -/
def step (dialogue : Dialogue) : Move → Dialogue
  | .send side =>
      let link := dialogue.link side
      match link.connection.queue with
      | [] => dialogue
      | message :: rest =>
          { link := Function.update dialogue.link side (link.withQueue rest)
            sent := Function.update dialogue.sent side
              (dialogue.sent side ++ [message]) }
  | .deliver side moment =>
      match dialogue.sent side.other with
      | [] => dialogue
      | message :: rest =>
          { dialogue with
            sent := Function.update dialogue.sent side.other rest }.act side
            (.receive moment message)
  | .offer side moment vector => dialogue.act side (.offer moment vector)
  | .reassign side moment vectors =>
    dialogue.act side (.reassign moment vectors)

def run (dialogue : Dialogue) (moves : List Move) : Dialogue :=
  moves.foldl step dialogue

@[simp] theorem run_nil (dialogue : Dialogue) :
    dialogue.run [] = dialogue := rfl

@[simp] theorem run_cons (dialogue : Dialogue) (move : Move)
    (moves : List Move) :
    dialogue.run (move :: moves) = (dialogue.step move).run moves := rfl

theorem run_append (dialogue : Dialogue) (first second : List Move) :
    dialogue.run (first ++ second) = (dialogue.run first).run second :=
  List.foldl_append

theorem run_concat (dialogue : Dialogue) (moves : List Move) (move : Move) :
    dialogue.run (moves ++ [move]) = (dialogue.run moves).step move :=
  List.foldl_append

/-- What a side has said and the other has not heard, sent or not. -/
def underway (dialogue : Dialogue) (side : Side) : List Message :=
  dialogue.sent side ++ (dialogue.link side).connection.queue

/-- One connection was dialed and the other accepted, by nodes that do not take
each other for themselves. -/
structure Begins (dialogue : Dialogue) : Prop where
  dialer : ∃ node id mode remote now moment, mode ≠ .server ∧
    dialogue.link .dialer = Link.launched node id mode remote now moment
  acceptor : ∃ node id remote now moment,
    dialogue.link .acceptor = Link.launched node id .server remote now moment
  nonce : (dialogue.link .dialer).node.profile.nonce ≠
    (dialogue.link .acceptor).node.profile.nonce
  sent : ∀ side, dialogue.sent side = []

/-- Nothing has changed but how far words have come. -/
structure Rests (before after : Dialogue) : Prop where
  link : ∀ side, ∃ queue, after.link side = (before.link side).withQueue queue
  underway : ∀ side, after.underway side = before.underway side

/-- One side has acted, and some words are no longer on their way to it. -/
structure Acts (before : Dialogue) (side : Side) (action : Action)
    (heard : List Message) (after : Dialogue) : Prop where
  actor : after.link side = (before.link side).perform action
  other : after.link side.other = before.link side.other
  heard : before.underway side.other = heard ++ after.underway side.other
  sent : after.sent side = before.sent side

inductive Turn (before : Dialogue) : Move → Dialogue → Prop where
  | rests {move : Move} {after : Dialogue} (h : before.Rests after) :
      Turn before move after
  | hears {side : Side} {moment : Moment} {message : Message} {after : Dialogue}
      (hnext : (before.sent side.other).head? = some message)
      (h : before.Acts side (.receive moment message) [message] after) :
      Turn before (.deliver side moment) after
  | offers {side : Side} {moment : Moment} {vector : InventoryVector}
      {after : Dialogue}
      (h : before.Acts side (.offer moment vector) [] after) :
      Turn before (.offer side moment vector) after
  | reassigns {side : Side} {moment : Moment} {vectors : List InventoryVector}
      {after : Dialogue}
        (h : before.Acts side (.reassign moment vectors) [] after) :
      Turn before (.reassign side moment vectors) after

variable {before after : Dialogue} {side : Side} {action : Action}
  {heard said : List Message}

theorem Rests.refl (dialogue : Dialogue) : dialogue.Rests dialogue :=
  ⟨fun side => ⟨(dialogue.link side).connection.queue, rfl⟩, fun _ => rfl⟩

theorem Rests.bearing (h : before.Rests after) (side : Side) :
    (after.link side).bearing = (before.link side).bearing := by
  obtain ⟨queue, hlink⟩ := h.link side
  rw [hlink]
  rfl

theorem Rests.stock (h : before.Rests after) (side : Side) :
    (after.link side).stock = (before.link side).stock := by
  obtain ⟨queue, hlink⟩ := h.link side
  rw [hlink]
  rfl

theorem Acts.underway (h : before.Acts side action heard after)
    (hqueue : (after.link side).connection.queue =
      (before.link side).connection.queue ++ said) :
    after.underway side = before.underway side ++ said := by
  rw [Dialogue.underway, h.sent, hqueue, ← List.append_assoc]
  rfl

theorem acts_act (dialogue : Dialogue) (side : Side) (action : Action) :
    dialogue.Acts side action [] (dialogue.act side action) where
  actor := Function.update_self ..
  other := Function.update_of_ne side.other_ne ..
  heard := by
    rw [Dialogue.underway, Dialogue.underway, act]
    dsimp only
    rw [Function.update_of_ne side.other_ne]
    rfl
  sent := rfl

theorem acts_deliver {dialogue : Dialogue} {message : Message}
    {rest : List Message} (hsent : dialogue.sent side.other = message :: rest)
    (action : Action) :
    dialogue.Acts side action [message]
      ({ dialogue with
        sent := Function.update dialogue.sent side.other rest }.act side action)
    where
  actor := Function.update_self ..
  other := Function.update_of_ne side.other_ne ..
  heard := by
    rw [Dialogue.underway, Dialogue.underway, act]
    dsimp only
    rw [Function.update_of_ne side.other_ne, Function.update_self, hsent]
    rfl
  sent := Function.update_of_ne side.other_ne.symm ..

theorem rests_send {dialogue : Dialogue} {message : Message}
    {rest : List Message}
    (hqueue : (dialogue.link side).connection.queue = message :: rest) :
    dialogue.Rests (dialogue.step (.send side)) := by
  have hstep : dialogue.step (.send side) =
      { link := Function.update dialogue.link side
          ((dialogue.link side).withQueue rest)
        sent := Function.update dialogue.sent side
          (dialogue.sent side ++ [message]) } := by
    rw [step, hqueue]
  rw [hstep]
  refine ⟨fun each => ?_, fun each => ?_⟩
  · dsimp only
    by_cases hsame : each = side
    · subst hsame
      exact ⟨rest, Function.update_self ..⟩
    · exact ⟨(dialogue.link each).connection.queue,
        Function.update_of_ne hsame ..⟩
  · unfold underway
    dsimp only
    by_cases hsame : each = side
    · subst hsame
      rw [Function.update_self, Function.update_self, hqueue, List.append_assoc]
      rfl
    · rw [Function.update_of_ne hsame, Function.update_of_ne hsame]

theorem turn_step (dialogue : Dialogue) (move : Move) :
    dialogue.Turn move (dialogue.step move) := by
  cases move with
  | send side =>
      cases hqueue : (dialogue.link side).connection.queue with
      | nil =>
          have hsame : dialogue.step (.send side) =
              dialogue := by simp [step, hqueue]
          rw [hsame]
          exact .rests (.refl dialogue)
      | cons message rest => exact .rests (rests_send hqueue)
  | deliver side moment =>
      rw [step]
      cases hsent : dialogue.sent side.other with
      | nil => exact .rests (.refl dialogue)
      | cons message rest =>
          exact .hears (by rw [hsent]; rfl) (acts_deliver hsent _)
  | offer side moment vector => exact .offers (acts_act dialogue side _)
  | reassign side moment vectors => exact .reassigns (acts_act dialogue side _)

/-- A run that only carries words, all at one moment, leads from one to the
other. -/
def Reaches (moment : Moment) (before after : Dialogue) : Prop :=
  ∃ moves, (∀ move ∈ moves, move.IsTransportAt moment) ∧
    before.run moves = after

theorem Reaches.refl (moment : Moment) (dialogue : Dialogue) :
    Reaches moment dialogue dialogue :=
  ⟨[], by simp, rfl⟩

theorem Reaches.trans {moment : Moment} {middle : Dialogue}
    (hfirst : Reaches moment before middle)
    (hsecond : Reaches moment middle after) : Reaches moment before after := by
  obtain ⟨first, hmoves, rfl⟩ := hfirst
  obtain ⟨second, hmoves', rfl⟩ := hsecond
  refine ⟨first ++ second, ?_, run_append _ _ _⟩
  intro move hmem
  rcases List.mem_append.mp hmem with hmem | hmem
  · exact hmoves move hmem
  · exact hmoves' move hmem

theorem reaches_send (moment : Moment) (dialogue : Dialogue) (side : Side) :
    Reaches moment dialogue (dialogue.step (.send side)) :=
  ⟨[.send side], by simp [Move.IsTransportAt], rfl⟩

theorem reaches_deliver (moment : Moment) (dialogue : Dialogue) (side : Side) :
    Reaches moment dialogue (dialogue.step (.deliver side moment)) :=
  ⟨[.deliver side moment], by simp [Move.IsTransportAt], rfl⟩

theorem acts_step_deliver {dialogue : Dialogue} {message : Message}
    {rest : List Message} (hsent : dialogue.sent side.other = message :: rest)
    (moment : Moment) :
    dialogue.Acts side (.receive moment message) [message]
      (dialogue.step (.deliver side moment)) := by
  rw [step, hsent]
  exact acts_deliver hsent _

theorem sent_step_send {dialogue : Dialogue} {message : Message}
    {rest : List Message}
    (hqueue : (dialogue.link side).connection.queue = message :: rest) :
    (dialogue.step (.send side)).sent side =
      dialogue.sent side ++ [message] := by
  rw [step, hqueue]
  exact Function.update_self ..

theorem exists_reaches_of_underway {dialogue : Dialogue} (side : Side)
    {message : Message} {rest : List Message}
    (hunderway : dialogue.underway side.other = message :: rest)
    (moment : Moment) :
    ∃ middle after, Reaches moment dialogue after ∧ dialogue.Rests middle ∧
      middle.Acts side (.receive moment message) [message] after := by
  rw [underway] at hunderway
  cases hsent : dialogue.sent side.other with
  | cons first later =>
      rw [hsent] at hunderway
      obtain ⟨rfl, -⟩ := List.cons.inj hunderway
      exact ⟨dialogue, _, reaches_deliver moment dialogue side, .refl dialogue,
        acts_step_deliver hsent moment⟩
  | nil =>
      rw [hsent] at hunderway
      have hcarried := sent_step_send hunderway
      rw [hsent] at hcarried
      exact ⟨_, _, (reaches_send moment dialogue side.other).trans
        (reaches_deliver moment _ side),
        rests_send hunderway, acts_step_deliver hcarried moment⟩

theorem Acts.stock_eq {α : Type} {field : Stock → α}
    (h : before.Acts side action heard after)
    (hfield : ∀ (link : Link) (action : Action),
      field (link.perform action).stock = field link.stock) (each : Side) :
    field (after.link each).stock = field (before.link each).stock := by
  rcases side.eq_or_eq_other each with rfl | rfl
  · rw [h.actor]
    exact hfield _ _
  · rw [h.other]

theorem stock_step {α : Type} (field : Stock → α)
    (hfield : ∀ (link : Link) (action : Action),
      field (link.perform action).stock = field link.stock)
    (dialogue : Dialogue) (move : Move) (each : Side) :
    field ((dialogue.step move).link each).stock =
      field (dialogue.link each).stock := by
  have hturn := turn_step dialogue move
  generalize dialogue.step move = after at hturn ⊢
  cases hturn with
  | rests h => exact congrArg field (h.stock each)
  | hears hnext h => exact h.stock_eq hfield each
  | offers h => exact h.stock_eq hfield each
  | reassigns h => exact h.stock_eq hfield each

theorem stock_run {α : Type} (field : Stock → α)
    (hfield : ∀ (link : Link) (action : Action),
      field (link.perform action).stock = field link.stock)
    (dialogue : Dialogue) (moves : List Move) (each : Side) :
    field ((dialogue.run moves).link each).stock =
      field (dialogue.link each).stock := by
  induction moves generalizing dialogue with
  | nil => rfl
  | cons move rest ih =>
      exact (ih (dialogue.step move)).trans
        (stock_step field hfield dialogue move each)

theorem profile_run (dialogue : Dialogue) (moves : List Move) (each : Side) :
    ((dialogue.run moves).link each).node.profile =
      (dialogue.link each).node.profile :=
  stock_run Stock.profile Link.profile_perform dialogue moves each

theorem mode_run (dialogue : Dialogue) (moves : List Move) (each : Side) :
    ((dialogue.run moves).link each).connection.mode =
      (dialogue.link each).connection.mode :=
  stock_run Stock.mode Link.mode_perform dialogue moves each

end Dialogue

end ObjectRelay
