import Mathlib.Data.List.Induction
import ObjectRelay.Proofs.Dialogue.Flow
import ObjectRelay.Proofs.Dialogue.Quiescence

namespace ObjectRelay

/-! Two nodes that have nothing more to say to each other hold the same objects,
but for those that one of them refused. -/

namespace Dialogue

/-- The object arrived at the side after some of the moves, and was not
approved. -/
def Refused (dialogue : Dialogue) (moves : List Move) (side : Side)
    (object : Object) : Prop :=
  ∃ early moment, early ++ [.deliver side moment] <+: moves ∧
    ((dialogue.run early).sent side.other).head? = some (.object object) ∧
    ¬ ((dialogue.run early).link side).node.Approves moment.clock object

/-- What the moves keep: each node is intact and asks nobody else for anything;
all objects are from the start; and they flow both ways. -/
structure Synchronizes (dialogue : Dialogue) (moves : List Move)
    (current : Dialogue) : Prop where
  intact : ∀ side, (current.link side).node.Intact
  alone : ∀ side, (current.link side).Alone
  stocked : ∀ side vector object,
    (current.link side).node.inventory.get? vector = some object →
      ∃ each, (dialogue.link each).node.inventory.get? vector = some object
  flow : ∀ side, Flow ((current.link side).connection.isActive = true)
    (current.link side).stock (current.link side.other).stock
    (current.underway side) (current.underway side.other)
    (dialogue.Refused moves side.other)

variable {dialogue before after : Dialogue} {moves : List Move} {move : Move}
  {side : Side} {profile : Side → Profile} {moment : Moment} {message : Message}
  {vector : InventoryVector} {object : Object}

theorem Refused.concat (h : dialogue.Refused moves side object) (move : Move) :
    dialogue.Refused (moves ++ [move]) side object := by
  obtain ⟨early, moment, hearly, hnext, hrefused⟩ := h
  exact ⟨early, moment, hearly.trans (List.prefix_append _ _), hnext, hrefused⟩

theorem Rests.isActive (h : before.Rests after) (side : Side) :
    (after.link side).connection.isActive =
      (before.link side).connection.isActive := by
  obtain ⟨queue, hlink⟩ := h.link side
  rw [hlink]
  rfl

theorem Rests.synchronizes (hrests : before.Rests after)
    (h : dialogue.Synchronizes moves before) (move : Move) :
    dialogue.Synchronizes (moves ++ [move]) after where
  intact side := by
    obtain ⟨queue, hlink⟩ := hrests.link side
    rw [hlink]
    exact h.intact side
  alone side := by
    obtain ⟨queue, hlink⟩ := hrests.link side
    rw [hlink]
    exact ⟨(h.alone side).agrees, (h.alone side).others⟩
  stocked side := by
    obtain ⟨queue, hlink⟩ := hrests.link side
    rw [hlink]
    exact h.stocked side
  flow side := by
    rw [hrests.isActive, hrests.stock, hrests.stock, hrests.underway,
      hrests.underway]
    exact (h.flow side).mono fun object hrefused => hrefused.concat move

theorem Synchronizes.exists_vector (h : dialogue.Synchronizes moves before)
    (hobject : .object object ∈ before.underway side.other) :
    ∃ vector, object.vector (before.link side).node.hasher = .ok vector ∧
      (before.link side.other).node.inventory.get? vector = some object := by
  obtain ⟨vector, hvector, hoffers⟩ :=
    (h.flow side.other).carried object hobject
  rw [Side.other_other] at hvector
  exact ⟨vector, hvector, hoffers.held⟩

theorem Acts.forall_link (holds : Link → Prop) {action : Action}
    {heard : List Message} (hacts : before.Acts side action heard after)
    (hperform : ∀ {link}, holds link → holds (link.perform action))
    (h : ∀ each, holds (before.link each)) (each : Side) :
    holds (after.link each) := by
  rcases side.eq_or_eq_other each with rfl | rfl
  · rw [hacts.actor]
    exact hperform (h _)
  · rw [hacts.other]
    exact h _

theorem Acts.stocked
    (hacts : before.Acts side (.receive moment message) [message] after)
    (h : dialogue.Synchronizes moves before) {each : Side}
    (hheld : (after.link each).node.inventory.get? vector = some object) :
    ∃ origin, (dialogue.link origin).node.inventory.get? vector =
      some object := by
  rcases side.eq_or_eq_other each with rfl | rfl
  · rw [hacts.actor] at hheld
    rcases Link.get?_eq_some_or_takes hheld with hold | ⟨_, hreceive, htakes⟩
    · exact h.stocked _ vector object hold
    · cases hreceive
      obtain ⟨named, hnamed, hgiven⟩ := h.exists_vector hacts.mem_underway
      rw [htakes.named] at hnamed
      rw [← Except.ok.inj hnamed] at hgiven
      exact h.stocked _ vector object hgiven
  · rw [hacts.other] at hheld
    exact h.stocked _ vector object hheld

/-- The side that hears a word takes what flows to it and gives what flows from
it. -/
theorem Acts.flow (hpaired : before.Paired profile)
    (hstage : Stage profile before) (hhasher : ∀ side,
      (before.link side).node.hasher = (before.link side.other).node.hasher)
    (hacts : before.Acts side (.receive moment message) [message] after)
    (hrefused : ∀ object, message = .object object →
      ¬ (before.link side).node.Approves moment.clock object →
        dialogue.Refused (moves ++ [move]) side object)
    (h : dialogue.Synchronizes moves before) (each : Side) :
    Flow ((after.link each).connection.isActive = true)
      (after.link each).stock (after.link each.other).stock
      (after.underway each) (after.underway each.other)
      (dialogue.Refused (moves ++ [move]) each.other) := by
  obtain ⟨said, hhears, hsaid⟩ := (stage_receive hpaired hstage hacts).2
  have hheard : before.underway side.other =
      message :: after.underway side.other := hacts.heard
  have hflow := (h.flow each).mono fun object hgone => hgone.concat move
  rcases side.eq_or_eq_other each with rfl | rfl
  · rw [hheard] at hflow
    rw [← hpaired.own each.other] at hhears
    rw [hacts.other, hsaid]
    refine hflow.giver_hears (h.intact each) (hhasher each) hhears ?_
    rintro object rfl
    obtain ⟨vector, hvector, hheld⟩ := h.exists_vector hacts.mem_underway
    exact ⟨vector, hvector, Option.isSome_iff_exists.mpr ⟨object, hheld⟩⟩
  · rw [Side.other_other, hheard] at hflow
    rw [Side.other_other, hacts.other, hsaid]
    exact hflow.taker_hears (h.alone side) hhears hrefused

theorem Acts.synchronizes (hpaired : before.Paired profile)
    (hstage : Stage profile before) (hhasher : ∀ side,
      (before.link side).node.hasher = (before.link side.other).node.hasher)
    (hacts : before.Acts side (.receive moment message) [message] after)
    (hrefused : ∀ object, message = .object object →
      ¬ (before.link side).node.Approves moment.clock object →
        dialogue.Refused (moves ++ [move]) side object)
    (h : dialogue.Synchronizes moves before) :
    dialogue.Synchronizes (moves ++ [move]) after where
  intact := hacts.forall_link (·.node.Intact) (fun h => Link.intact_perform h _)
    h.intact
  alone :=
    hacts.forall_link Link.Alone (fun h => Link.alone_perform h _) h.alone
  stocked _ _ _ := hacts.stocked h
  flow := hacts.flow hpaired hstage hhasher hrefused h

theorem hasher_run (dialogue : Dialogue) (moves : List Move) (each : Side) :
    ((dialogue.run moves).link each).node.hasher =
      (dialogue.link each).node.hasher :=
  congrArg WorkEngine.hasher
    (stock_run Stock.engine Link.engine_perform dialogue moves each)

/-- What both nodes bring along. -/
structure Prepared (dialogue : Dialogue) : Prop where
  begins : dialogue.Begins
  hasher : ∀ side, (dialogue.link side).node.hasher =
    (dialogue.link side.other).node.hasher
  intact : ∀ side, (dialogue.link side).node.Intact
  requests : ∀ side, (dialogue.link side).node.requests.size = 0

theorem Begins.exists_launched (h : dialogue.Begins) (side : Side) :
    ∃ node id mode remote now moment,
      dialogue.link side = Link.launched node id mode remote now moment := by
  cases side with
  | dialer =>
      obtain ⟨node, id, mode, remote, now, moment, -, hlink⟩ := h.dialer
      exact ⟨node, id, mode, remote, now, moment, hlink⟩
  | acceptor =>
      obtain ⟨node, id, remote, now, moment, hlink⟩ := h.acceptor
      exact ⟨node, id, .server, remote, now, moment, hlink⟩

theorem Begins.not_awaited (h : dialogue.Begins) (side : Side)
    (vector : InventoryVector) :
    (dialogue.link side).connection.outstanding.contains vector = false := by
  obtain ⟨node, id, mode, remote, now, moment, hlink⟩ := h.exists_launched side
  have hstock :=
    (Link.speaks_start ⟨node, .opened id mode remote now⟩ moment).stock
  rw [hlink, show (Link.launched node id mode remote now
    moment).connection.outstanding = ∅ from
    congrArg Stock.outstanding hstock]
  exact Std.HashSet.contains_empty

theorem Dialing.not_isRelay (h : dialogue.Dialing profile) (side : Side) :
    ∀ word ∈ dialogue.underway side, ¬ word.IsRelay := by
  cases side with
  | dialer =>
      obtain ⟨greeting, -, hcall⟩ := h.call
      rw [hcall]
      simp [Message.IsRelay]
  | acceptor =>
      rw [h.silent]
      simp

theorem synchronizes_nil (h : dialogue.Prepared) :
    dialogue.Synchronizes [] dialogue := by
  refine ⟨h.intact,
    fun side => ⟨fun vector => ?_, fun vector peer howner => ?_⟩,
    fun side vector object hheld => ⟨side, hheld⟩, fun side => ?_⟩
  · rw [RequestLedger.owner?_eq_none_of_size_eq_zero (h.requests side),
      h.begins.not_awaited]
    simp
  · rw [RequestLedger.owner?_eq_none_of_size_eq_zero (h.requests side)]
      at howner
    cases howner
  · refine .of_silent ?_ (h.begins.not_awaited side.other)
      (h.begins.dialing.not_isRelay side)
      (h.begins.dialing.not_isRelay side.other)
    simp [Connection.isActive, h.begins.dialing.connecting side]

theorem synchronizes_run (h : dialogue.Prepared)
    (hmoves : ∀ move ∈ moves, move.IsTransport) :
    dialogue.Synchronizes moves (dialogue.run moves) := by
  -- A refusal is told from all the moves before it, so the last move is taken
  -- off, not the first.
  induction moves using List.reverseRecOn with
  | nil => exact synchronizes_nil h
  | append_singleton earlier move ih =>
      have hearlier :=
        ih fun each hmem => hmoves each (List.mem_append_left _ hmem)
      have hpaired := paired_run h.begins.paired earlier
      have hstage :=
        stage_run h.begins.paired (.dialing h.begins.dialing) earlier
      have hhasher : ∀ side, ((dialogue.run earlier).link side).node.hasher =
          ((dialogue.run earlier).link side.other).node.hasher := by
        intro side
        rw [hasher_run, hasher_run]
        exact h.hasher side
      have hmove : move.IsTransport := hmoves move (by simp)
      have hturn := turn_step (dialogue.run earlier) move
      rw [run_concat]
      generalize (dialogue.run earlier).step move = after at hturn ⊢
      cases hturn with
      | rests hrests => exact hrests.synchronizes hearlier move
      | hears hnext hacts =>
          refine hacts.synchronizes hpaired hstage hhasher ?_ hearlier
          rintro object rfl hrefused
          exact ⟨earlier, _, List.prefix_rfl, hnext, hrefused⟩
      | offers hacts => exact hmove.elim
      | reassigns hacts => exact hmove.elim

theorem get?_step
    (hheld : (before.link side).node.inventory.get? vector = some object)
    (move : Move) : ((before.step move).link side).node.inventory.get? vector =
      some object := by
  have hacts : ∀ {actor action heard after},
      before.Acts actor action heard after →
      (after.link side).node.inventory.get? vector = some object := by
    intro actor action heard after hacts
    rcases actor.eq_or_eq_other side with rfl | rfl
    · rw [hacts.actor]
      exact Link.get?_perform_eq_some hheld action
    · rw [hacts.other]
      exact hheld
  have hturn := turn_step before move
  generalize before.step move = after at hturn ⊢
  cases hturn with
  | rests hrests =>
      obtain ⟨queue, hlink⟩ := hrests.link side
      rw [hlink]
      exact hheld
  | hears hnext h => exact hacts h
  | offers h => exact hacts h
  | reassigns h => exact hacts h

theorem get?_run
    (hheld : (before.link side).node.inventory.get? vector = some object)
    (moves : List Move) :
    ((before.run moves).link side).node.inventory.get? vector =
      some object := by
  induction moves generalizing before with
  | nil => exact hheld
  | cons move rest ih => exact ih (get?_step hheld move)

/-- Once both sides are active and nothing is on its way, nothing is requested
any more; what a side has ever held in a stream that both serve the other holds
too, if it did not refuse it when it arrived; and there is nothing that neither
held at the start. -/
theorem synchronized_when_quiet (h : dialogue.Prepared)
    (hmoves : ∀ move ∈ moves, move.IsTransport)
    (hactive : ∀ side,
      ((dialogue.run moves).link side).connection.isActive = true)
    (hquiet : ∀ side, (dialogue.run moves).sent side = [] ∧
      ((dialogue.run moves).link side).connection.queue = []) :
    (∀ side, ((dialogue.run moves).link side).connection.outstanding.size = 0 ∧
      ((dialogue.run moves).link side).node.requests.size = 0) ∧
    (∀ side early vector object, early <+: moves →
      ((dialogue.run early).link side).node.inventory.get? vector =
        some object →
        (∀ each, (dialogue.link each).node.profile.streams.contains
          object.stream = true) →
          ((dialogue.run moves).link side.other).node.inventory.contains
            vector = true ∨
            dialogue.Refused moves side.other object) ∧
    ∀ side vector object,
      ((dialogue.run moves).link side).node.inventory.get? vector =
        some object →
        ∃ each, (dialogue.link each).node.inventory.get? vector =
          some object := by
  have hrun := synchronizes_run h hmoves
  have hflow : ∀ side,
      Flow (((dialogue.run moves).link side).connection.isActive = true)
      ((dialogue.run moves).link side).stock
        ((dialogue.run moves).link side.other).stock [] []
      (dialogue.Refused moves side.other) := by
    intro side
    have hflow := hrun.flow side
    rwa [underway_eq_nil_iff.mpr (hquiet side),
      underway_eq_nil_iff.mpr (hquiet side.other)] at hflow
  refine ⟨fun side => ?_, fun side early vector object hearly hheld hserved =>
    ?_, hrun.stocked⟩
  · have hawaited : ∀ vector,
        ((dialogue.run moves).link side).connection.outstanding.contains
          vector = false := by
      intro vector
      have hother := (hflow side.other).not_awaited vector
      rwa [Side.other_other] at hother
    refine ⟨?_, RequestLedger.size_eq_zero_of_not_isRequested fun vector => ?_⟩
    · have hempty := Std.HashSet.isEmpty_iff_forall_contains.mpr hawaited
      rw [Std.HashSet.isEmpty_eq_size_eq_zero] at hempty
      exact beq_iff_eq.mp hempty
    · rw [(hrun.alone side).isRequested_eq]
      exact hawaited vector
  · obtain ⟨later, rfl⟩ := hearly
    have hstill := get?_run hheld later
    rw [← run_append] at hstill
    have hoffers :
        Stock.Offers ((dialogue.run (early ++ later)).link side).stock
        ((dialogue.run (early ++ later)).link side.other).stock vector
          object := by
      refine ⟨hstill, ?_⟩
      have hother := hserved side.other
      rwa [← profile_run dialogue (early ++ later)] at hother
    rw [Inventory.contains_eq]
    exact (hflow side).held_or_refused (hactive side) hoffers

theorem intact_holderNode : holderNode.Intact := by
  intro vector object hheld
  rcases Inventory.get?_eq_of_get?_store hheld with ⟨rfl, rfl⟩ | hold
  · exact ⟨rfl, rfl, rfl⟩
  · simp [Hub.plainNode, Inventory.get?] at hold

theorem intact_emptyNode : emptyNode.Intact := by
  intro vector object hheld
  simp [emptyNode, Hub.plainNode, Inventory.get?] at hheld

theorem prepared_holderCallsEmpty : holderCallsEmpty.Prepared where
  begins := begins_holderCallsEmpty
  hasher side := by cases side <;> rfl
  intact
    | .dialer => intact_holderNode
    | .acceptor => intact_emptyNode
  requests
    | .dialer => Hub.size_requests_plainNode
    | .acceptor => Hub.size_requests_plainNode

theorem not_refused_holderCallsEmpty
    (hmoves : ∀ move ∈ moves, move.IsTransportAt Hub.plainMoment) :
    ¬ holderCallsEmpty.Refused moves .acceptor Hub.plainObject := by
  rintro ⟨early, moment, hearly, -, hrefused⟩
  have hmoment : moment = Hub.plainMoment :=
    hmoves (.deliver .acceptor moment) (hearly.subset (by simp))
  have hengine : ((holderCallsEmpty.run early).link .acceptor).node.engine =
      emptyNode.engine :=
    stock_run Stock.engine Link.engine_perform holderCallsEmpty early .acceptor
  refine hrefused ⟨?_, ?_⟩
  · rw [hmoment]
    decide
  · rw [hmoment, hengine]
    rfl

/-- They come to rest, and both hold the object. -/
theorem holderCallsEmpty_synchronize :
    holderCallsEmpty.Prepared ∧ ∃ moves, (∀ move ∈ moves, move.IsTransport) ∧
      (∀ side, ((holderCallsEmpty.run moves).link side).connection.isActive =
        true) ∧
      (∀ side, (holderCallsEmpty.run moves).sent side = [] ∧
        ((holderCallsEmpty.run moves).link side).connection.queue = []) ∧
      ((holderCallsEmpty.run moves).link .acceptor).node.inventory.contains
        (.ofNat 32 0) = true := by
  obtain ⟨after, ⟨moves, hmoves, rfl⟩, hengaged, hquiet⟩ :=
    begins_holderCallsEmpty.exists_reaches_quiet Hub.plainMoment
  have htransport : ∀ move ∈ moves, move.IsTransport :=
    fun move hmem => (hmoves move hmem).isTransport
  have hrest := fun side => underway_eq_nil_iff.mp (hquiet side)
  refine ⟨prepared_holderCallsEmpty, moves, htransport, hengaged.isActive,
    hrest, ?_⟩
  obtain ⟨-, hspread, -⟩ :=
    synchronized_when_quiet prepared_holderCallsEmpty htransport
      hengaged.isActive hrest
  have hheld : holderNode.inventory.get? (.ofNat 32 0) = some Hub.plainObject :=
    Inventory.get?_store_of_eq_none Std.HashMap.getElem?_empty _
  have hserved : ∀ each,
      (holderCallsEmpty.link each).node.profile.streams.contains
      Hub.plainObject.stream = true := by
    intro each
    cases each <;> rfl
  rcases hspread .dialer [] _ _ List.nil_prefix hheld hserved with
    harrived | hrefused
  · exact harrived
  · exact absurd hrefused (not_refused_holderCallsEmpty hmoves)

end Dialogue

end ObjectRelay
