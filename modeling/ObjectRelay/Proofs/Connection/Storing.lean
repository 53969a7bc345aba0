import ObjectRelay.Proofs.Connection.Effect
import ObjectRelay.Proofs.Node.Acceptance

namespace ObjectRelay

namespace Link

/-- The object is new to the node of an active connection, and passes every
check. -/
structure Takes (link : Link) (moment : Moment) (vector : InventoryVector)
    (object : Object) : Prop where
  active : link.connection.isActive = true
  named : object.vector link.node.hasher = .ok vector
  new : link.node.inventory.get? vector = none
  stream : link.node.profile.streams.contains object.stream = true
  approved : link.node.Approves moment.clock object

variable {link : Link} {moment : Moment} {message : Message}
  {vector : InventoryVector} {object : Object} {action : Action}

theorem Takes.accepts (h : link.Takes moment vector object) :
    link.node.accepts moment.clock vector object = true :=
  Node.accepts_iff.mpr ⟨h.new, h.stream, h.approved⟩

theorem takes_of_accepts (hactive : link.connection.isActive = true)
    (hvector : object.vector link.node.hasher = .ok vector)
    (haccepts : link.node.accepts moment.clock vector object = true) :
    link.Takes moment vector object := by
  obtain ⟨hnew, hstream, happroved⟩ := Node.accepts_iff.mp haccepts
  exact ⟨hactive, hvector, hnew, hstream, happroved⟩

theorem Takes.suits (h : link.Takes moment vector object) :
    link.node.Suits vector object :=
  ⟨Object.isSome_nonce?_of_vector h.named, h.named, h.stream⟩

theorem phase_of_isActive (h : link.connection.isActive = true) :
    link.connection.phase = .active := by
  simpa [Connection.isActive] using h

theorem event_receiveConnecting_ne (link : Link) (moment : Moment)
    (message : Message) (vector : InventoryVector) :
    (link.receiveConnecting moment message).2 ≠ some (.accepted vector) := by
  unfold receiveConnecting receiveGreeting receiveVerack
  cases message with
  | version greeting =>
      dsimp only
      split
      · simp
      · split
        · simp
        · split
          · simp
          · split <;> simp
  | verack =>
      dsimp only
      split
      · split <;> simp
      · simp
      · simp
  | _ => simp

theorem event_receiveObject_eq_iff :
    (link.receiveObject moment object).2 = some (.accepted vector) ↔
      object.vector link.node.hasher = .ok vector ∧
        link.node.accepts moment.clock vector object = true := by
  unfold receiveObject
  cases hvector : object.vector link.node.hasher with
  | error failure => simp
  | ok found =>
      dsimp only
      rw [accepts_deliver]
      split
      · rename_i haccepts
        constructor
        · intro hevent
          have hfound : found = vector := by simpa using hevent
          exact ⟨congrArg Except.ok hfound, hfound ▸ haccepts⟩
        · rintro ⟨hfound, -⟩
          rw [Except.ok.inj hfound]
      · rename_i hrefused
        constructor
        · intro hevent
          cases hevent
        · rintro ⟨hfound, haccepts⟩
          rw [Except.ok.inj hfound] at hrefused
          exact absurd haccepts hrefused

theorem event_receive_eq_iff :
    (link.receive moment message).2 = some (.accepted vector) ↔
      ∃ object, message = .object object ∧ link.Takes moment vector object := by
  unfold receive
  cases hphase : link.connection.phase with
  | connecting =>
      refine iff_of_false
        (event_receiveConnecting_ne _ moment message vector) ?_
      rintro ⟨object, rfl, htakes⟩
      have hactive := phase_of_isActive htakes.active
      rw [hphase] at hactive
      cases hactive
  | disconnected reason =>
      refine iff_of_false (by simp) ?_
      rintro ⟨object, rfl, htakes⟩
      have hactive := phase_of_isActive htakes.active
      rw [hphase] at hactive
      cases hactive
  | active =>
      have hactive : link.connection.isActive =
          true := by simp [Connection.isActive, hphase]
      cases message with
      | object object =>
          have hevent :
              ((link.hear moment.instant).receiveObject moment object).2 =
              some (.accepted vector) ↔ object.vector link.node.hasher =
                .ok vector ∧
                link.node.accepts moment.clock vector object = true :=
            event_receiveObject_eq_iff
          refine hevent.trans ?_
          constructor
          · rintro ⟨hvector, haccepts⟩
            exact ⟨object, rfl, takes_of_accepts hactive hvector haccepts⟩
          · rintro ⟨_, hmessage, htakes⟩
            cases hmessage
            exact ⟨htakes.named, htakes.accepts⟩
      | _ => simp [receiveActive]

inductive Shelves (link : Link) (action : Action) (after : Link) : Prop where
  | keeps
      (hnone : ∀ moment vector object,
        action = .receive moment (.object object) →
        ¬ link.Takes moment vector object)
      (hinventory : after.node.inventory = link.node.inventory)
      (hreceived : after.connection.received = link.connection.received)
  | adds {moment : Moment} {vector : InventoryVector} {object : Object}
      (haction : action = .receive moment (.object object))
      (htakes : link.Takes moment vector object)
      (hinventory : after.node.inventory =
        link.node.inventory.store vector object)
      (hreceived : after.connection.received = link.connection.received + 1)

theorem delivers_perform (hactive : link.connection.isActive = true)
    (hvector : object.vector link.node.hasher = .ok vector) (moment : Moment) :
    Delivers moment vector object link
      (link.perform (.receive moment (.object object))) := by
  have hdelivers :=
    delivers_receiveObject (link.hear moment.instant) moment hvector
  rw [perform_receive_of_active (phase_of_isActive hactive)]
  exact ⟨hdelivers.stock, hdelivers.queue⟩

theorem Delivers.inventory {before after : Link}
    (h : Delivers moment vector object before after) :
    after.node.inventory =
      if before.node.accepts moment.clock vector object then
        before.node.inventory.store vector object
      else before.node.inventory :=
  congrArg Stock.inventory h.stock

theorem Delivers.received {before after : Link}
    (h : Delivers moment vector object before after) :
    after.connection.received =
      if before.node.accepts moment.clock vector object
        then before.connection.received + 1
      else before.connection.received :=
  congrArg Stock.received h.stock

theorem Delivers.contains_outstanding_iff {before after : Link}
    {other : InventoryVector} (h : Delivers moment vector object before after) :
    after.connection.outstanding.contains other = true ↔
      vector ≠ other ∧ before.connection.outstanding.contains other = true := by
  rw [h.outstanding]
  split
  · rw [Std.HashSet.contains_erase]
    simp
  · rename_i habsent
    constructor
    · intro hother
      refine ⟨?_, hother⟩
      rintro rfl
      exact habsent hother
    · exact And.right

theorem Delivers.get?_eq_some {before after : Link} {other : InventoryVector}
    {held : Object} (h : Delivers moment vector object before after)
    (hheld : before.node.inventory.get? other = some held) :
    after.node.inventory.get? other = some held := by
  rw [h.inventory]
  split
  · exact Inventory.get?_store_of_eq_some hheld _ _
  · exact hheld

theorem Delivers.isSome_get? {before after : Link} {other : InventoryVector}
    (h : Delivers moment vector object before after)
    (hheld : (before.node.inventory.get? other).isSome = true) :
    (after.node.inventory.get? other).isSome = true := by
  obtain ⟨held, hsome⟩ := Option.isSome_iff_exists.mp hheld
  exact Option.isSome_iff_exists.mpr ⟨held, h.get?_eq_some hsome⟩

theorem Delivers.isSome_get?_of_approves {before after : Link}
    (h : Delivers moment vector object before after)
    (hstream : before.node.profile.streams.contains object.stream = true)
    (happroves : before.node.Approves moment.clock object) :
    (after.node.inventory.get? vector).isSome = true := by
  cases hheld : before.node.inventory.get? vector with
  | some old => exact h.isSome_get? (by rw [hheld]; rfl)
  | none =>
      have haccepts : before.node.accepts moment.clock vector object = true :=
        Node.accepts_iff.mpr ⟨hheld, hstream, happroves⟩
      rw [h.inventory, if_pos haccepts, Inventory.get?_store_of_eq_none hheld]
      rfl

theorem Delivers.eq_or_get?_eq_some {before after : Link}
    {other : InventoryVector} {held : Object}
    (h : Delivers moment vector object before after)
    (hheld : after.node.inventory.get? other = some held) :
    other = vector ∧ held = object ∨
    before.node.inventory.get? other = some held := by
  rw [h.inventory] at hheld
  split at hheld
  · exact Inventory.get?_eq_of_get?_store hheld
  · exact .inr hheld

theorem shelves_perform (link : Link) (action : Action) :
    link.Shelves action (link.perform action) := by
  by_cases hnone : ∀ moment vector object,
    action = .receive moment (.object object) →
      ¬ link.Takes moment vector object
  · have heffect := effect_perform link action
    generalize link.perform action = after at heffect
    cases heffect with
    | speech hspeech =>
        exact .keeps hnone (congrArg Stock.inventory hspeech.stock)
          (congrArg Stock.received hspeech.stock)
    | announced hactive hasks =>
        exact .keeps hnone (congrArg Stock.inventory hasks.stock)
          (congrArg Stock.received hasks.stock)
    | takenOver hactive hasks =>
        exact .keeps hnone (congrArg Stock.inventory hasks.stock)
          (congrArg Stock.received hasks.stock)
    | @delivered moment object vector _ hactive hvector hdelivers =>
        have hrefused : ¬ link.node.accepts moment.clock vector object = true :=
          fun haccepts => hnone moment vector object rfl
            (takes_of_accepts hactive hvector haccepts)
        exact .keeps hnone (by rw [hdelivers.inventory, if_neg hrefused])
          (by rw [hdelivers.received, if_neg hrefused])
    | released hreleases =>
        exact .keeps hnone (congrArg Stock.inventory hreleases.stock)
          (congrArg Stock.received hreleases.stock)
  · push Not at hnone
    obtain ⟨moment, vector, object, rfl, htakes⟩ := hnone
    have hdelivers := delivers_perform htakes.active htakes.named moment
    exact .adds rfl htakes (by rw [hdelivers.inventory, if_pos htakes.accepts])
      (by rw [hdelivers.received, if_pos htakes.accepts])

theorem get?_eq_some_or_takes
    (hheld : (link.perform action).node.inventory.get? vector = some object) :
    link.node.inventory.get? vector = some object ∨
      ∃ moment, action = .receive moment (.object object) ∧
        link.Takes moment vector object := by
  cases shelves_perform link action with
  | keeps hnone hinventory hreceived => exact .inl (hinventory ▸ hheld)
  | adds haction htakes hinventory hreceived =>
      rw [hinventory] at hheld
      rcases Inventory.get?_eq_of_get?_store hheld with ⟨rfl, rfl⟩ | hold
      · exact .inr ⟨_, haction, htakes⟩
      · exact .inl hold

theorem get?_perform_eq_some
    (hheld : link.node.inventory.get? vector = some object) (action : Action) :
    (link.perform action).node.inventory.get? vector = some object := by
  cases shelves_perform link action with
  | keeps hnone hinventory hreceived =>
      rw [hinventory]
      exact hheld
  | adds haction htakes hinventory hreceived =>
      rw [hinventory]
      exact Inventory.get?_store_of_eq_some hheld _ _

theorem intact_perform (h : link.node.Intact) (action : Action) :
    (link.perform action).node.Intact := by
  intro vector object hheld
  have hsuits : link.node.Suits vector object := by
    rcases get?_eq_some_or_takes hheld with hold | ⟨moment, -, htakes⟩
    · exact h vector object hold
    · exact htakes.suits
  exact hsuits.congr (congrArg WorkEngine.hasher (engine_perform link action))
    (profile_perform link action)

end Link

end ObjectRelay
