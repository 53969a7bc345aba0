import ObjectRelay.Proofs.Connection.Storing
import ObjectRelay.Proofs.Hub.Refetch

namespace ObjectRelay

/-! What a node comes to hold.  An object gets in by being delivered or
published, with all its checks passed; it stands under its own vector, and only
a cleanup takes it out again. -/

/-- The wall clock, where it is looked at. -/
def Action.clock? : Action → Option Int64
  | start moment | receive moment _ => some moment.clock
  | offer _ _ | reassign _ _ | tick _ | disconnect _ | release => none

def Chore.clock? : Chore → Option Int64
  | publish clock _ | cleanInventory clock | cleanAddresses clock => some clock
  | offerAddresses moment _ => some moment.clock
  | addBootstrap _ _ => none

namespace Node

theorem publish_of_ok {node : Node} {clock : Int64} {object : Object}
    {vector : InventoryVector}
    (h : Service.checkObject node clock object = .ok vector) :
    (node.publish clock object).inventory =
      node.inventory.store vector object := by
  rw [publish, h]
  rfl

theorem publish_of_error {node : Node} {clock : Int64} {object : Object}
    {failure : ServiceError}
    (h : Service.checkObject node clock object = .error failure) :
    node.publish clock object = node := by
  rw [publish, h]

theorem hasher_work (node : Node) (chore : Chore) :
    (node.work chore).hasher = node.hasher := by
  cases chore with
  | publish clock object =>
      rw [work, publish]
      split <;> rfl
  | _ => rfl

end Node

namespace Hub

def Step.clock? : Step → Option Int64
  | act _ action => action.clock?
  | work chore => chore.clock?
  | write _ | consult _ _ => none

/-- What the owner of a connection is told by a step, and which connection it
is. -/
def told? (hub : Hub) : Step → Option (PeerId × Event)
  | .act id (.receive moment message) => do
      let link ← hub.link? id
      let event ← (link.receive moment message).2
      return (id, event)
  | _ => none

/-- A step newly stores an object: a connection tells that it has accepted it,
or it is published and was not held. -/
inductive Adds (hub : Hub) : Step → InventoryVector → Object → Prop where
  | accepted {id : PeerId} {moment : Moment} {vector : InventoryVector}
      {object : Object}
      (htold : hub.told? (.act id (.receive moment (.object object))) =
        some (id, .accepted vector)) :
      Adds hub (.act id (.receive moment (.object object))) vector object
  | published {clock : Int64} {vector : InventoryVector} {object : Object}
      (hchecked : Service.checkObject hub.node clock object = .ok vector)
      (hnew : hub.node.inventory.get? vector = none) :
      Adds hub (.work (.publish clock object)) vector object

variable {hub : Hub} {step : Step} {id : PeerId} {vector : InventoryVector}
  {object : Object}

theorem told?_eq_accepted_iff :
    hub.told? step = some (id, .accepted vector) ↔
      ∃ moment object link, step = .act id (.receive moment (.object object)) ∧
        hub.link? id = some link ∧ link.Takes moment vector object := by
  constructor
  · intro htold
    cases step with
    | act actor action =>
        cases action with
        | receive moment message =>
            simp only [told?, Option.bind_eq_bind, Option.pure_def,
              Option.bind_eq_some_iff, Option.some.injEq, Prod.mk.injEq]
                at htold
            obtain ⟨link, hlink, event, hevent, rfl, rfl⟩ := htold
            obtain ⟨object, rfl, htakes⟩ := Link.event_receive_eq_iff.mp hevent
            exact ⟨moment, object, link, rfl, hlink, htakes⟩
        | _ => cases htold
    | _ => cases htold
  · rintro ⟨moment, object, link, rfl, hlink, htakes⟩
    have hevent : (link.receive moment (.object object)).2 =
        some (.accepted vector) :=
      Link.event_receive_eq_iff.mpr ⟨object, rfl, htakes⟩
    simp [told?, hlink, hevent]

theorem adds_receive_iff {moment : Moment} :
    hub.Adds (.act id (.receive moment (.object object))) vector object ↔
      ∃ link, hub.link? id = some link ∧ link.Takes moment vector object := by
  constructor
  · intro hadds
    cases hadds with
    | accepted htold =>
        obtain ⟨_, _, link, hstep, hlink, htakes⟩ :=
          told?_eq_accepted_iff.mp htold
        cases hstep
        exact ⟨link, hlink, htakes⟩
  · rintro ⟨link, hlink, htakes⟩
    exact .accepted
      (told?_eq_accepted_iff.mpr ⟨moment, object, link, rfl, hlink, htakes⟩)

theorem Adds.get?_eq_none (h : hub.Adds step vector object) :
    hub.node.inventory.get? vector = none := by
  cases h with
  | published hchecked hnew => exact hnew
  | accepted htold =>
      obtain ⟨link, hlink, htakes⟩ := adds_receive_iff.mp (.accepted htold)
      rw [← (link?_eq_some_iff.mp hlink).1]
      exact htakes.new

theorem Adds.exists_approves (h : hub.Adds step vector object) :
    ∃ clock, step.clock? = some clock ∧ hub.node.Approves clock object := by
  cases h with
  | published hchecked hnew =>
      exact ⟨_, rfl, (Service.checkObject_eq_ok_iff.mp hchecked).2.1⟩
  | accepted htold =>
      obtain ⟨link, hlink, htakes⟩ := adds_receive_iff.mp (.accepted htold)
      rw [← (link?_eq_some_iff.mp hlink).1]
      exact ⟨_, rfl, htakes.approved⟩

theorem Adds.suits (h : hub.Adds step vector object) :
    hub.node.Suits vector object := by
  cases h with
  | published hchecked hnew =>
      obtain ⟨hstream, -, hvector⟩ := Service.checkObject_eq_ok_iff.mp hchecked
      exact ⟨Object.isSome_nonce?_of_vector hvector, hvector, hstream⟩
  | accepted htold =>
      obtain ⟨link, hlink, htakes⟩ := adds_receive_iff.mp (.accepted htold)
      rw [← (link?_eq_some_iff.mp hlink).1]
      exact htakes.suits

theorem Adds.unique {otherVector : InventoryVector} {otherObject : Object}
    (h : hub.Adds step vector object)
    (hother : hub.Adds step otherVector otherObject) :
    vector = otherVector ∧ object = otherObject := by
  have hvector := h.suits.named
  have hotherVector := hother.suits.named
  cases h with
  | published hchecked hnew =>
      cases hother with
      | published hotherChecked hotherNew =>
          rw [hvector] at hotherVector
          exact ⟨Except.ok.inj hotherVector, rfl⟩
  | accepted htold =>
      cases hother with
      | accepted hotherTold =>
          rw [hvector] at hotherVector
          exact ⟨Except.ok.inj hotherVector, rfl⟩

inductive Stores (hub : Hub) (step : Step) (after : Hub) : Prop where
  | keeps (hnone : ∀ vector object, ¬ hub.Adds step vector object)
      (hheld : ∀ vector, after.node.inventory.get? vector =
        hub.node.inventory.get? vector)
  | adds {vector : InventoryVector} {object : Object}
      (hadds : hub.Adds step vector object)
      (hinventory : after.node.inventory =
        hub.node.inventory.store vector object)
  | cleans {clock : Int64} (hstep : step = .work (.cleanInventory clock))
      (hinventory : after.node.inventory = hub.node.inventory.cleanup clock)

theorem not_adds_cleanInventory (hub : Hub) (clock : Int64)
    (vector : InventoryVector) (object : Object) :
    ¬ hub.Adds (.work (.cleanInventory clock)) vector object := by
  intro hadds
  cases hadds

theorem stores_act {link : Link} (hlink : hub.link? id = some link)
    (action : Action) :
    Stores hub (.act id action) (hub.put (link.perform action)) := by
  have hnode : link.node = hub.node := (link?_eq_some_iff.mp hlink).1
  cases Link.shelves_perform link action with
  | adds haction htakes hinventory hreceived =>
      subst haction
      rw [hnode] at hinventory
      exact .adds (adds_receive_iff.mpr ⟨link, hlink, htakes⟩) hinventory
  | keeps hnone hinventory hreceived =>
      rw [hnode] at hinventory
      refine .keeps ?_ fun vector => congrArg (·.get? vector) hinventory
      intro vector object hadds
      cases hadds with
      | accepted htold =>
          obtain ⟨found, hfound, htakes⟩ :=
            adds_receive_iff.mp (.accepted htold)
          rw [hlink, Option.some_inj] at hfound
          subst hfound
          exact hnone _ _ _ rfl htakes

theorem stores_publish (hub : Hub) (clock : Int64) (object : Object) :
    Stores hub (.work (.publish clock object))
      { hub with node := hub.node.publish clock object } := by
  cases hchecked : Service.checkObject hub.node clock object with
  | error failure =>
      refine .keeps ?_ fun vector => by rw [Node.publish_of_error hchecked]
      intro vector other hadds
      cases hadds with
      | published hother hnew =>
          rw [hchecked] at hother
          cases hother
  | ok vector =>
      have hstored := Node.publish_of_ok hchecked
      cases hheld : hub.node.inventory.get? vector with
      | none => exact .adds (.published hchecked hheld) hstored
      | some held =>
          refine .keeps ?_ ?_
          · intro other _ hadds
            cases hadds with
            | published hother hnew =>
                rw [hchecked] at hother
                cases hother
                rw [hheld] at hnew
                cases hnew
          · intro other
            dsimp only
            rw [hstored]
            by_cases hsame : other = vector
            · rw [hsame, Inventory.get?_store_of_eq_some hheld, hheld]
            · exact Inventory.get?_store_of_ne hsame object

theorem node_change {change : Link → Link}
    (h : ∀ link, (change link).node = link.node) (id : PeerId) :
    (hub.change id change).node = hub.node := by
  cases hlink : hub.link? id with
  | none => rw [change_of_none hlink]
  | some link =>
      rw [change_of_some hlink]
      exact (h link).trans (link?_eq_some_iff.mp hlink).1

theorem stores_step (hub : Hub) (step : Step) :
    Stores hub step (hub.step step) := by
  cases step with
  | act id action =>
      cases hlink : hub.link? id with
      | some link =>
          rw [step_act hlink]
          exact stores_act hlink action
      | none =>
          refine .keeps ?_ fun vector => by rw [Hub.step, change_of_none hlink]
          intro vector object hadds
          cases hadds with
          | accepted htold =>
              obtain ⟨link, hfound, -⟩ := adds_receive_iff.mp (.accepted htold)
              rw [hlink] at hfound
              cases hfound
  | work chore =>
      cases chore with
      | publish clock object => exact stores_publish hub clock object
      | cleanInventory clock => exact .cleans rfl rfl
      | cleanAddresses clock =>
          exact .keeps (fun _ _ hadds => by cases hadds) fun _ => rfl
      | offerAddresses moment records =>
          exact .keeps (fun _ _ hadds => by cases hadds) fun _ => rfl
      | addBootstrap stream peers =>
          exact .keeps (fun _ _ hadds => by cases hadds) fun _ => rfl
  | write id =>
      have hnode : (hub.step (.write id)).node = hub.node := by
        apply node_change
        exact fun link => rfl
      exact .keeps (fun _ _ hadds => by cases hadds) fun vector => by rw [hnode]
  | consult id now =>
      have hnode : (hub.step (.consult id now)).node = hub.node := by
        apply node_change
        exact fun link => rfl
      exact .keeps (fun _ _ hadds => by cases hadds) fun vector => by rw [hnode]

theorem hasher_step (hub : Hub) (step : Step) :
    (hub.step step).node.hasher = hub.node.hasher := by
  have hturn := turn_step hub step
  generalize hub.step step = after at hturn ⊢
  cases hturn with
  | absent => rfl
  | act hlink action =>
      rw [← (link?_eq_some_iff.mp hlink).1]
      exact congrArg WorkEngine.hasher (Link.engine_perform _ action)
  | aside hlink hstock hphase =>
      rw [← (link?_eq_some_iff.mp hlink).1]
      exact congrArg (·.engine.hasher) hstock
  | work chore => exact hub.node.hasher_work chore

theorem intact_step (h : hub.node.Intact) (step : Step) :
    (hub.step step).node.Intact := by
  intro vector object hheld
  have hsuits : hub.node.Suits vector object := by
    cases stores_step hub step with
    | keeps hnone hsame =>
        rw [hsame] at hheld
        exact h vector object hheld
    | adds hadds hinventory =>
        rw [hinventory] at hheld
        rcases Inventory.get?_eq_of_get?_store hheld with ⟨rfl, rfl⟩ | hold
        · exact hadds.suits
        · exact h vector object hold
    | cleans hstep hinventory =>
        rw [hinventory] at hheld
        exact h vector object (Inventory.get?_of_get?_cleanup hheld)
  exact hsuits.congr (hasher_step hub step) (profile_step hub step)

theorem intact_run (h : hub.node.Intact) (steps : List Step) :
    (hub.run steps).node.Intact := by
  induction steps generalizing hub with
  | nil => exact h
  | cons step rest ih => exact ih (intact_step h step)

theorem adds_iff (hub : Hub) (step : Step) (vector : InventoryVector)
    (object : Object) :
    hub.Adds step vector object ↔ hub.node.inventory.get? vector = none ∧
      (hub.step step).node.inventory.get? vector = some object := by
  cases stores_step hub step with
  | keeps hnone hsame =>
      refine iff_of_false (hnone vector object) ?_
      rintro ⟨habsent, hheld⟩
      rw [hsame, habsent] at hheld
      cases hheld
  | adds hadds hinventory =>
      rw [hinventory]
      constructor
      · intro hother
        obtain ⟨rfl, rfl⟩ := hadds.unique hother
        exact ⟨hadds.get?_eq_none,
          Inventory.get?_store_of_eq_none hadds.get?_eq_none _⟩
      · rintro ⟨habsent, hheld⟩
        rcases Inventory.get?_eq_of_get?_store hheld with ⟨rfl, rfl⟩ | hold
        · exact hadds
        · rw [habsent] at hold
          cases hold
  | cleans hstep hinventory =>
      subst hstep
      refine iff_of_false (not_adds_cleanInventory hub _ vector object) ?_
      rintro ⟨habsent, hheld⟩
      rw [hinventory] at hheld
      rw [Inventory.get?_of_get?_cleanup hheld] at habsent
      cases habsent

theorem Adds.get?_of_ne (h : hub.Adds step vector object)
    {other : InventoryVector} (hother : other ≠ vector) :
    (hub.step step).node.inventory.get? other =
      hub.node.inventory.get? other := by
  cases stores_step hub step with
  | keeps hnone hsame => exact absurd h (hnone vector object)
  | adds hadds hinventory =>
      obtain ⟨rfl, rfl⟩ := hadds.unique h
      rw [hinventory]
      exact Inventory.get?_store_of_ne hother _
  | cleans hstep hinventory =>
      subst hstep
      exact absurd h (not_adds_cleanInventory hub _ vector object)

theorem get?_step_of_not_cleanup
    (hstep : ∀ clock, step ≠ .work (.cleanInventory clock))
    (hheld : hub.node.inventory.get? vector = some object) :
    (hub.step step).node.inventory.get? vector = some object := by
  cases stores_step hub step with
  | keeps hnone hsame => rw [hsame, hheld]
  | adds hadds hinventory =>
      rw [hinventory]
      exact Inventory.get?_store_of_eq_some hheld _ _
  | cleans hclean hinventory => exact absurd hclean (hstep _)

theorem find?_of_link? {link : Link} (h : hub.link? id = some link) :
    hub.find? id = some link.connection := by
  obtain ⟨-, hmem, hid⟩ := link?_eq_some_iff.mp h
  exact find?_eq_some_iff.mpr ⟨hmem, hid⟩

theorem link?_of_find? {connection : Connection}
    (h : hub.find? id = some connection) :
    hub.link? id = some ⟨hub.node, connection⟩ := by
  rw [link?, h]
  rfl

theorem find?_change {change : Link → Link} {connection : Connection}
    (hid : ∀ link, (change link).connection.id = link.connection.id)
    (hfind : hub.find? id = some connection) (actor : PeerId) :
    (hub.change actor change).find? id =
      some (if id = actor then (change ⟨hub.node, connection⟩).connection
        else connection) := by
  have hlink := link?_of_find? hfind
  by_cases hactor : id = actor
  · rw [if_pos hactor, ← hactor, change_of_some hlink]
    exact find?_of_link? (link?_put_self hlink (hid _))
  · rw [if_neg hactor]
    cases hother : hub.link? actor with
    | none => rw [change_of_none hother, hfind]
    | some other =>
        rw [change_of_some hother]
        exact find?_of_link? (link?_put_other hother (hid _) hlink hactor)

/-- Whatever is not done to a connection leaves all of it alone but its queue
and its cache. -/
theorem exists_find?_aside {connection : Connection}
    (hfind : hub.find? id = some connection)
    (haside : ∀ action, step ≠ .act id action) :
    ∃ known queue, (hub.step step).find? id =
      some { connection with known := known, queue := queue } := by
  cases step with
  | act actor action =>
      have hother : id ≠ actor := fun hsame => haside action (hsame ▸ rfl)
      refine ⟨connection.known, connection.queue, ?_⟩
      rw [Hub.step, find?_change (fun link => Link.id_perform link action)
        hfind actor, if_neg hother]
  | write actor =>
      have hwritten : (hub.step (.write actor)).find? id =
          some (if id = actor then { connection with queue := [] }
            else connection) := by
        apply find?_change _ hfind
        exact fun link => rfl
      split at hwritten
      · exact ⟨_, _, hwritten⟩
      · exact ⟨_, _, hwritten⟩
  | consult actor now =>
      have hpurged : (hub.step (.consult actor now)).find? id =
          some (if id = actor
            then { connection with known := connection.known.purge now }
            else connection) := by
        apply find?_change _ hfind
        exact fun link => rfl
      split at hpurged
      · exact ⟨_, _, hpurged⟩
      · exact ⟨_, _, hpurged⟩
  | work chore => exact ⟨_, _, hfind⟩

/-- The count goes up by one when the owner is told, and stays the same
otherwise. -/
structure Counts (hub : Hub) (step : Step) (id : PeerId)
    (before after : Connection) : Prop where
  told : ∀ vector, hub.told? step = some (id, .accepted vector) →
    after.received = before.received + 1
  untold : (∀ vector, hub.told? step ≠ some (id, .accepted vector)) →
    after.received = before.received

theorem counts_of_untold {before after : Connection}
    (huntold : ∀ vector, hub.told? step ≠ some (id, .accepted vector))
    (hreceived : after.received = before.received) :
    Counts hub step id before after :=
  ⟨fun vector htold => absurd htold (huntold vector), fun _ => hreceived⟩

theorem counts_perform {connection : Connection}
    (hfind : hub.find? id = some connection) (action : Action) :
    Counts hub (.act id action) id connection
      (Link.perform ⟨hub.node, connection⟩ action).connection := by
  have hlink := link?_of_find? hfind
  cases Link.shelves_perform ⟨hub.node, connection⟩ action with
  | keeps hnone hinventory hreceived =>
      refine counts_of_untold ?_ hreceived
      intro vector htold
      obtain ⟨moment, object, link, hstep, hfound, htakes⟩ :=
        told?_eq_accepted_iff.mp htold
      cases hstep
      rw [hlink, Option.some_inj] at hfound
      subst hfound
      exact hnone _ _ _ rfl htakes
  | @adds moment vector object haction htakes hinventory hreceived =>
      refine ⟨fun _ _ => hreceived, fun huntold => absurd ?_ (huntold vector)⟩
      rw [haction]
      exact told?_eq_accepted_iff.mpr ⟨moment, object, _, rfl, hlink, htakes⟩

theorem exists_counts (hub : Hub) (step : Step) {connection : Connection}
    (hfind : hub.find? id = some connection) :
    ∃ after, (hub.step step).find? id = some after ∧
      Counts hub step id connection after := by
  by_cases hacts : ∃ action, step = .act id action
  · obtain ⟨action, rfl⟩ := hacts
    refine ⟨_, find?_change (fun link => Link.id_perform link action) hfind id,
      ?_⟩
    rw [if_pos rfl]
    exact counts_perform hfind action
  · have haside : ∀ action, step ≠ .act id action :=
      fun action hstep => hacts ⟨action, hstep⟩
    obtain ⟨known, queue, hafter⟩ := exists_find?_aside hfind haside
    refine ⟨_, hafter, counts_of_untold ?_ rfl⟩
    intro vector htold
    obtain ⟨moment, object, link, hstep, -⟩ := told?_eq_accepted_iff.mp htold
    exact haside _ hstep

/-- All that a node holds is finished, under its own vector and in a stream that
it serves.  A step that adds to it adds one object, which passes its checks at
that step's clock; a connection counts the objects that it adds, each told to
its owner; and only a cleanup takes anything away or puts it in another's
place. -/
theorem inventory_gains_only_what_passes (hub : Hub) (hintact : hub.node.Intact)
    (steps : List Step) (step : Step) :
    (hub.run steps).node.Intact ∧
    (∀ vector object,
      (hub.run steps).node.inventory.get? vector = none →
        ((hub.run steps).step step).node.inventory.get? vector = some object →
          (hub.run steps).Adds step vector object ∧
          (∃ clock, step.clock? = some clock ∧
            object.expiryViolation? clock = none ∧
            (hub.run steps).node.engine.checkWork object clock = .ok ()) ∧
          ∀ other, other ≠ vector →
            ((hub.run steps).step step).node.inventory.get? other =
              (hub.run steps).node.inventory.get? other) ∧
    (∀ id connection, (hub.run steps).find? id = some connection →
      ∃ after, ((hub.run steps).step step).find? id = some after ∧
        (after.received = connection.received ∨
          after.received = connection.received + 1) ∧
        (after.received = connection.received + 1 ↔
          ∃ vector, (hub.run steps).told? step = some (id, .accepted vector))) ∧
    (∀ id vector, (hub.run steps).told? step = some (id, .accepted vector) ↔
      ∃ moment object, step = .act id (.receive moment (.object object)) ∧
        (hub.run steps).node.inventory.get? vector = none ∧
        ((hub.run steps).step step).node.inventory.get? vector = some object) ∧
    ((∀ clock, step ≠ .work (.cleanInventory clock)) → ∀ vector object,
      (hub.run steps).node.inventory.get? vector = some object →
        ((hub.run steps).step step).node.inventory.get? vector =
          some object) := by
  have hrun := intact_run hintact steps
  generalize hub.run steps = hub at *
  refine ⟨hrun, ?_, ?_, ?_,
    fun hstep vector object => get?_step_of_not_cleanup hstep⟩
  · intro vector object habsent hheld
    have hadds := (adds_iff hub step vector object).mpr ⟨habsent, hheld⟩
    obtain ⟨clock, hclock, happroved⟩ := hadds.exists_approves
    exact ⟨hadds, ⟨clock, hclock, happroved.expiry, happroved.work⟩,
      fun other hother => hadds.get?_of_ne hother⟩
  · intro id connection hfind
    obtain ⟨after, hafter, hcounts⟩ := exists_counts hub step hfind
    refine ⟨after, hafter, ?_⟩
    by_cases htold : ∃ vector, hub.told? step = some (id, .accepted vector)
    · obtain ⟨vector, hvector⟩ := htold
      have hreceived := hcounts.told vector hvector
      exact ⟨.inr hreceived, fun _ => ⟨vector, hvector⟩, fun _ => hreceived⟩
    · have hreceived :=
        hcounts.untold fun vector hvector => htold ⟨vector, hvector⟩
      refine ⟨.inl hreceived, fun hmore => ?_,
        fun hvector => absurd hvector htold⟩
      omega
  · intro id vector
    constructor
    · intro htold
      obtain ⟨moment, object, link, rfl, hlink, htakes⟩ :=
        told?_eq_accepted_iff.mp htold
      exact ⟨moment, object, rfl,
        (adds_iff hub _ vector object).mp (.accepted htold)⟩
    · rintro ⟨moment, object, rfl, hgained⟩
      obtain ⟨link, hlink, htakes⟩ :=
        adds_receive_iff.mp ((adds_iff hub _ vector object).mpr hgained)
      exact told?_eq_accepted_iff.mpr ⟨moment, object, link, rfl, hlink, htakes⟩

def stockedNode : Node :=
  plainNode.store (.ofNat 32 0) plainObject

def stockedHub : Hub where
  node := stockedNode
  connections := [{ Connection.opened 0 .server plainRemote 0 with
    phase := .active, streams := [1] }]
  nodup_ids := List.nodup_singleton _

/-- The object has been expired for longer than it is kept. -/
def lateMoment : Moment :=
  ⟨0, 301, .none⟩

theorem get?_stockedNode {vector : InventoryVector} {object : Object}
    (h : stockedNode.inventory.get? vector = some object) :
    vector = .ofNat 32 0 ∧ object = plainObject := by
  rcases Inventory.get?_eq_of_get?_store h with hnew | hold
  · exact hnew
  · simp [plainNode, Inventory.get?] at hold

theorem intact_stockedNode : stockedNode.Intact := by
  intro vector object hheld
  obtain ⟨rfl, rfl⟩ := get?_stockedNode hheld
  exact ⟨rfl, rfl, rfl⟩

theorem get?_cleanup_stockedNode (vector : InventoryVector) :
    (stockedNode.inventory.cleanup lateMoment.clock).get? vector = none := by
  rw [Option.eq_none_iff_forall_ne_some]
  intro object hheld
  have hbefore := Inventory.get?_of_get?_cleanup hheld
  obtain ⟨rfl, rfl⟩ := get?_stockedNode hbefore
  rw [Inventory.get?_cleanup, hbefore] at hheld
  revert hheld
  decide

/-- After a cleanup the object comes in again, and is counted. -/
theorem stockedHub_gains_plainObject :
    stockedHub.node.Intact ∧
      ∃ after, ((stockedHub.run [.work (.cleanInventory lateMoment.clock)]).step
          (.act 0 (.receive lateMoment (.object plainObject)))).find? 0 =
            some after ∧
        after.received = 1 ∧
        ((stockedHub.run [.work (.cleanInventory lateMoment.clock)]).step
          (.act 0
            (.receive lateMoment (.object plainObject)))).node.inventory.get?
            (.ofNat 32 0) = some plainObject := by
  have htold : (stockedHub.run [.work (.cleanInventory lateMoment.clock)]).told?
      (.act 0 (.receive lateMoment (.object plainObject))) =
        some (0, .accepted (.ofNat 32 0)) :=
    told?_eq_accepted_iff.mpr ⟨lateMoment, plainObject, _, rfl, rfl, rfl, rfl,
      get?_cleanup_stockedNode _, rfl, by decide, rfl⟩
  obtain ⟨-, -, hcounts, hgains, -⟩ :=
    inventory_gains_only_what_passes stockedHub
    intact_stockedNode [.work (.cleanInventory lateMoment.clock)]
    (.act 0 (.receive lateMoment (.object plainObject)))
  obtain ⟨after, hafter, -, hreceived⟩ := hcounts 0 _ rfl
  obtain ⟨_, _, hstep, -, hheld⟩ := (hgains 0 _).mp htold
  cases hstep
  exact ⟨intact_stockedNode, after, hafter, hreceived.mpr ⟨_, htold⟩, hheld⟩

end Hub

end ObjectRelay
