import ObjectRelay.Proofs.Hub.Storage

namespace ObjectRelay

/-! How often an object is stored.  It is kept for a while after it expires, and
accepted for a longer while: in between it may leave and come back, and at no
other time. -/

namespace Hub

variable {hub : Hub} {step : Step} {vector : InventoryVector} {object : Object}

/-- The clock never runs backwards. -/
def InOrder (steps : List Step) : Prop :=
  (steps.filterMap Step.clock?).Pairwise (· ≤ ·)

theorem retention_step (hub : Hub) (step : Step) :
    (hub.step step).node.inventory.retention =
      hub.node.inventory.retention := by
  have hturn := turn_step hub step
  generalize hub.step step = after at hturn ⊢
  cases hturn with
  | absent => rfl
  | @act _ link hlink action =>
      rw [← (link?_eq_some_iff.mp hlink).1]
      cases Link.shelves_perform link action with
      | keeps hnone hinventory hreceived =>
          exact congrArg Inventory.retention hinventory
      | adds haction htakes hinventory hreceived =>
          exact (congrArg Inventory.retention hinventory).trans rfl
  | aside hlink hstock hphase =>
      rw [← (link?_eq_some_iff.mp hlink).1]
      exact congrArg (·.inventory.retention) hstock
  | work chore =>
      cases chore with
      | publish clock object =>
          dsimp only [Node.work, Node.publish]
          split <;> rfl
      | _ => rfl

theorem retention_run (hub : Hub) (steps : List Step) :
    (hub.run steps).node.inventory.retention =
      hub.node.inventory.retention := by
  induction steps generalizing hub with
  | nil => rfl
  | cons step rest ih =>
      exact (ih (hub.step step)).trans (retention_step hub step)

/-- In the course of the steps a cleanup drops the object. -/
def DropsAt (hub : Hub) (steps : List Step) (vector : InventoryVector)
    (object : Object) (clock : Int64) : Prop :=
  ∃ before after, steps = before ++ .work (.cleanInventory clock) :: after ∧
    (hub.run before).node.inventory.get? vector = some object ∧
    ((hub.run before).step (.work (.cleanInventory clock))).node.inventory.get?
      vector = none

theorem DropsAt.mem {steps : List Step} {clock : Int64}
    (h : hub.DropsAt steps vector object clock) :
    .work (.cleanInventory clock) ∈ steps := by
  obtain ⟨before, after, rfl, -, -⟩ := h
  exact List.mem_append_right before List.mem_cons_self

theorem DropsAt.late {steps : List Step} {clock : Int64}
    (h : hub.DropsAt steps vector object clock) :
    object.expires.toInt + hub.node.inventory.retention < clock.toInt := by
  obtain ⟨before, after, -, hheld, hdropped⟩ := h
  change ((hub.run before).node.inventory.cleanup clock).get? vector = none
    at hdropped
  rw [Inventory.get?_cleanup, hheld, retention_run] at hdropped
  simp only [Option.filter_some, ite_eq_right_iff, reduceCtorEq, imp_false,
    decide_eq_true_eq] at hdropped
  omega

theorem exists_dropsAt_of_lost {steps : List Step}
    (hheld : hub.node.inventory.get? vector = some object)
    (hlost : (hub.run steps).node.inventory.get? vector = none) :
    ∃ clock, hub.DropsAt steps vector object clock := by
  induction steps generalizing hub with
  | nil =>
      rw [run_nil, hheld] at hlost
      cases hlost
  | cons step rest ih =>
      cases hstill : (hub.step step).node.inventory.get? vector with
      | some kept =>
          have hsame : kept = object := by
            by_cases hstep : ∃ clock, step = .work (.cleanInventory clock)
            · obtain ⟨clock, rfl⟩ := hstep
              have hbefore := Inventory.get?_of_get?_cleanup hstill
              rw [hheld] at hbefore
              exact (Option.some_inj.mp hbefore).symm
            · have hkept := get?_step_of_not_cleanup
                (fun clock h => hstep ⟨clock, h⟩) hheld
              rw [hstill] at hkept
              exact Option.some_inj.mp hkept
          subst hsame
          obtain ⟨clock, before, after, rfl, hbefore, hdropped⟩ :=
            ih hstill hlost
          exact ⟨clock, step :: before, after, rfl, hbefore, hdropped⟩
      | none =>
          have hstep : ∃ clock, step = .work (.cleanInventory clock) := by
            by_contra hother
            have hkept := get?_step_of_not_cleanup
              (fun clock h => hother ⟨clock, h⟩) hheld
            rw [hstill] at hkept
            cases hkept
          obtain ⟨clock, rfl⟩ := hstep
          exact ⟨clock, [], rest, rfl, hheld, hstill⟩

theorem le_clock_of_inOrder {before between after : List Step} {again : Step}
    {clock later : Int64}
    (horder : InOrder (before ++ (between ++ again :: after)))
    (hmem : .work (.cleanInventory clock) ∈ between)
    (hlater : again.clock? = some later) :
    clock ≤ later := by
  rw [InOrder, List.filterMap_append, List.filterMap_append] at horder
  have hpairs :=
    (List.pairwise_append.mp (List.pairwise_append.mp horder).2.1).2.2
  refine hpairs clock ?_ later ?_
  · exact List.mem_filterMap.mpr ⟨_, hmem, rfl⟩
  · exact List.mem_filterMap.mpr ⟨again, List.mem_cons_self, hlater⟩

/-- Where a vector is stored a second time, a cleanup has dropped it in
between. -/
theorem exists_dropsAt_of_stored_again {between : List Step} {again : Step}
    {renewed : Object} (hadds : hub.Adds step vector object)
    (hagain : ((hub.step step).run between).Adds again vector renewed) :
    ∃ clock, (hub.step step).DropsAt between vector object clock :=
  exists_dropsAt_of_lost ((adds_iff hub step vector object).mp hadds).2
    hagain.get?_eq_none

/-- A vector is stored again only after a cleanup has dropped its object, more
than five minutes after that expired, and three hours after the new one expires
at most. -/
theorem stored_again_only_between_graces (hub : Hub)
    (hretention : hub.node.inventory.retention = ({} : Inventory).retention)
    {first between rest : List Step} {step again : Step}
    (horder : InOrder (first ++ step :: (between ++ again :: rest)))
    {vector : InventoryVector} {object renewed : Object}
    (hadds : (hub.run first).Adds step vector object)
    (hagain : (hub.run (first ++ step :: between)).Adds again vector renewed) :
    ∃ cleaned later,
      ((hub.run first).step step).DropsAt between vector object cleaned ∧
      again.clock? = some later ∧
      object.expires.toInt + 5 * 60 < cleaned.toInt ∧
      cleaned.toInt ≤ later.toInt ∧
      later.toInt ≤ renewed.expires.toInt + 3 * 60 * 60 := by
  rw [run_append, run_cons] at hagain
  obtain ⟨cleaned, hdrops⟩ := exists_dropsAt_of_stored_again hadds hagain
  have hlate := hdrops.late
  rw [retention_step, retention_run, hretention] at hlate
  obtain ⟨later, hlater, happroved⟩ := hagain.exists_approves
  rw [List.append_cons] at horder
  have hle := le_clock_of_inOrder horder hdrops.mem hlater
  refine ⟨cleaned, later, hdrops, hlater, hlate,
    Int64.le_iff_toInt_le.mp hle, ?_⟩
  have hgrace :=
    (Object.expiryViolation?_eq_none_iff.mp happroved.expiry).1
  simp only [Object.expiryGrace, Object.lifetime] at hgrace
  omega

def latePublish : Step :=
  .work (.publish lateMoment.clock plainObject)

def lateCleanup : Step :=
  .work (.cleanInventory lateMoment.clock)

def lateReturn : Step :=
  .act 0 (.receive lateMoment (.object plainObject))

def greetedOnly : List Step :=
  [.act 0 (.receive plainMoment (.version plainGreeting))]

theorem link?_greetedOnly :
    ∃ link, ((twoDialed plainNode plainRemote).run greetedOnly).link? 0 =
      some link ∧
      link.connection.phase = .active ∧ link.node.Resembles plainNode := by
  have hopened : (twoDialed plainNode plainRemote).link? 0 =
      some ⟨plainNode, .opened 0 .client plainRemote 0⟩ := rfl
  refine ⟨_, ?_, ?_,
    Link.resembles_of_stock_eq ⟨plainNode, .opened 0 .client plainRemote 0⟩ _
    (Link.stock_greeting plainMoment plainGreeting)⟩
  · rw [greetedOnly, run_cons, run_nil, step_act hopened]
    exact link?_put_self hopened (Link.id_perform _ _)
  · exact (Link.perform_greeting ⟨by rintro ⟨⟩, rfl, rfl⟩ welcomes_plainGreeting
      plainMoment).1

theorem checkObject_latePublish {node : Node} (h : node.Resembles plainNode) :
    Service.checkObject node lateMoment.clock plainObject =
      .ok (.ofNat 32 0) := by
  refine Service.checkObject_eq_ok_iff.mpr ⟨?_, ⟨by decide, ?_⟩, ?_⟩
  · rw [h.profile]
    rfl
  · rw [h.engine]
    rfl
  · rw [Node.hasher, h.engine]
    rfl

theorem adds_latePublish :
    ((twoDialed plainNode plainRemote).run greetedOnly).Adds latePublish
      (.ofNat 32 0) plainObject := by
  obtain ⟨link, hlink, -, hnode⟩ := link?_greetedOnly
  rw [(link?_eq_some_iff.mp hlink).1] at hnode
  refine .published (checkObject_latePublish hnode) ?_
  rw [hnode.inventory]
  exact Std.HashMap.getElem?_empty

theorem adds_lateReturn :
    ((twoDialed plainNode plainRemote).run
      (greetedOnly ++ latePublish :: [lateCleanup])).Adds lateReturn
      (.ofNat 32 0) plainObject := by
  obtain ⟨link, hlink, hactive, hnode⟩ := link?_greetedOnly
  have hchecked := checkObject_latePublish hnode
  have hpublished := link?_work hlink (.publish lateMoment.clock plainObject)
  have hremoved := link?_work hpublished (.cleanInventory lateMoment.clock)
  have hinventory : (link.node.publish lateMoment.clock plainObject).inventory =
      stockedNode.inventory := by
    rw [Node.publish_of_ok hchecked, hnode.inventory]
    rfl
  rw [run_append]
  refine adds_receive_iff.mpr ⟨_, hremoved, ?_, ?_, ?_, ?_, by decide, ?_⟩
  · simp [Connection.isActive, hactive]
  · show plainObject.vector
      (Node.hasher (link.node.work (.publish lateMoment.clock plainObject))) =
        .ok (.ofNat 32 0)
    rw [Node.hasher_work, Node.hasher, hnode.engine]
    rfl
  · show ((link.node.publish lateMoment.clock plainObject).inventory.cleanup
      lateMoment.clock).get? (.ofNat 32 0) = none
    rw [hinventory]
    exact get?_cleanup_stockedNode _
  · show (link.node.work
      (.publish lateMoment.clock plainObject)).profile.streams.contains
      plainObject.stream = true
    rw [Node.profile_work, hnode.profile]
    rfl
  · show (link.node.publish lateMoment.clock plainObject).engine.checkWork
      plainObject lateMoment.clock = .ok ()
    rw [Node.publish, hchecked]
    show (link.node.engine.forget plainObject).checkWork plainObject
      lateMoment.clock = .ok ()
    rw [hnode.engine]
    rfl

theorem inOrder_lateReturn :
    InOrder (greetedOnly ++ latePublish ::
      ([lateCleanup] ++ lateReturn :: [])) := by
  unfold InOrder
  decide

/-- One vector is stored twice, though the clock never runs backwards. -/
theorem twoDialed_stores_twice :
    (twoDialed plainNode plainRemote).Fresh ∧
      plainNode.inventory.retention = ({} : Inventory).retention ∧
      InOrder (greetedOnly ++ latePublish ::
        ([lateCleanup] ++ lateReturn :: [])) ∧
      ((twoDialed plainNode plainRemote).run greetedOnly).Adds latePublish
        (.ofNat 32 0) plainObject ∧
      ((twoDialed plainNode plainRemote).run
        (greetedOnly ++ latePublish :: [lateCleanup])).Adds
        lateReturn (.ofNat 32 0) plainObject :=
  ⟨fresh_twoDialed size_requests_plainNode plainRemote, rfl, inOrder_lateReturn,
    adds_latePublish, adds_lateReturn⟩

/-- The second time is within three hours of the expiration. -/
theorem twoDialed_stores_again_between_graces :
    ∃ cleaned later,
      (((twoDialed plainNode plainRemote).run greetedOnly).step
        latePublish).DropsAt [lateCleanup] (.ofNat 32 0) plainObject cleaned ∧
      lateReturn.clock? = some later ∧
      plainObject.expires.toInt + 5 * 60 < cleaned.toInt ∧
      cleaned.toInt ≤ later.toInt ∧
      later.toInt ≤ plainObject.expires.toInt + 3 * 60 * 60 :=
  stored_again_only_between_graces (twoDialed plainNode plainRemote) rfl
    inOrder_lateReturn adds_latePublish adds_lateReturn

end Hub

end ObjectRelay
