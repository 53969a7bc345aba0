import Mathlib.Data.List.Nodup
import ObjectRelay.Proofs.Connection.Effect
import ObjectRelay.Service.Basic

namespace ObjectRelay

/-- What publishing an object leaves behind in the node, whoever is told of
it. -/
def Node.publish (node : Node) (clock : Int64) (object : Object) : Node :=
  match Service.checkObject node clock object with
  | .error _ => node
  | .ok vector =>
      { node with engine := node.engine.forget object }.store vector object

theorem Service.node_publish (service : Service) (moment : Moment)
    (object : Object) :
    (service.publish moment object).2.node =
      service.node.publish moment.clock object := by
  unfold publish Node.publish
  cases hcheck : checkObject service.node moment.clock object with
  | error failure => rfl
  | ok vector =>
      dsimp only
      split <;> rfl

/-- What a node does beside its connections. -/
inductive Chore where
  | publish (clock : Int64) (object : Object)
  | cleanInventory (clock : Int64)
  | cleanAddresses (clock : Int64)
  | offerAddresses (moment : Moment) (records : List PeerRecord)
  | addBootstrap (stream : UInt32) (peers : List SocketAddress)

namespace Node

def work (node : Node) : Chore → Node
  | .publish clock object => node.publish clock object
  | .cleanInventory clock =>
    { node with inventory := node.inventory.cleanup clock }
  | .cleanAddresses clock =>
    { node with addresses := node.addresses.cleanup clock }
  | .offerAddresses moment records => node.offerAddresses moment records
  | .addBootstrap stream peers =>
      { node with addresses := node.addresses.addBootstrap stream peers }

theorem exists_work_eq (node : Node) (chore : Chore) :
    ∃ engine inventory addresses, node.work chore =
      { node with
        engine := engine, inventory := inventory, addresses := addresses } := by
  cases chore with
  | publish clock object =>
      rw [work, Node.publish]
      split
      · exact ⟨node.engine, node.inventory, node.addresses, rfl⟩
      · exact ⟨_, _, node.addresses, rfl⟩
  | cleanInventory clock => exact ⟨node.engine, _, node.addresses, rfl⟩
  | cleanAddresses clock => exact ⟨node.engine, node.inventory, _, rfl⟩
  | offerAddresses moment records => exact ⟨node.engine, node.inventory, _, rfl⟩
  | addBootstrap stream peers => exact ⟨node.engine, node.inventory, _, rfl⟩

theorem profile_work (node : Node) (chore : Chore) :
    (node.work chore).profile = node.profile := by
  obtain ⟨engine, inventory, addresses, hwork⟩ := node.exists_work_eq chore
  rw [hwork]

theorem requests_work (node : Node) (chore : Chore) :
    (node.work chore).requests = node.requests := by
  obtain ⟨engine, inventory, addresses, hwork⟩ := node.exists_work_eq chore
  rw [hwork]

end Node

structure Hub where
  node : Node
  connections : List Connection
  nodup_ids : (connections.map (·.id)).Nodup

namespace Hub

/-- Beside the actions on a connection, its owner writes out the queue, and the
choice of peers for an offer looks up what it knows. -/
inductive Step where
  | act (id : PeerId) (action : Action)
  | write (id : PeerId)
  | consult (id : PeerId) (now : Nat)
  | work (chore : Chore)

def find? (hub : Hub) (id : PeerId) : Option Connection :=
  hub.connections.find? (·.id = id)

def link? (hub : Hub) (id : PeerId) : Option Link :=
  (hub.find? id).map fun connection => ⟨hub.node, connection⟩

theorem map_id_replace (connections : List Connection) (new : Connection) :
    (connections.map fun connection =>
      if connection.id = new.id then new else connection).map (·.id) =
        connections.map (·.id) := by
  rw [List.map_map]
  apply List.map_congr_left
  intro connection _
  dsimp only [Function.comp_apply]
  split
  · rename_i hid
    exact hid.symm
  · rfl

/-- The connection takes the place of the one with its name. -/
def put (hub : Hub) (link : Link) : Hub where
  node := link.node
  connections := hub.connections.map fun connection =>
    if connection.id = link.connection.id then link.connection else connection
  nodup_ids := by
    rw [map_id_replace]
    exact hub.nodup_ids

def change (hub : Hub) (id : PeerId) (change : Link → Link) : Hub :=
  match hub.link? id with
  | none => hub
  | some link => hub.put (change link)

def step (hub : Hub) : Step → Hub
  | .act id action => hub.change id (·.perform action)
  | .write id => hub.change id fun link =>
      { link with connection := { link.connection with queue := [] } }
  | .consult id now => hub.change id fun link =>
      { link with connection :=
        { link.connection with known := link.connection.known.purge now } }
  | .work chore => { hub with node := hub.node.work chore }

def run (hub : Hub) (steps : List Step) : Hub :=
  steps.foldl step hub

def queued (hub : Hub) (id : PeerId) (action : Action) : List Message :=
  match hub.link? id with
  | none => []
  | some link => link.queued action

/-- Nothing is requested, and all connections are as they were opened. -/
structure Fresh (hub : Hub) : Prop where
  size_requests : hub.node.requests.size = 0
  opened : ∀ connection ∈ hub.connections, ∃ id mode remote now,
    connection = .opened id mode remote now

@[simp] theorem run_nil (hub : Hub) : hub.run [] = hub := rfl

@[simp] theorem run_cons (hub : Hub) (step : Step) (steps : List Step) :
    hub.run (step :: steps) = (hub.step step).run steps := rfl

theorem run_append (hub : Hub) (first second : List Step) :
    hub.run (first ++ second) = (hub.run first).run second :=
  List.foldl_append

theorem eq_of_mem_of_id_eq {hub : Hub} {left right : Connection}
    (hleft : left ∈ hub.connections) (hright : right ∈ hub.connections)
    (hid : left.id = right.id) : left = right :=
  List.inj_on_of_nodup_map hub.nodup_ids hleft hright hid

theorem find?_eq_some_iff {hub : Hub} {id : PeerId} {connection : Connection} :
    hub.find? id = some connection ↔ connection ∈ hub.connections ∧
    connection.id = id := by
  constructor
  · intro h
    exact ⟨List.mem_of_find?_eq_some h, by simpa using List.find?_some h⟩
  · intro hnamed
    obtain ⟨hmem, hid⟩ := hnamed
    cases hfind : hub.find? id with
    | none =>
        have hnone := List.find?_eq_none.mp hfind connection hmem
        simp [hid] at hnone
    | some other =>
        have hother : other.id = id := by simpa using List.find?_some hfind
        rw [eq_of_mem_of_id_eq (List.mem_of_find?_eq_some hfind) hmem
          (hother.trans hid.symm)]

theorem link?_eq_some_iff {hub : Hub} {id : PeerId} {link : Link} :
    hub.link? id = some link ↔
      link.node = hub.node ∧ link.connection ∈ hub.connections ∧
      link.connection.id = id := by
  rw [link?, Option.map_eq_some_iff]
  constructor
  · intro hfound
    obtain ⟨connection, hfind, rfl⟩ := hfound
    exact ⟨rfl, find?_eq_some_iff.mp hfind⟩
  · intro hlink
    obtain ⟨hnode, hconnection⟩ := hlink
    exact ⟨link.connection, find?_eq_some_iff.mpr hconnection, by rw [← hnode]⟩

theorem mem_put {hub : Hub} {before after : Link} {connection : Connection}
    (hbefore : before.connection ∈ hub.connections)
    (hid : after.connection.id = before.connection.id) :
    connection ∈ (hub.put after).connections ↔
      connection = after.connection ∨
        connection ∈ hub.connections ∧
        connection.id ≠ before.connection.id := by
  simp only [put, List.mem_map]
  constructor
  · intro hreplaced
    obtain ⟨old, hold, hnew⟩ := hreplaced
    by_cases hsame : old.id = after.connection.id
    · rw [if_pos hsame] at hnew
      exact .inl hnew.symm
    · rw [if_neg hsame] at hnew
      subst hnew
      exact .inr ⟨hold, hid ▸ hsame⟩
  · rintro (rfl | ⟨hold, hother⟩)
    · exact ⟨before.connection, hbefore, if_pos hid.symm⟩
    · exact ⟨connection, hold, if_neg (hid ▸ hother)⟩

theorem link?_put_self {hub : Hub} {id : PeerId} {before after : Link}
    (hbefore : hub.link? id = some before)
    (hid : after.connection.id = before.connection.id) :
    (hub.put after).link? id = some after := by
  obtain ⟨-, hmem, hname⟩ := link?_eq_some_iff.mp hbefore
  exact link?_eq_some_iff.mpr ⟨rfl, (mem_put hmem hid).mpr (.inl rfl),
    hid.trans hname⟩

theorem link?_put_other {hub : Hub} {id other : PeerId}
    {before after link : Link} (hbefore : hub.link? id = some before)
    (hid : after.connection.id = before.connection.id)
    (hlink : hub.link? other = some link) (hother : other ≠ id) :
    (hub.put after).link? other = some ⟨after.node, link.connection⟩ := by
  obtain ⟨-, hmem, hname⟩ := link?_eq_some_iff.mp hbefore
  obtain ⟨-, hold, hsame⟩ := link?_eq_some_iff.mp hlink
  refine link?_eq_some_iff.mpr ⟨rfl,
    (mem_put hmem hid).mpr (.inr ⟨hold, ?_⟩), hsame⟩
  rw [hsame, hname]
  exact hother

theorem link?_work {hub : Hub} {id : PeerId} {link : Link}
    (hlink : hub.link? id = some link) (chore : Chore) :
    (hub.step (.work chore)).link? id =
      some ⟨link.node.work chore, link.connection⟩ := by
  obtain ⟨hnode, hmem, hname⟩ := link?_eq_some_iff.mp hlink
  rw [hnode]
  exact link?_eq_some_iff.mpr ⟨rfl, hmem, hname⟩

inductive Turn (hub : Hub) : Step → Hub → Prop where
  | absent {step : Step} : Turn hub step hub
  | act {id : PeerId} {link : Link} (hlink : hub.link? id = some link)
      (action : Action) :
      Turn hub (.act id action) (hub.put (link.perform action))
  | aside {id : PeerId} {step : Step} {link after : Link}
      (hlink : hub.link? id = some link) (hstock : after.stock = link.stock)
      (hphase : after.connection.phase = link.connection.phase) :
      Turn hub step (hub.put after)
  | work (chore : Chore) :
      Turn hub (.work chore) { hub with node := hub.node.work chore }

theorem change_of_none {hub : Hub} {id : PeerId} {change : Link → Link}
    (h : hub.link? id = none) : hub.change id change = hub := by
  rw [Hub.change, h]

theorem change_of_some {hub : Hub} {id : PeerId} {link : Link}
    {change : Link → Link} (h : hub.link? id = some link) :
    hub.change id change = hub.put (change link) := by
  rw [Hub.change, h]

theorem step_act {hub : Hub} {id : PeerId} {link : Link}
    (hlink : hub.link? id = some link) (action : Action) :
    hub.step (.act id action) = hub.put (link.perform action) :=
  change_of_some hlink

theorem turn_step (hub : Hub) (step : Step) :
    Turn hub step (hub.step step) := by
  cases step with
  | act id action =>
      rw [Hub.step]
      cases hlink : hub.link? id with
      | none =>
          rw [change_of_none hlink]
          exact .absent
      | some link =>
          rw [change_of_some hlink]
          exact .act hlink action
  | write id =>
      rw [Hub.step]
      cases hlink : hub.link? id with
      | none =>
          rw [change_of_none hlink]
          exact .absent
      | some link =>
          rw [change_of_some hlink]
          exact .aside hlink rfl rfl
  | consult id now =>
      rw [Hub.step]
      cases hlink : hub.link? id with
      | none =>
          rw [change_of_none hlink]
          exact .absent
      | some link =>
          rw [change_of_some hlink]
          exact .aside hlink rfl rfl
  | work chore => exact .work chore

theorem ids_step (hub : Hub) (step : Step) :
    (hub.step step).connections.map (·.id) = hub.connections.map (·.id) := by
  have hturn := turn_step hub step
  generalize hub.step step = after at hturn ⊢
  cases hturn with
  | absent => rfl
  | act hlink action => exact map_id_replace _ _
  | aside hlink hstock hphase => exact map_id_replace _ _
  | work chore => rfl

theorem ids_run (hub : Hub) (steps : List Step) :
    (hub.run steps).connections.map (·.id) = hub.connections.map (·.id) := by
  induction steps generalizing hub with
  | nil => rfl
  | cons step rest ih => exact (ih (hub.step step)).trans (ids_step hub step)

theorem profile_step (hub : Hub) (step : Step) :
    (hub.step step).node.profile = hub.node.profile := by
  have hturn := turn_step hub step
  generalize hub.step step = after at hturn ⊢
  cases hturn with
  | absent => rfl
  | act hlink action =>
      rw [← (link?_eq_some_iff.mp hlink).1]
      exact Link.profile_perform _ action
  | aside hlink hstock hphase =>
      rw [← (link?_eq_some_iff.mp hlink).1]
      exact congrArg Stock.profile hstock
  | work chore => exact hub.node.profile_work chore

theorem profile_run (hub : Hub) (steps : List Step) :
    (hub.run steps).node.profile = hub.node.profile := by
  induction steps generalizing hub with
  | nil => rfl
  | cons step rest ih =>
      exact (ih (hub.step step)).trans (profile_step hub step)

end Hub

end ObjectRelay
