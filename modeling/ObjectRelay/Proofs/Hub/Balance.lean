import Mathlib.Algebra.GroupWithZero.Nat
import Mathlib.Data.List.Perm.Subperm
import ObjectRelay.Proofs.Connection.Agreement
import ObjectRelay.Proofs.Hub.Basic

namespace ObjectRelay

namespace Hub

/-- The ledger names a peer for a vector just when that peer's connection awaits
it. -/
def Balanced (hub : Hub) : Prop :=
  ∀ vector peer, hub.node.requests.owner? vector = some peer ↔
    ∃ connection ∈ hub.connections,
      connection.id = peer ∧ connection.outstanding.contains vector = true

variable {hub : Hub}

theorem Fresh.balanced (h : hub.Fresh) : hub.Balanced := by
  intro vector peer
  rw [RequestLedger.owner?_eq_none_of_size_eq_zero h.size_requests]
  constructor
  · intro howner
    cases howner
  · intro hawaited
    obtain ⟨connection, hmem, -, houtstanding⟩ := hawaited
    obtain ⟨id, mode, remote, now, rfl⟩ := h.opened connection hmem
    simp [Connection.opened] at houtstanding

theorem Balanced.agrees (h : hub.Balanced) {id : PeerId} {link : Link}
    (hlink : hub.link? id = some link) : link.Agrees := by
  obtain ⟨hnode, hmem, -⟩ := link?_eq_some_iff.mp hlink
  intro vector
  rw [hnode, h]
  constructor
  · intro hawaited
    obtain ⟨connection, hconnection, hid, houtstanding⟩ := hawaited
    rwa [eq_of_mem_of_id_eq hconnection hmem hid] at houtstanding
  · exact fun houtstanding => ⟨link.connection, hmem, rfl, houtstanding⟩

theorem Balanced.put (h : hub.Balanced) {id : PeerId} {link after : Link}
    (hlink : hub.link? id = some link) (hkeeps : link.Keeps after) :
    (hub.put after).Balanced := by
  obtain ⟨hnode, hmem, -⟩ := link?_eq_some_iff.mp hlink
  intro vector peer
  by_cases hpeer : peer = link.connection.id
  · rw [hpeer, ← hkeeps.id]
    refine (hkeeps.agrees vector).trans ?_
    constructor
    · intro houtstanding
      exact ⟨after.connection, (mem_put hmem hkeeps.id).mpr (.inl rfl), rfl,
        houtstanding⟩
    · intro hawaited
      obtain ⟨connection, hconnection, hid, houtstanding⟩ := hawaited
      rcases (mem_put hmem hkeeps.id).mp hconnection with rfl | ⟨-, hother⟩
      · exact houtstanding
      · exact absurd (hid.trans hkeeps.id) hother
  · refine (hkeeps.others vector peer hpeer).trans ?_
    rw [hnode, h]
    constructor
    · intro hawaited
      obtain ⟨connection, hconnection, rfl, houtstanding⟩ := hawaited
      exact ⟨connection,
        (mem_put hmem hkeeps.id).mpr (.inr ⟨hconnection, hpeer⟩), rfl,
        houtstanding⟩
    · intro hawaited
      obtain ⟨connection, hconnection, hid, houtstanding⟩ := hawaited
      rcases (mem_put hmem hkeeps.id).mp hconnection with rfl | ⟨hold, -⟩
      · exact absurd (hid.symm.trans hkeeps.id) hpeer
      · exact ⟨connection, hold, hid, houtstanding⟩

theorem Balanced.step (h : hub.Balanced) (step : Step) :
    (hub.step step).Balanced := by
  have hturn := turn_step hub step
  generalize hub.step step = after at hturn ⊢
  cases hturn with
  | absent => exact h
  | act hlink action =>
      exact h.put hlink (Link.keeps_perform (h.agrees hlink) action)
  | aside hlink hstock hphase =>
      exact h.put hlink (Link.keeps_of_stock_eq (h.agrees hlink) hstock)
  | work chore =>
      intro vector peer
      rw [Node.requests_work]
      exact h vector peer

theorem Balanced.run (h : hub.Balanced) (steps : List Step) :
    (hub.run steps).Balanced := by
  induction steps generalizing hub with
  | nil => exact h
  | cons step rest ih => exact ih (h.step step)

theorem Balanced.eq_of_outstanding (h : hub.Balanced) {left right : Connection}
    {vector : InventoryVector} (hleft : left ∈ hub.connections)
    (hright : right ∈ hub.connections)
    (hleftAwaits : left.outstanding.contains vector = true)
    (hrightAwaits : right.outstanding.contains vector = true) :
    left = right := by
  have hleftOwns := (h vector left.id).mpr ⟨left, hleft, rfl, hleftAwaits⟩
  have hrightOwns := (h vector right.id).mpr ⟨right, hright, rfl, hrightAwaits⟩
  rw [hleftOwns, Option.some_inj] at hrightOwns
  exact eq_of_mem_of_id_eq hleft hright hrightOwns

theorem Balanced.owner?_eq_none_iff (h : hub.Balanced)
    {vector : InventoryVector} :
    hub.node.requests.owner? vector = none ↔
      ∀ connection ∈ hub.connections, connection.outstanding.contains vector =
        false := by
  rw [Option.eq_none_iff_forall_ne_some]
  constructor
  · intro hfree connection hmem
    rw [Bool.eq_false_iff]
    exact fun houtstanding => hfree connection.id
      ((h vector connection.id).mpr ⟨connection, hmem, rfl, houtstanding⟩)
  · intro hfree peer howner
    obtain ⟨connection, hmem, -, houtstanding⟩ := (h vector peer).mp howner
    rw [hfree connection hmem] at houtstanding
    cases houtstanding

def awaited (hub : Hub) : List InventoryVector :=
  hub.connections.flatMap (·.outstanding.toList)

theorem length_awaited (hub : Hub) :
    hub.awaited.length = (hub.connections.map (·.outstanding.size)).sum := by
  simp [awaited, List.length_flatMap, Std.HashSet.length_toList]

theorem Balanced.nodup_awaited (h : hub.Balanced) : hub.awaited.Nodup := by
  rw [awaited, List.nodup_flatMap]
  refine ⟨?_, ?_⟩
  · intro connection _
    exact Std.HashSet.distinct_toList.imp fun hne heq => by simp [heq] at hne
  · refine List.Pairwise.imp_of_mem ?_ (List.Nodup.of_map _ hub.nodup_ids)
    intro left right hleft hright hne vector hleftAwaits hrightAwaits
    exact hne (h.eq_of_outstanding hleft hright
      (Std.HashSet.mem_toList.mp hleftAwaits)
      (Std.HashSet.mem_toList.mp hrightAwaits))

theorem Balanced.perm_awaited (h : hub.Balanced) :
    hub.node.requests.owners.keys.Perm hub.awaited := by
  have hkeys : hub.node.requests.owners.keys.Nodup :=
    Std.HashMap.distinct_keys.imp fun hne heq => by simp [heq] at hne
  refine (List.perm_ext_iff_of_nodup hkeys h.nodup_awaited).mpr ?_
  intro vector
  rw [Std.HashMap.mem_keys, awaited, List.mem_flatMap,
    Std.HashMap.mem_iff_isSome_getElem?, Option.isSome_iff_exists]
  constructor
  · intro howned
    obtain ⟨peer, howner⟩ := howned
    obtain ⟨connection, hmem, -, houtstanding⟩ := (h vector peer).mp howner
    exact ⟨connection, hmem, Std.HashSet.mem_toList.mpr houtstanding⟩
  · intro hawaited
    obtain ⟨connection, hmem, houtstanding⟩ := hawaited
    exact ⟨connection.id, (h vector connection.id).mpr
      ⟨connection, hmem, rfl, Std.HashSet.mem_toList.mp houtstanding⟩⟩

theorem Balanced.size_requests (h : hub.Balanced) :
    hub.node.requests.size =
      (hub.connections.map (·.outstanding.size)).sum := by
  rw [← length_awaited, ← h.perm_awaited.length_eq, Std.HashMap.length_keys]
  rfl

end Hub

end ObjectRelay
