import ObjectRelay.Proofs.Connection.Ending
import ObjectRelay.Proofs.Hub.Takeover

namespace ObjectRelay

/-! Connections that have ended await nothing, so that the ledger of a node is
empty once all of them have. -/

namespace Hub

variable {hub : Hub}

def Ended (hub : Hub) (id : PeerId) : Prop :=
  ∀ connection ∈ hub.connections, connection.id = id → connection.Spent

theorem ended_put {id : PeerId} {link after : Link} {other : PeerId}
    (hlink : hub.link? id = some link)
    (hid : after.connection.id = link.connection.id)
    (hspent : link.connection.id = other → after.connection.Spent)
    (h : link.connection.id ≠ other → hub.Ended other) :
    (hub.put after).Ended other := by
  obtain ⟨-, hmem, -⟩ := link?_eq_some_iff.mp hlink
  intro connection hconnection hother
  rcases (mem_put hmem hid).mp hconnection with rfl | ⟨hold, hne⟩
  · exact hspent (hid.symm.trans hother)
  · exact h (fun hsame => hne (hother.trans hsame.symm)) connection hold hother

theorem Ended.step {id : PeerId} (h : hub.Ended id) (step : Step) :
    (hub.step step).Ended id := by
  have hturn := turn_step hub step
  generalize hub.step step = after at hturn ⊢
  cases hturn with
  | absent => exact h
  | act hlink action =>
      obtain ⟨-, hmem, -⟩ := link?_eq_some_iff.mp hlink
      exact ended_put hlink (Link.id_perform _ action)
        (fun hid => Link.spent_perform (h _ hmem hid) action) (fun _ => h)
  | aside hlink hstock hphase =>
      obtain ⟨-, hmem, -⟩ := link?_eq_some_iff.mp hlink
      refine ended_put hlink (congrArg Stock.id hstock) (fun hid => ?_)
        (fun _ => h)
      have hspent := h _ hmem hid
      refine Link.spent_of_disconnected hspent.disconnected hphase ?_
      exact (congrArg (·.outstanding.size) hstock).trans hspent.outstanding
  | work chore => exact h

theorem Ended.run {id : PeerId} (h : hub.Ended id) (steps : List Step) :
    (hub.run steps).Ended id := by
  induction steps generalizing hub with
  | nil => exact h
  | cons step rest ih => exact ih (h.step step)

/-- The connection was released when it was already disconnected. -/
def Closes (hub : Hub) (steps : List Step) (id : PeerId) : Prop :=
  ∃ before after connection, steps = before ++ .act id .release :: after ∧
    (hub.run before).find? id = some connection ∧
    connection.isDisconnected = true

theorem Closes.ended {steps : List Step} {id : PeerId}
    (h : hub.Closes steps id) :
    (hub.run steps).Ended id := by
  obtain ⟨before, after, connection, rfl, hfind, hdisconnected⟩ := h
  rw [run_append, run_cons]
  apply Ended.run
  have hlink : (hub.run before).link? id =
      some ⟨(hub.run before).node, connection⟩ := by
    rw [link?, hfind]
    rfl
  have hid : connection.id = id := (find?_eq_some_iff.mp hfind).2
  rw [Hub.step, change_of_some hlink]
  exact ended_put hlink (Link.id_perform _ _)
    (fun _ => Link.spent_release hdisconnected) (fun hne => absurd hid hne)

theorem size_outstanding_of_closes {steps : List Step}
    (h : ∀ connection ∈ hub.connections, hub.Closes steps connection.id)
    {connection : Connection}
    (hmem : connection ∈ (hub.run steps).connections) :
    connection.outstanding.size = 0 := by
  have hid : connection.id ∈ hub.connections.map (·.id) := by
    rw [← ids_run hub steps]
    exact List.mem_map_of_mem hmem
  obtain ⟨first, hfirst, hsame⟩ := List.mem_map.mp hid
  exact ((h first hfirst).ended connection hmem hsame.symm).outstanding

theorem closes_of_farewell {id : PeerId} (h : id ∈ hub.connections.map (·.id))
    (reason : DisconnectReason) (before after : List Step) :
    hub.Closes (before ++ [.act id (.disconnect reason), .act id .release] ++
      after) id := by
  rw [← ids_run hub before] at h
  obtain ⟨connection, hmem, hid⟩ := List.mem_map.mp h
  have hlink : (hub.run before).link? id =
      some ⟨(hub.run before).node, connection⟩ :=
    link?_eq_some_iff.mpr ⟨rfl, hmem, hid⟩
  have hended := link?_put_self hlink (Link.id_perform _ (.disconnect reason))
  refine ⟨before ++ [.act id (.disconnect reason)], after,
    connection.disconnect reason, ?_, ?_,
    connection.isDisconnected_disconnect reason⟩
  · simp
  · rw [run_append, run_cons, run_nil, step_act hlink]
    obtain ⟨-, hput, hname⟩ := link?_eq_some_iff.mp hended
    exact find?_eq_some_iff.mpr ⟨hput, hname⟩

/-- Whatever happens to a node and its connections, the ledger holds just what
they await. -/
theorem requests_account_for_outstanding (hub : Hub) (hfresh : hub.Fresh)
    (steps : List Step) :
    (∀ vector peer, (hub.run steps).node.requests.owner? vector = some peer ↔
      ∃ connection ∈ (hub.run steps).connections,
        connection.id = peer ∧ connection.outstanding.contains vector = true) ∧
    (∀ left ∈ (hub.run steps).connections,
      ∀ right ∈ (hub.run steps).connections,
      ∀ vector, left.outstanding.contains vector = true →
        right.outstanding.contains vector = true → left = right) ∧
    (hub.run steps).node.requests.size =
      ((hub.run steps).connections.map (·.outstanding.size)).sum ∧
    ((∀ connection ∈ hub.connections, hub.Closes steps connection.id) →
      (hub.run steps).node.requests.size = 0) := by
  have hbalanced := hfresh.balanced.run steps
  refine ⟨hbalanced, ?_, hbalanced.size_requests, ?_⟩
  · intro left hleft right hright vector hleftAwaits hrightAwaits
    exact hbalanced.eq_of_outstanding hleft hright hleftAwaits hrightAwaits
  · intro hclosed
    rw [hbalanced.size_requests, List.sum_eq_zero_iff_forall_eq_nat]
    intro size hsize
    obtain ⟨connection, hmem, rfl⟩ := List.mem_map.mp hsize
    exact size_outstanding_of_closes hclosed hmem

/-- The first peer is asked, and both leave in the end. -/
theorem twoDialed_accounts_for_outstanding :
    (twoDialed plainNode plainRemote).Fresh ∧
      (∃ connection ∈ ((twoDialed plainNode plainRemote).run
          (announcements plainGreeting plainMoment
            [[.ofNat 32 0]])).connections,
        connection.id = 0 ∧
        connection.outstanding.contains (.ofNat 32 0) = true) ∧
      ((twoDialed plainNode plainRemote).run
        (announcements plainGreeting plainMoment [[.ofNat 32 0]] ++ departure ++
          [.act 1 (.disconnect .shutdown),
            .act 1 .release])).node.requests.size = 0 := by
  have hfresh := fresh_twoDialed size_requests_plainNode plainRemote
  have hshared := shared_announcements size_requests_plainNode
    welcomes_plainGreeting plainRemote
    plainMoment [[.ofNat 32 0]] fun vector _ => plainNode_serves _ vector
  refine ⟨hfresh, ?_, ?_⟩
  · exact ((requests_account_for_outstanding _ hfresh _).1 _ _).mp
      (hshared.owner _ (by simp))
  · refine (requests_account_for_outstanding _ hfresh _).2.2.2 ?_
    intro connection hmem
    rcases List.mem_pair.mp hmem with rfl | rfl
    · exact closes_of_farewell (by simp [twoDialed, Connection.opened]) _ _ _
    · rw [← List.append_nil (_ ++ [_, _])]
      exact closes_of_farewell (by simp [twoDialed, Connection.opened]) _ _ _

end Hub

end ObjectRelay
