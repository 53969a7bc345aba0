import Mathlib.Data.Finset.Card
import Mathlib.Data.List.Nodup
import ObjectRelay.Peer.Table
import ObjectRelay.Proofs.Gossip.KnownVectors
import ObjectRelay.Proofs.HashMap

namespace ObjectRelay

/-- The peer could do with a vector of the stream that it has not been heard of
lately. -/
structure Peer.Lacks (peer : Peer) (now : Nat) (vector : InventoryVector)
    (stream : UInt64) : Prop where
  active : peer.info.lifecycle = .active
  shares : stream ∈ peer.info.streams
  unaware : ∀ seen, peer.known.seen[vector]? = some seen →
    peer.known.lifetime < now - seen

/-- The peer is none that the vector comes from, as far as anybody knows. -/
structure PeerTable.Awaits (table : PeerTable) (now : Nat)
    (vector : InventoryVector) (stream : UInt64) (except? : Option PeerId)
    (id : PeerId) : Prop where
  other : except? ≠ some id
  lacks : ∃ peer, table.get? id = some peer ∧ peer.Lacks now vector stream

namespace PeerTable

/-- What a peer was told and has not attended to. -/
def queue (table : PeerTable) (id : PeerId) : List PeerCommand :=
  ((table.get? id).map (·.inbox.commands)).getD []

def hasRoom (table : PeerTable) (id : PeerId) : Bool :=
  (table.get? id).any (·.inbox.accepts)

variable {table : PeerTable} {id other : PeerId} {ids : List PeerId}
  {command : PeerCommand} {shuffle : Shuffle} {now : Nat}
  {vector : InventoryVector} {stream : UInt64} {except? : Option PeerId}
  {peer : Peer}

theorem get?_empty (id : PeerId) : empty.get? id = none :=
  Std.HashMap.getElem?_empty

theorem get?_insert (table : PeerTable) (peer : Peer) (id : PeerId) :
    (table.insert peer).get? id = if peer.info.id = id then some peer
      else table.get? id := by
  simp [get?, insert, Std.HashMap.getElem?_insert]

theorem get?_erase (table : PeerTable) (id other : PeerId) :
    (table.erase id).get? other = if id = other then none
      else table.get? other := by
  simp [get?, erase, Std.HashMap.getElem?_erase]

theorem get?_modify (table : PeerTable) (id : PeerId) {change : Peer → Peer}
    {hchange : ∀ peer, (change peer).info.id = peer.info.id} (other : PeerId) :
    (table.modify id change hchange).get? other =
      if id = other then (table.get? other).map change
      else table.get? other := by
  simp only [get?, modify, Std.HashMap.getElem?_modify, beq_iff_eq]
  split
  · rename_i hid
    rw [hid]
  · rfl

theorem get?_send (table : PeerTable) (id : PeerId) (command : PeerCommand)
    (other : PeerId) :
    (table.send id command).2.get? other =
      if id = other then
        (table.get? other).map fun peer =>
          { peer with inbox := peer.inbox.push command }
      else table.get? other := by
  unfold send
  split
  · rw [get?_modify]
  · rename_i habsent
    split
    · rename_i hid
      rw [← hid, habsent]
      rfl
    · rfl

theorem fst_send (table : PeerTable) (id : PeerId) (command : PeerCommand) :
    (table.send id command).1 = table.hasRoom id := by
  unfold send hasRoom
  split
  · rename_i peer hpeer
    rw [hpeer]
    rfl
  · rename_i habsent
    rw [habsent]
    rfl

/-- Peers that are changed one after the other are changed once each. -/
theorem get?_foldl {act : PeerTable → PeerId → PeerTable} {change : Peer → Peer}
    (hact : ∀ table id other, (act table id).get? other =
      if id = other then (table.get? other).map change else table.get? other)
    (hnodup : ids.Nodup) (table : PeerTable) (other : PeerId) :
    (ids.foldl act table).get? other =
      if other ∈ ids then (table.get? other).map change
      else table.get? other := by
  induction ids generalizing table with
  | nil => simp
  | cons first rest ih =>
      obtain ⟨hfirst, hrest⟩ := List.nodup_cons.mp hnodup
      rw [List.foldl_cons, ih hrest, hact]
      by_cases hsame : first = other
      · subst hsame
        simp [hfirst]
      · simp [hsame, Ne.symm hsame]

theorem get?_purgeKnown (hnodup : ids.Nodup) (table : PeerTable) (now : Nat)
    (id : PeerId) :
    (table.purgeKnown now ids).get? id =
      if id ∈ ids then (table.get? id).map fun peer =>
        { peer with known := peer.known.purge now }
      else table.get? id :=
  get?_foldl (fun table id other => get?_modify table id other) hnodup table id

theorem hasRoom_send_of_ne (hne : id ≠ other) (table : PeerTable)
    (command : PeerCommand) :
    (table.send id command).2.hasRoom other = table.hasRoom other := by
  rw [hasRoom, get?_send, if_neg hne, hasRoom]

theorem foldl_send (hnodup : ids.Nodup) (table : PeerTable)
    (command : PeerCommand) (sent : Nat) :
    ids.foldl
        (fun (sent, table) id =>
          let (accepted, table) := table.send id command
          (if accepted then sent + 1 else sent, table))
        (sent, table) =
      (sent + ids.countP table.hasRoom,
        ids.foldl (fun table id => (table.send id command).2) table) := by
  induction ids generalizing table sent with
  | nil => rfl
  | cons first rest ih =>
      obtain ⟨hfirst, hrest⟩ := List.nodup_cons.mp hnodup
      have hroom : rest.countP (table.send first command).2.hasRoom =
          rest.countP table.hasRoom := by
        refine List.countP_congr fun id hid => ?_
        have hne : first ≠ id := fun hsame => hfirst (hsame.symm ▸ hid)
        rw [hasRoom_send_of_ne hne]
      rw [List.foldl_cons, List.foldl_cons, List.countP_cons,
        ← fst_send table first command]
      refine (ih hrest (table.send first command).2
        (if (table.send first command).1 then sent + 1 else sent)).trans ?_
      rw [hroom]
      cases (table.send first command).1 with
      | false => rfl
      | true => rw [if_pos rfl, if_pos rfl, Nat.add_assoc, Nat.add_comm 1]

theorem sendAll_eq (hnodup : ids.Nodup) (table : PeerTable)
    (command : PeerCommand) :
    table.sendAll command ids =
      (ids.countP table.hasRoom,
        ids.foldl (fun table id => (table.send id command).2) table) := by
  rw [sendAll, foldl_send hnodup, Nat.zero_add]

theorem get?_sendAll (hnodup : ids.Nodup) (table : PeerTable)
    (command : PeerCommand) (id : PeerId) :
    (table.sendAll command ids).2.get? id =
      if id ∈ ids then
        (table.get? id).map fun peer =>
          { peer with inbox := peer.inbox.push command }
      else table.get? id := by
  rw [sendAll_eq hnodup]
  exact get?_foldl (fun table id other => get?_send table id command other)
    hnodup table id

theorem map_id_snapshot (table : PeerTable) :
    table.snapshot.map (·.id) = table.peers.keys := by
  rw [snapshot, List.map_map, values_eq_map_toList, List.map_map,
    ← Std.HashMap.map_fst_toList_eq_keys]
  refine List.map_congr_left fun entry hentry => ?_
  exact table.named entry.1 entry.2
    (Std.HashMap.mem_toList_iff_getElem?_eq_some.mp hentry)

theorem mem_snapshot {info : PeerInfo} :
    info ∈ table.snapshot ↔ ∃ peer, table.get? info.id = some peer ∧
      peer.info = info := by
  rw [snapshot, List.mem_map]
  constructor
  · rintro ⟨peer, hpeer, rfl⟩
    obtain ⟨id, hheld⟩ := mem_values_iff.mp hpeer
    rw [get?, table.named id peer hheld]
    exact ⟨peer, hheld, rfl⟩
  · rintro ⟨peer, hpeer, rfl⟩
    exact ⟨peer, mem_values_iff.mpr ⟨_, hpeer⟩, rfl⟩

theorem nodup_active (table : PeerTable) (except? : Option PeerId) :
    ((table.active except?).map (·.id)).Nodup := by
  have hsublist :
      ((table.active except?).map (·.id)).Sublist (table.snapshot.map (·.id)) :=
    List.filter_sublist.map _
  rw [map_id_snapshot] at hsublist
  exact hsublist.nodup Std.HashMap.nodup_keys

theorem nodup_sharers (table : PeerTable) (stream : UInt64)
    (except? : Option PeerId) :
    (table.sharers stream except?).Nodup :=
  (table.nodup_active except?).sublist (List.filter_sublist.map _)

theorem mem_sharers :
    id ∈ table.sharers stream except? ↔
      except? ≠ some id ∧ ∃ peer, table.get? id = some peer ∧
        peer.info.lifecycle = .active ∧
        stream ∈ peer.info.streams := by
  simp only [sharers, activeIn, active, List.mem_map, List.mem_filter,
    mem_snapshot, PeerInfo.isActive]
  constructor
  · rintro ⟨_, ⟨⟨⟨peer, hpeer, rfl⟩, hactive⟩, hshares⟩, rfl⟩
    simp only [Bool.and_eq_true, decide_eq_true_eq] at hactive
    exact ⟨hactive.1, peer, hpeer, hactive.2, List.contains_iff_mem.mp hshares⟩
  · rintro ⟨hother, peer, hpeer, hactive, hshares⟩
    have hname := table.named id peer hpeer
    refine ⟨peer.info, ⟨⟨⟨peer, ?_, rfl⟩, ?_⟩, ?_⟩, hname⟩
    · rw [hname]
      exact hpeer
    · simp [hname, hother, hactive]
    · exact List.contains_iff_mem.mpr hshares

theorem knows_eq_false_iff (hpeer : table.get? id = some peer) :
    table.knows id vector now = false ↔
      ∀ seen, peer.known.seen[vector]? = some seen →
        peer.known.lifetime < now - seen := by
  rw [knows, hpeer, Option.any_some, KnownVectors.knowsOf,
    Bool.eq_false_iff, ne_eq, KnownVectors.contains_purge_iff]
  simp only [not_exists, not_and, Nat.not_le]

theorem awaits_iff :
    table.Awaits now vector stream except? id ↔
      id ∈ table.sharers stream except? ∧
      table.knows id vector now = false := by
  rw [mem_sharers]
  constructor
  · rintro ⟨hother, peer, hpeer, hlacks⟩
    exact ⟨⟨hother, peer, hpeer, hlacks.active, hlacks.shares⟩,
      (knows_eq_false_iff hpeer).mpr hlacks.unaware⟩
  · rintro ⟨⟨hother, peer, hpeer, hactive, hshares⟩, hunaware⟩
    exact ⟨hother, peer, hpeer, hactive, hshares,
      (knows_eq_false_iff hpeer).mp hunaware⟩

/-- All that a vector could be offered to. -/
def waiting (table : PeerTable) (now : Nat) (vector : InventoryVector)
    (stream : UInt64) (except? : Option PeerId) : List PeerId :=
  (table.sharers stream except?).filter fun id => !table.knows id vector now

theorem mem_waiting :
    id ∈ table.waiting now vector stream except? ↔
    table.Awaits now vector stream except? id := by
  rw [waiting, List.mem_filter, awaits_iff, Bool.not_eq_true']

theorem nodup_waiting (table : PeerTable) (now : Nat) (vector : InventoryVector)
    (stream : UInt64) (except? : Option PeerId) :
    (table.waiting now vector stream except?).Nodup :=
  (table.nodup_sharers stream except?).filter _

theorem nodup_targets (table : PeerTable) (shuffle : Shuffle) (now : Nat)
    (vector : InventoryVector) (stream : UInt64) (except? : Option PeerId) :
    (table.targets shuffle now vector stream except?).Nodup := by
  have hnodup := table.nodup_waiting now vector stream except?
  exact ((shuffle.perm _).nodup_iff.mpr hnodup).sublist (List.take_sublist _ _)

theorem awaits_of_mem_targets
    (h : id ∈ table.targets shuffle now vector stream except?) :
    table.Awaits now vector stream except? id :=
  mem_waiting.mp (shuffle.mem_order.mp (List.mem_of_mem_take h))

theorem exists_length_targets (table : PeerTable) (shuffle : Shuffle)
    (now : Nat) (vector : InventoryVector) (stream : UInt64)
    (except? : Option PeerId) :
    ∃ all : Finset PeerId,
      (∀ id, id ∈ all ↔ table.Awaits now vector stream except? id) ∧
      (table.targets shuffle now vector stream except?).length =
        min Fanout.mostOffers all.card := by
  refine ⟨(table.waiting now vector stream except?).toFinset, ?_, ?_⟩
  · intro id
    rw [List.mem_toFinset, mem_waiting]
  · rw [List.toFinset_card_of_nodup
      (table.nodup_waiting now vector stream except?), targets, Fanout.choose,
      List.length_take, shuffle.length_order, waiting]

/-- An announcement looks into what is known of those that share the stream, and
reaches none but its targets. -/
theorem get?_announce (table : PeerTable) (shuffle : Shuffle) (now : Nat)
    (vector : InventoryVector) (stream : UInt64) (except? : Option PeerId)
    (id : PeerId) :
    (table.announce shuffle now vector stream except?).2.get? id =
      (table.get? id).map fun peer =>
        { peer with
          known :=
            if id ∈ table.sharers stream except? then peer.known.purge now
            else peer.known
          inbox :=
            if id ∈ table.targets shuffle now vector stream except? then
              peer.inbox.push (.offer vector)
            else peer.inbox } := by
  rw [announce,
    get?_sendAll (table.nodup_targets shuffle now vector stream except?),
    get?_purgeKnown (table.nodup_sharers stream except?)]
  cases table.get? id with
  | none => simp
  | some peer =>
      by_cases htarget : id ∈ table.targets shuffle now vector stream except?
      · by_cases hshares : id ∈ table.sharers stream except?
        · simp [htarget, hshares]
        · simp [htarget, hshares]
      · by_cases hshares : id ∈ table.sharers stream except?
        · simp [htarget, hshares]
        · simp [htarget, hshares]

theorem queue_announce (table : PeerTable) (shuffle : Shuffle) (now : Nat)
    (vector : InventoryVector) (stream : UInt64) (except? : Option PeerId)
    (id : PeerId) :
    (table.announce shuffle now vector stream except?).2.queue id =
      if id ∈ table.targets shuffle now vector stream except? ∧
          table.hasRoom id = true then
        table.queue id ++ [.offer vector]
      else table.queue id := by
  rw [queue, get?_announce, queue, hasRoom]
  cases table.get? id with
  | none => simp
  | some peer =>
      by_cases htarget : id ∈ table.targets shuffle now vector stream except?
      · by_cases hroom : peer.inbox.accepts = true
        · simp [htarget, hroom, Inbox.push]
        · simp [htarget, hroom, Inbox.push]
      · simp [htarget]

theorem fst_announce (table : PeerTable) (shuffle : Shuffle) (now : Nat)
    (vector : InventoryVector) (stream : UInt64) (except? : Option PeerId) :
    (table.announce shuffle now vector stream except?).1 =
      (table.targets shuffle now vector stream except?).countP
        table.hasRoom := by
  rw [announce,
    sendAll_eq (table.nodup_targets shuffle now vector stream except?)]
  refine List.countP_congr fun id _ => ?_
  rw [hasRoom, get?_purgeKnown (table.nodup_sharers stream except?), hasRoom]
  split
  · cases table.get? id <;> rfl
  · rfl

/-- Nobody joins, and nothing that is known of those who stay is forgotten
before its time. -/
def Ages (now : Nat) (before after : PeerTable) : Prop :=
  ∀ id peer, after.get? id = some peer →
    ∃ held, before.get? id = some held ∧
      KnownVectors.Ages now held.known peer.known

variable {before middle after : PeerTable} {change : Peer → Peer}

theorem Ages.refl (now : Nat) (table : PeerTable) : Ages now table table :=
  fun _ peer hpeer => ⟨peer, hpeer, .refl now _⟩

theorem Ages.trans (hfirst : Ages now before middle)
    (hsecond : Ages now middle after) :
    Ages now before after := by
  intro id peer hpeer
  obtain ⟨between, hbetween, hlater⟩ := hsecond id peer hpeer
  obtain ⟨held, hheld, hearlier⟩ := hfirst id between hbetween
  exact ⟨held, hheld, hearlier.trans hlater⟩

theorem ages_erase (now : Nat) (table : PeerTable) (id : PeerId) :
    Ages now table (table.erase id) := by
  intro other peer hpeer
  rw [get?_erase] at hpeer
  split at hpeer
  · cases hpeer
  · exact ⟨peer, hpeer, .refl now _⟩

theorem ages_modify
    (hknown : ∀ peer, table.get? id = some peer →
      KnownVectors.Ages now peer.known (change peer).known)
    (hchange : ∀ peer, (change peer).info.id = peer.info.id := by intro; rfl) :
    Ages now table (table.modify id change hchange) := by
  intro other peer hpeer
  rw [get?_modify] at hpeer
  split at hpeer
  · rename_i hid
    obtain ⟨held, hheld, rfl⟩ := Option.map_eq_some_iff.mp hpeer
    exact ⟨held, hheld, hknown held (hid ▸ hheld)⟩
  · exact ⟨peer, hpeer, .refl now _⟩

theorem ages_send (now : Nat) (table : PeerTable) (id : PeerId)
    (command : PeerCommand) :
    Ages now table (table.send id command).2 := by
  intro other peer hpeer
  rw [get?_send] at hpeer
  split at hpeer
  · obtain ⟨held, hheld, rfl⟩ := Option.map_eq_some_iff.mp hpeer
    exact ⟨held, hheld, .refl now _⟩
  · exact ⟨peer, hpeer, .refl now _⟩

theorem ages_sendAll (hnodup : ids.Nodup) (now : Nat) (table : PeerTable)
    (command : PeerCommand) :
    Ages now table (table.sendAll command ids).2 := by
  intro id peer hpeer
  rw [get?_sendAll hnodup] at hpeer
  split at hpeer
  · obtain ⟨held, hheld, rfl⟩ := Option.map_eq_some_iff.mp hpeer
    exact ⟨held, hheld, .refl now _⟩
  · exact ⟨peer, hpeer, .refl now _⟩

theorem ages_announce (table : PeerTable) (shuffle : Shuffle) (now : Nat)
    (vector : InventoryVector) (stream : UInt64) (except? : Option PeerId) :
    Ages now table (table.announce shuffle now vector stream except?).2 := by
  intro id peer hpeer
  rw [get?_announce] at hpeer
  obtain ⟨held, hheld, rfl⟩ := Option.map_eq_some_iff.mp hpeer
  refine ⟨held, hheld, ?_⟩
  dsimp only
  split
  · exact KnownVectors.ages_purge held.known now
  · exact .refl now _

theorem not_awaits_of_heardSince {since : Nat}
    (h : ∀ peer, table.get? id = some peer →
      peer.known.HeardSince vector since ∧
      now ≤ since + peer.known.lifetime) :
    ¬ table.Awaits now vector stream except? id := by
  rintro ⟨-, peer, hpeer, hlacks⟩
  obtain ⟨⟨seen, hseen, hle⟩, hnow⟩ := h peer hpeer
  have hold := hlacks.unaware seen hseen
  omega

end PeerTable

end ObjectRelay
