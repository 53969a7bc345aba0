import Mathlib.Data.List.Nodup
import ObjectRelay.Pool
import ObjectRelay.Proofs.Distinct

namespace ObjectRelay

/-! Whom a sweep tells to leave.  The connections that may be closed stand in a
line, the oldest first, and those that go are the front of it: what exceeds the
limit, and perhaps one more that is too old. -/

namespace PeerInfo

def isLive (info : PeerInfo) : Bool :=
  info.lifecycle ≠ .disconnected

def isClosable (info : PeerInfo) : Bool :=
  info.isLive && info.mode ≠ .sync

end PeerInfo

namespace PoolPlan

def spares (plan : PoolPlan) (peer : PeerInfo) : Bool :=
  !(plan.disconnect.map (·.1)).contains peer.id

/-- The live peers that are not told to leave. -/
def spared (plan : PoolPlan) (peers : List PeerInfo) : List PeerInfo :=
  peers.filter fun peer => peer.isLive && plan.spares peer

end PoolPlan

/-- Of items that differ in their names, those go whose names are given. -/
theorem length_filter_not_contains {α β : Type} [BEq β] [LawfulBEq β]
    (name : α → β) {items gone : List α} (hnames : (items.map name).Nodup)
    (hgone : gone.Sublist items) :
    (items.filter fun item => !(gone.map name).contains (name item)).length +
      gone.length = items.length := by
  have hperm : gone.Perm
      (items.filter fun item => (gone.map name).contains (name item)) := by
    have hitems := hnames.of_map name
    refine (List.perm_ext_iff_of_nodup (hgone.nodup hitems)
      (hitems.filter _)).mpr fun item => ?_
    rw [List.mem_filter, List.contains_iff_mem, List.mem_map]
    constructor
    · exact fun hmem => ⟨hgone.subset hmem, item, hmem, rfl⟩
    · rintro ⟨hmem, other, hother, hsame⟩
      exact List.inj_on_of_nodup_map hnames (hgone.subset hother) hmem hsame
        ▸ hother
  rw [hperm.length_eq, Nat.add_comm, ← List.length_append]
  exact (List.filter_append_perm _ items).length_eq

namespace Pool

variable {limits : PoolLimits} {peers line : List PeerInfo} {now : Nat}
  {peer : PeerInfo} {id : PeerId}

/-- The peers differ in their names, and the oldest comes first. -/
structure Lineup (line : List PeerInfo) : Prop where
  distinct : (line.map (·.id)).Nodup
  aged : line.Pairwise fun left right => left.connectedAt ≤ right.connectedAt

theorem Lineup.sublist {some : List PeerInfo} (h : Lineup line)
    (hsome : some.Sublist line) :
    Lineup some :=
  ⟨(hsome.map _).nodup h.distinct, h.aged.sublist hsome⟩

theorem Lineup.eq_of_id_eq {left right : PeerInfo} (h : Lineup line)
    (hleft : left ∈ line) (hright : right ∈ line) (hid : left.id = right.id) :
    left = right :=
  List.inj_on_of_nodup_map h.distinct hleft hright hid

theorem perm_live (peers : List PeerInfo) :
    (live peers).Perm (peers.filter (·.isLive)) :=
  List.mergeSort_perm _ _

theorem perm_closable (peers : List PeerInfo) :
    (closable (live peers)).Perm (peers.filter (·.isClosable)) := by
  refine ((perm_live peers).filter _).trans ?_
  rw [List.filter_filter]
  exact List.Perm.of_eq (List.filter_congr fun peer _ => Bool.and_comm _ _)

theorem mem_closable_iff :
    peer ∈ closable (live peers) ↔ peer ∈ peers ∧ peer.isClosable = true := by
  rw [(perm_closable peers).mem_iff, List.mem_filter]

theorem lineup_live (h : (peers.map (·.id)).Nodup) : Lineup (live peers) := by
  refine ⟨?_, ?_⟩
  · rw [((perm_live peers).map _).nodup_iff]
    exact (List.filter_sublist.map _).nodup h
  · refine (List.pairwise_mergeSort ?_ ?_ _).imp of_decide_eq_true
    · intro first second third
      simpa using Nat.le_trans
    · intro left right
      simpa using Nat.le_total left.connectedAt right.connectedAt

theorem lineup_closable (h : Lineup line) : Lineup (closable line) :=
  h.sublist List.filter_sublist

/-- How many live connections there are too many. -/
def surplus (limits : PoolLimits) (line : List PeerInfo) : Nat :=
  line.length - limits.connections.toNat

def isOld (limits : PoolLimits) (now : Nat) (peer : PeerInfo) : Bool :=
  limits.lifetime < now - peer.connectedAt

theorem excess_eq_take :
    excess limits line = (closable line).take (surplus limits line) := rfl

theorem length_excess :
    (excess limits line).length =
      min (surplus limits line) (closable line).length := by
  rw [excess_eq_take, List.length_take]

theorem isOld_of_le {older : PeerInfo}
    (hage : older.connectedAt ≤ peer.connectedAt)
    (hold : isOld limits now peer = true) : isOld limits now older = true := by
  simp only [isOld, decide_eq_true_eq] at hold ⊢
  omega

theorem Lineup.find?_isOld (h : Lineup line) :
    line.find? (isOld limits now) = line.head?.filter (isOld limits now) := by
  cases line with
  | nil => rfl
  | cons first rest =>
      rw [List.head?_cons, Option.filter_some, List.find?_cons]
      cases hfirst : isOld limits now first with
      | true => rfl
      | false =>
          refine List.find?_eq_none.mpr fun peer hmem hold => ?_
          rw [isOld_of_le (List.rel_of_pairwise_cons h.aged hmem) hold]
            at hfirst
          cases hfirst

/-- Whoever is too many already is not closed for its age as well. -/
def mayExpire (limits : PoolLimits) (line : List PeerInfo) (now : Nat)
    (peer : PeerInfo) : Bool :=
  !(excess limits line).any (·.id = peer.id) && isOld limits now peer

theorem expired?_eq_find? :
    expired? limits line now =
      (closable line).find? (mayExpire limits line now) := rfl

theorem find?_mayExpire_take :
    ((closable line).take (surplus limits line)).find?
      (mayExpire limits line now) = none := by
  refine List.find?_eq_none.mpr fun peer hmem => ?_
  have hgone : (excess limits line).any (·.id = peer.id) = true :=
    List.any_eq_true.mpr ⟨peer, hmem, decide_eq_true rfl⟩
  simp [mayExpire, hgone]

theorem Lineup.find?_mayExpire_drop (h : Lineup line) :
    ((closable line).drop (surplus limits line)).find?
      (mayExpire limits line now) =
      (closable line)[surplus limits line]?.filter (isOld limits now) := by
  have hline := lineup_closable h
  have hnames := hline.distinct
  rw [← List.take_append_drop (surplus limits line) (closable line),
    List.map_append, List.nodup_append] at hnames
  have hold : ∀ peer ∈ (closable line).drop (surplus limits line),
      mayExpire limits line now peer = isOld limits now peer := by
    intro peer hmem
    have hstays : (excess limits line).any (·.id = peer.id) = false := by
      refine List.any_eq_false.mpr fun other hother hsame => ?_
      exact hnames.2.2 _ (List.mem_map_of_mem hother) _
        (List.mem_map_of_mem hmem) (of_decide_eq_true hsame)
    rw [mayExpire, hstays]
    rfl
  rw [← List.head?_filter, List.filter_congr hold, List.head?_filter,
    (hline.sublist (List.drop_sublist _ _)).find?_isOld, List.head?_drop]

theorem Lineup.expired?_eq (h : Lineup line) :
    expired? limits line now =
      (closable line)[surplus limits line]?.filter (isOld limits now) := by
  have hsplit := List.take_append_drop (surplus limits line) (closable line)
  rw [← h.find?_mayExpire_drop, expired?_eq_find?]
  conv_lhs => rw [← hsplit]
  rw [List.find?_append, find?_mayExpire_take, Option.none_or]

/-- Those who go, in the order of the line. -/
def closing (limits : PoolLimits) (line : List PeerInfo) (now : Nat) :
    List PeerInfo :=
  excess limits line ++ (expired? limits line now).toList

theorem map_fst_dropped :
    (dropped limits line now).map (·.1) =
      (closing limits line now).map (·.id) := by
  simp [dropped, closing, Function.comp_def]

theorem Lineup.closing_prefix (h : Lineup line) :
    closing limits line now <+: closable line := by
  rw [closing, excess_eq_take, h.expired?_eq]
  cases hnext : (closable line)[surplus limits line]?.filter (isOld limits now)
    with
  | none =>
      rw [Option.toList_none, List.append_nil]
      exact List.take_prefix _ _
  | some next =>
      have hnext := (Option.filter_eq_some_iff.mp hnext).1
      rw [← hnext, ← List.take_add_one]
      exact List.take_prefix _ _

theorem Lineup.nodup_dropped (h : Lineup line) :
    ((dropped limits line now).map (·.1)).Nodup := by
  rw [map_fst_dropped]
  exact (h.closing_prefix.sublist.map _).nodup (lineup_closable h).distinct

theorem mem_dropped_excess :
    (id, .excessConnection) ∈ dropped limits line now ↔
      ∃ peer ∈ excess limits line, peer.id = id := by
  simp [dropped]

theorem mem_dropped_expired :
    (id, .expired) ∈ dropped limits line now ↔
      ∃ peer, expired? limits line now = some peer ∧ peer.id = id := by
  simp [dropped]

theorem reason_of_mem_dropped {entry : PeerId × DisconnectReason}
    (h : entry ∈ dropped limits line now) :
    entry.2 = .excessConnection ∨ entry.2 = .expired := by
  rcases List.mem_append.mp h with hexcess | hexpired
  · obtain ⟨peer, -, rfl⟩ := List.mem_map.mp hexcess
    exact .inl rfl
  · obtain ⟨peer, -, rfl⟩ := List.mem_map.mp hexpired
    exact .inr rfl

theorem Lineup.excess_mem_dropped_iff (h : Lineup line)
    (hpeer : peer ∈ closable line) :
    (peer.id, .excessConnection) ∈ dropped limits line now ↔
      peer ∈ (closable line).take (surplus limits line) := by
  rw [mem_dropped_excess, excess_eq_take]
  constructor
  · rintro ⟨other, hother, hid⟩
    exact (lineup_closable h).eq_of_id_eq (List.mem_of_mem_take hother) hpeer
      hid ▸ hother
  · exact fun hmem => ⟨peer, hmem, rfl⟩

theorem Lineup.expired_mem_dropped_iff (h : Lineup line)
    (hpeer : peer ∈ closable line) :
    (peer.id, .expired) ∈ dropped limits line now ↔
      (closable line)[surplus limits line]? = some peer ∧
      isOld limits now peer = true := by
  rw [mem_dropped_expired, h.expired?_eq]
  simp only [Option.filter_eq_some_iff]
  constructor
  · rintro ⟨other, ⟨hnext, hold⟩, hid⟩
    have hsame :=
      (lineup_closable h).eq_of_id_eq (List.mem_of_getElem? hnext) hpeer hid
    exact hsame ▸ ⟨hnext, hold⟩
  · exact fun hnext => ⟨peer, hnext, rfl⟩

theorem Lineup.mem_drop_of_kept (h : Lineup line) (hpeer : peer ∈ closable line)
    (hkept : (peer.id, .excessConnection) ∉ dropped limits line now) :
    peer ∈ (closable line).drop (surplus limits line) := by
  rw [h.excess_mem_dropped_iff hpeer] at hkept
  rw [← List.take_append_drop (surplus limits line) (closable line),
    List.mem_append] at hpeer
  exact hpeer.resolve_left hkept

theorem Lineup.le_of_mem_take {gone left : PeerInfo} {count : Nat}
    (h : Lineup line) (hgone : gone ∈ (closable line).take count)
    (hleft : left ∈ (closable line).drop count) :
    gone.connectedAt ≤ left.connectedAt := by
  have haged := (lineup_closable h).aged
  rw [← List.take_append_drop count (closable line), List.pairwise_append]
    at haged
  exact haged.2.2 gone hgone left hleft

theorem Lineup.le_of_getElem? {next left : PeerInfo} {count : Nat}
    (h : Lineup line) (hnext : (closable line)[count]? = some next)
    (hleft : left ∈ (closable line).drop count) :
    next.connectedAt ≤ left.connectedAt := by
  have haged := (lineup_closable h).aged.sublist (List.drop_sublist count _)
  rw [← List.head?_drop] at hnext
  generalize (closable line).drop count = back at hnext hleft haged
  cases back with
  | nil => cases hleft
  | cons first rest =>
      rw [← Option.some_inj.mp hnext]
      rcases List.mem_cons.mp hleft with rfl | hlater
      · exact Nat.le_refl _
      · exact List.rel_of_pairwise_cons haged hlater

theorem Lineup.exists_expired (h : Lineup line)
    (hpeer : peer ∈ (closable line).drop (surplus limits line))
    (hold : isOld limits now peer = true) :
    ∃ id, (id, .expired) ∈ dropped limits line now := by
  obtain ⟨next, hnext⟩ : ∃ next, (closable line)[surplus limits line]? =
    some next := by
    rw [← List.head?_drop, ← Option.isSome_iff_exists, List.isSome_head?]
    exact List.ne_nil_of_mem hpeer
  have hline := List.mem_of_getElem? hnext
  refine ⟨next.id, (h.expired_mem_dropped_iff hline).mpr ⟨hnext, ?_⟩⟩
  exact isOld_of_le (h.le_of_getElem? hnext hpeer) hold

theorem countP_excess_dropped :
    (dropped limits line now).countP (·.2 = .excessConnection) =
      (excess limits line).length := by
  simp [dropped, List.countP_map, Function.comp_def]

theorem countP_expired_dropped :
    (dropped limits line now).countP (·.2 = .expired) =
      (expired? limits line now).toList.length := by
  simp [dropped, List.countP_map, Function.comp_def]

theorem perm_spared (plan : PoolPlan) (peers : List PeerInfo) :
    (plan.spared peers).Perm ((live peers).filter plan.spares) := by
  refine List.Perm.trans (List.Perm.of_eq ?_)
    ((perm_live peers).filter plan.spares).symm
  rw [List.filter_filter]
  exact List.filter_congr fun peer _ => Bool.and_comm _ _

theorem perm_closable_spared (plan : PoolPlan) (peers : List PeerInfo) :
    (closable (live (plan.spared peers))).Perm
      ((closable (live peers)).filter plan.spares) := by
  refine (perm_closable _).trans
    (List.Perm.trans (List.Perm.of_eq ?_)
      ((perm_closable peers).filter plan.spares).symm)
  rw [PoolPlan.spared, List.filter_filter, List.filter_filter]
  refine List.filter_congr fun peer _ => ?_
  rw [PeerInfo.isClosable]
  cases peer.isLive <;> simp [Bool.and_comm]

theorem length_live_spared (plan : PoolPlan) (peers : List PeerInfo) :
    (live (plan.spared peers)).length = (plan.spared peers).length := by
  rw [(perm_live _).length_eq, PoolPlan.spared, List.filter_filter]
  refine congrArg List.length (List.filter_congr fun peer _ => ?_)
  cases peer.isLive <;> rfl

variable {known : Nat → List PeerRecord}

@[simp] theorem disconnect_plan :
    (plan limits peers known now).disconnect =
      dropped limits (live peers) now := by
  rw [plan]

@[simp] theorem connect_plan :
    (plan limits peers known now).connect =
      dialed limits (live peers) now known := by
  rw [plan]

theorem length_filter_spares {line : List PeerInfo} (h : Lineup line)
    (hgone : (closing limits (live peers) now).Sublist line) :
    (line.filter (plan limits peers known now).spares).length +
      (closing limits (live peers) now).length = line.length := by
  have hspares : (plan limits peers known now).spares = fun peer =>
      !((closing limits (live peers) now).map (·.id)).contains peer.id := by
    funext peer
    rw [PoolPlan.spares, disconnect_plan, map_fst_dropped]
  rw [hspares]
  exact length_filter_not_contains (·.id) h.distinct hgone

theorem length_spared (h : Lineup (live peers)) (limits : PoolLimits)
    (known : Nat → List PeerRecord) (now : Nat) :
    ((plan limits peers known now).spared peers).length +
      (closing limits (live peers) now).length = (live peers).length := by
  rw [(perm_spared _ peers).length_eq]
  exact length_filter_spares h
    (h.closing_prefix.sublist.trans List.filter_sublist)

theorem length_closable_spared (h : Lineup (live peers)) (limits : PoolLimits)
    (known : Nat → List PeerRecord) (now : Nat) :
    (closable (live ((plan limits peers known now).spared peers))).length +
      (closing limits (live peers) now).length =
        (closable (live peers)).length := by
  rw [(perm_closable_spared _ peers).length_eq]
  exact length_filter_spares (lineup_closable h) h.closing_prefix.sublist

theorem remaining_eq (h : Lineup (live peers)) :
    remaining limits (live peers) now =
      ((plan limits peers known now).spared peers).length := by
  have hlength := length_spared h limits known now
  rw [remaining, distinct_of_nodup h.nodup_dropped, map_fst_dropped,
    List.length_map]
  omega

theorem length_closing (limits : PoolLimits) (line : List PeerInfo)
    (now : Nat) :
    (closing limits line now).length =
      min (surplus limits line) (closable line).length +
        (expired? limits line now).toList.length := by
  rw [closing, List.length_append, length_excess]

theorem excess_spared (h : Lineup (live peers)) :
    excess limits (live ((plan limits peers known now).spared peers)) = [] := by
  have hall := length_spared h limits known now
  have hclosable := length_closable_spared h limits known now
  have hgone := length_closing limits (live peers) now
  rw [← List.length_eq_zero_iff, length_excess, surplus, length_live_spared]
  rw [surplus] at hgone
  omega

theorem length_live_eq (peers : List PeerInfo) :
    (live peers).length = (closable (live peers)).length +
      (peers.filter fun peer => peer.isLive && peer.mode = .sync).length := by
  have hsplit :=
    (List.filter_append_perm (·.mode ≠ .sync)
      (peers.filter (·.isLive))).length_eq
  rw [List.length_append, List.filter_filter, List.filter_filter] at hsplit
  rw [(perm_live peers).length_eq, (perm_closable peers).length_eq, ← hsplit]
  congr 2
  · exact List.filter_congr fun peer _ => Bool.and_comm _ _
  · refine List.filter_congr fun peer _ => ?_
    rw [Bool.and_comm]
    simp

theorem length_dialed_le :
    (dialed limits line now known).length ≤ wanted limits line now := by
  unfold dialed
  split
  · exact Nat.zero_le _
  · exact List.length_take_le _ _

/-- The oldest make room for the others, and the next one goes if it is too
old. -/
structure Closes (limits : PoolLimits) (peers : List PeerInfo) (now : Nat)
    (closed : List (PeerId × DisconnectReason)) : Prop where
  nodup : (closed.map (·.1)).Nodup
  closable : ∀ entry ∈ closed,
    (∃ peer ∈ peers, peer.isClosable = true ∧ peer.id = entry.1) ∧
    (entry.2 = .excessConnection ∨ entry.2 = .expired)
  excess_count : closed.countP (·.2 = .excessConnection) =
    min ((peers.filter (·.isLive)).length - limits.connections.toNat)
      (peers.filter (·.isClosable)).length
  excess_oldest : ∀ gone ∈ peers, ∀ left ∈ peers, gone.isClosable = true →
    left.isClosable = true →
    (gone.id, .excessConnection) ∈ closed →
      (left.id, .excessConnection) ∉ closed →
      gone.connectedAt ≤ left.connectedAt
  expired_count : closed.countP (·.2 = .expired) ≤ 1
  expired_oldest : ∀ gone ∈ peers, gone.isClosable = true →
    (gone.id, .expired) ∈ closed →
    limits.lifetime < now - gone.connectedAt ∧ ∀ left ∈ peers,
      left.isClosable = true →
      (left.id, .excessConnection) ∉ closed →
      gone.connectedAt ≤ left.connectedAt
  expired_some : ∀ left ∈ peers, left.isClosable = true →
    (left.id, .excessConnection) ∉ closed →
      limits.lifetime < now - left.connectedAt →
      ∃ id, (id, .expired) ∈ closed

theorem closes_dropped (hids : (peers.map (·.id)).Nodup) :
    Closes limits peers now (dropped limits (live peers) now) := by
  have hline := lineup_live hids
  refine ⟨hline.nodup_dropped, ?_, ?_, ?_, ?_, ?_, ?_⟩
  · intro entry hentry
    have hid : entry.1 ∈ (dropped limits (live peers) now).map (·.1) :=
      List.mem_map_of_mem hentry
    rw [map_fst_dropped, List.mem_map] at hid
    obtain ⟨peer, hgone, hid⟩ := hid
    obtain ⟨hpeer, hclosable⟩ :=
      mem_closable_iff.mp (hline.closing_prefix.subset hgone)
    exact ⟨⟨peer, hpeer, hclosable, hid⟩, reason_of_mem_dropped hentry⟩
  · rw [countP_excess_dropped, length_excess, surplus,
      (perm_live peers).length_eq, (perm_closable peers).length_eq]
  · intro gone hgone left hleft hgoneClosable hleftClosable hout hin
    rw [hline.excess_mem_dropped_iff
      (mem_closable_iff.mpr ⟨hgone, hgoneClosable⟩)] at hout
    exact hline.le_of_mem_take hout
      (hline.mem_drop_of_kept (mem_closable_iff.mpr ⟨hleft, hleftClosable⟩) hin)
  · rw [countP_expired_dropped]
    exact Option.length_toList_le
  · intro gone hgone hclosable hout
    obtain ⟨hnext, hold⟩ :=
      (hline.expired_mem_dropped_iff
        (mem_closable_iff.mpr ⟨hgone, hclosable⟩)).mp hout
    refine ⟨of_decide_eq_true hold, fun left hleft hleftClosable hin => ?_⟩
    exact hline.le_of_getElem? hnext
      (hline.mem_drop_of_kept (mem_closable_iff.mpr ⟨hleft, hleftClosable⟩) hin)
  · intro left hleft hclosable hin hold
    exact hline.exists_expired
      (hline.mem_drop_of_kept (mem_closable_iff.mpr ⟨hleft, hclosable⟩) hin)
        (decide_eq_true hold)

/-- A sweep closes the oldest of too many connections and at most one more for
its age; it closes as many as it can while synchronizations go on, and leaves
nothing over for the next sweep, nor does it dial beyond its limits. -/
theorem plan_closes_oldest (hids : (peers.map (·.id)).Nodup)
    (limits : PoolLimits) (known : Nat → List PeerRecord) (now : Nat) :
    let plan := plan limits peers known now
    let rest := plan.spared peers
    Closes limits peers now plan.disconnect ∧
      rest.length ≤ max limits.connections.toNat
        (peers.filter fun peer => peer.isLive && peer.mode = .sync).length ∧
      (∀ again later id,
        (id, .excessConnection) ∉
          (Pool.plan limits rest again later).disconnect) ∧
      rest.length + plan.connect.length ≤
        max rest.length
          (min limits.connections.toNat limits.outbound.toNat) := by
  intro plan rest
  have hline := lineup_live hids
  have hrest : rest.length + (closing limits (live peers) now).length =
      (live peers).length :=
    length_spared hline limits known now
  refine ⟨disconnect_plan ▸ closes_dropped hids, ?_, ?_, ?_⟩
  · have hgone := length_closing limits (live peers) now
    have hlive := length_live_eq peers
    rw [surplus] at hgone
    omega
  · intro again later id hexcess
    rw [disconnect_plan] at hexcess
    obtain ⟨peer, hpeer, -⟩ := mem_dropped_excess.mp hexcess
    have hnone : excess limits (live rest) = [] := excess_spared hline
    rw [hnone] at hpeer
    cases hpeer
  · have hdialed : plan.connect.length ≤ wanted limits (live peers) now :=
      connect_plan ▸ length_dialed_le
    have hremaining : remaining limits (live peers) now = rest.length :=
      remaining_eq hline
    rw [wanted, hremaining] at hdialed
    omega

def activePeer (id connectedAt : Nat) (mode : Mode) : PeerInfo where
  id := id
  address := .v4 (.ofNat 4 id) 8444
  mode := mode
  lifecycle := .active
  connectedAt := connectedAt

def agedPeers : List PeerInfo :=
  [activePeer 0 0 .sync, activePeer 1 5 .client, activePeer 2 10 .server]

/-- The older one is too many, the younger one too old; the oldest of all
synchronizes. -/
theorem plan_closes_agedPeers :
    (agedPeers.map (·.id)).Nodup ∧
      let plan := plan ⟨2, 3, 0⟩ agedPeers (fun _ => []) 20
      plan.disconnect = [(1, .excessConnection), (2, .expired)] ∧
        Closes ⟨2, 3, 0⟩ agedPeers 20 plan.disconnect ∧
        (plan.spared agedPeers).length ≤ 2 := by
  have hids : (agedPeers.map (·.id)).Nodup := by decide
  have hlive : live agedPeers = agedPeers :=
    List.mergeSort_of_pairwise (by decide)
  obtain ⟨hcloses, hrest, -⟩ :=
    plan_closes_oldest hids ⟨2, 3, 0⟩ (fun _ => []) 20
  refine ⟨hids, ?_, hcloses, hrest⟩
  rw [disconnect_plan, hlive]
  rfl

end Pool

end ObjectRelay
