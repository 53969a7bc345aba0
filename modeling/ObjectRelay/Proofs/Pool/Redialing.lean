import ObjectRelay.Proofs.Address.Endpoint
import ObjectRelay.Proofs.Pool.Dialing

namespace ObjectRelay

/-! Who is dialed although connected.  A sweep passes over the addresses of the
live peers as they are, while those it dials are plain: a peer whose own address
is not is overlooked. -/

/-- What passes a filter with few before it is among the first that do. -/
theorem mem_take_filter {α : Type} (front back : List α) {item : α}
    {keep : α → Bool} {count : Nat} (hkeep : keep item = true)
    (hfew : (front.filter keep).length < count) :
    item ∈ ((front ++ item :: back).filter keep).take count := by
  obtain ⟨more, hmore⟩ : ∃ more, count - (front.filter keep).length =
    more + 1 :=
    ⟨_, (Nat.sub_one_add_one (Nat.sub_ne_zero_of_lt hfew)).symm⟩
  rw [List.filter_append, List.filter_cons_of_pos hkeep,
    List.take_append, hmore, List.take_succ_cons]
  exact List.mem_append_right _ List.mem_cons_self

namespace Pool

variable {limits : PoolLimits} {line : List PeerInfo} {now : Nat}
  {book : AddressBook} {clock : Int64} {streams : List UInt64}
  {known : Nat → List PeerRecord} {address : SocketAddress}

theorem wanted_pos_of_mem_dialed (h : address ∈ dialed limits line now known) :
    0 < wanted limits line now := by
  refine Nat.pos_of_ne_zero fun hnone => ?_
  rw [dialed_of_wanted_eq_zero hnone] at h
  cases h

theorem plain_of_mem_dialed (h : address ∈ dialed limits line now known) :
    address.plain = address := by
  obtain ⟨⟨asked, record, -, rfl⟩, -⟩ := mem_dialed h
  exact SocketAddress.plain_socket record

theorem plain_eq_of_redialed {other : SocketAddress}
    (h : address ∈ dialed limits line now known)
    (hsame : address.sameEndpoint other = true) : address = other.plain :=
  (plain_of_mem_dialed h).symm.trans (SocketAddress.sameEndpoint_iff.mp hsame)

/-- The free addresses of current records, in the order of the book. -/
def firstDraw (line : List PeerInfo) (book : AddressBook) (clock : Int64)
    (streams : List UInt64) : List SocketAddress :=
  ((book.current clock streams).map PeerRecord.socket).filter (isFree line)

theorem length_firstDraw (shuffle : Shuffle) :
    (((shuffle.order (book.current clock streams)).map PeerRecord.socket).filter
      (isFree line)).length = (firstDraw line book clock streams).length :=
  (((shuffle.perm _).map _).filter _).length_eq

/-- Any current record may be drawn if one is asked for at all, and a bootstrap
peer if more are asked for than are current, and too few of these are free. -/
inductive MayDraw (limits : PoolLimits) (line : List PeerInfo) (now : Nat)
    (book : AddressBook) (clock : Int64) (streams : List UInt64)
    (address : SocketAddress) : Prop where
  | current {record : PeerRecord}
      (hmem : record ∈ book.current clock streams)
      (hsocket : record.socket = address)
      (hasked : 0 < (asked limits line now).toNat)
  | spare {seed : PeerRecord} (hmem : seed ∈ book.spare clock streams)
      (hsocket : seed.socket = address)
      (hasked : (book.current clock streams).length <
        (asked limits line now).toNat)
      (hfew : (firstDraw line book clock streams).length <
        wanted limits line now)

theorem mayDraw_of_mem_dialed (htidy : book.Tidy) {shuffle : Shuffle}
    (h : address ∈ dialed limits line now fun asked =>
      book.known shuffle clock asked streams) :
    MayDraw limits line now book clock streams address := by
  rw [dialed_known htidy (wanted_pos_of_mem_dialed h)] at h
  obtain ⟨record, hknown, hsocket⟩ :=
    List.mem_map.mp (List.mem_filter.mp (List.mem_of_mem_take h)).1
  rcases AddressBook.mem_current_or_spare_of_mem_known hknown with
    hcurrent | ⟨hfew, hspare⟩
  · have hlength := AddressBook.length_known_le book shuffle clock
      (asked limits line now).toNat streams
    exact .current hcurrent hsocket
      (Nat.lt_of_lt_of_le (List.length_pos_of_mem hknown) hlength)
  · refine .spare hspare hsocket hfew (Nat.not_le.mp fun hmany => ?_)
    -- Otherwise the free current records come first and are enough.
    rw [AddressBook.known_of_lt_limit hfew, List.map_append, List.filter_append,
      List.take_append_of_le_length
        (hmany.trans_eq (length_firstDraw shuffle).symm)] at h
    obtain ⟨held, hheld, hsame⟩ :=
      List.mem_map.mp (List.mem_filter.mp (List.mem_of_mem_take h)).1
    have hother := (AddressBook.mem_spare_iff.mp hspare).2.2 held
      (shuffle.mem_order.mp hheld)
    exact PeerRecord.sameEndpoint_eq_false_iff.mp hother
      (hsame.trans hsocket.symm)

theorem exists_mem_dialed_of_mem_current (htidy : book.Tidy)
    {record : PeerRecord} (hmem : record ∈ book.current clock streams)
    (hasked : 0 < (asked limits line now).toNat)
    (hwanted : 0 < wanted limits line now)
    (hfree : record.socket ∉ connected line) :
    ∃ shuffle : Shuffle, record.socket ∈ dialed limits line now fun asked =>
      book.known shuffle clock asked streams := by
  obtain ⟨shuffle, hknown⟩ := AddressBook.exists_known_eq
    (List.perm_cons_erase hmem).symm (List.Perm.refl (book.spare clock streams))
  refine ⟨shuffle, ?_⟩
  obtain ⟨more, hmore⟩ : ∃ more, (asked limits line now).toNat = more + 1 :=
    Nat.exists_eq_add_of_le' hasked
  rw [dialed_known htidy hwanted, hknown, hmore, List.take_succ_cons,
    List.cons_append, List.map_cons]
  exact mem_take_filter [] _ (isFree_iff.mpr hfree) hwanted

/-- A bootstrap peer is dialed if it is the first that is drawn behind all
current records. -/
theorem exists_mem_dialed_of_mem_spare (htidy : book.Tidy) {seed : PeerRecord}
    (hmem : seed ∈ book.spare clock streams)
    (hasked : (book.current clock streams).length <
      (asked limits line now).toNat)
    (hfree : seed.socket ∉ connected line)
    (hfew : (firstDraw line book clock streams).length <
      wanted limits line now) :
    ∃ shuffle : Shuffle, seed.socket ∈ dialed limits line now fun asked =>
      book.known shuffle clock asked streams := by
  obtain ⟨shuffle, hknown⟩ := AddressBook.exists_known_eq
    (List.Perm.refl (book.current clock streams))
      (List.perm_cons_erase hmem).symm
  refine ⟨shuffle, ?_⟩
  have hwanted := Nat.zero_lt_of_lt hfew
  obtain ⟨more, hmore⟩ : ∃ more, (asked limits line now).toNat -
      (book.current clock streams).length = more + 1 :=
    Nat.exists_eq_add_of_le' (Nat.sub_pos_of_lt hasked)
  rw [dialed_known htidy hwanted, hknown,
    List.take_of_length_le (Nat.le_of_lt hasked), hmore,
    List.take_succ_cons, List.map_append, List.map_cons]
  exact mem_take_filter _ _ (isFree_iff.mpr hfree) hfew

theorem exists_mem_dialed_iff (htidy : book.Tidy) :
    (∃ shuffle : Shuffle, address ∈ dialed limits line now fun asked =>
        book.known shuffle clock asked streams) ↔
      0 < wanted limits line now ∧ address ∉ connected line ∧
        MayDraw limits line now book clock streams address := by
  constructor
  · rintro ⟨shuffle, hdialed⟩
    exact ⟨wanted_pos_of_mem_dialed hdialed, (mem_dialed hdialed).2,
      mayDraw_of_mem_dialed htidy hdialed⟩
  · rintro ⟨hwanted, hfree, hmay⟩
    cases hmay with
    | current hmem hsocket hasked =>
        subst hsocket
        exact exists_mem_dialed_of_mem_current htidy hmem hasked hwanted hfree
    | spare hmem hsocket hasked hfew =>
        subst hsocket
        exact exists_mem_dialed_of_mem_spare htidy hmem hasked hfree hfew

/-- Only a peer at a mapped or scoped address is dialed again, at the plain form
of that address; and some draw from a book has it dialed just when anybody is
wanted, no live peer stands for the plain form itself, and the book can come to
it. -/
theorem plan_redials_iff (limits : PoolLimits) (peers : List PeerInfo)
    (streams : List UInt64) (now : Nat) :
    (∀ known, ∀ address ∈ (plan limits peers known now).connect, ∀ peer ∈ peers,
      peer.isLive = true → address.sameEndpoint peer.address = true →
        address = peer.address.plain ∧ ∃ octets port scope,
          peer.address = .v6 octets port scope ∧
          ((unmapped? octets).isSome = true ∨ scope ≠ 0)) ∧
    ∀ calls clock,
      let book := AddressBook.run {} calls
      (∃ shuffle, ∃ address ∈ (plan limits peers
          (fun asked => book.known shuffle clock asked streams) now).connect,
        ∃ peer ∈ peers, peer.isLive = true ∧
          address.sameEndpoint peer.address = true) ↔
      0 < wanted limits (live peers) now ∧ ∃ peer ∈ peers, peer.isLive = true ∧
        peer.address.plain ∉ connected (live peers) ∧
        MayDraw limits (live peers) now book clock streams
          peer.address.plain := by
  simp only [connect_plan]
  refine ⟨?_, ?_⟩
  · intro known address hdialed peer hpeer hlive hsame
    have hplain := plain_eq_of_redialed hdialed hsame
    refine ⟨hplain, SocketAddress.plain_ne_self_iff.mp fun hself => ?_⟩
    have htaken : address ∈ connected (live peers) :=
      mem_connected_iff.mpr ⟨peer, hpeer, hlive, hself.symm.trans hplain.symm⟩
    exact (mem_dialed hdialed).2 htaken
  · intro calls clock
    have htidy := AddressBook.tidy_empty.run calls
    constructor
    · rintro ⟨shuffle, address, hdialed, peer, hpeer, hlive, hsame⟩
      have hplain := plain_eq_of_redialed hdialed hsame
      obtain ⟨hwanted, hfree, hmay⟩ :=
        (exists_mem_dialed_iff htidy).mp ⟨shuffle, hdialed⟩
      exact ⟨hwanted, peer, hpeer, hlive, hplain ▸ hfree, hplain ▸ hmay⟩
    · rintro ⟨hwanted, peer, hpeer, hlive, hfree, hmay⟩
      obtain ⟨shuffle, hdialed⟩ :=
        (exists_mem_dialed_iff htidy).mpr ⟨hwanted, hfree, hmay⟩
      refine ⟨shuffle, _, hdialed, peer, hpeer, hlive, ?_⟩
      rw [SocketAddress.sameEndpoint_iff, plain_of_mem_dialed hdialed]

def host : SocketAddress :=
  .v4 ⟨[10, 0, 0, 3], rfl⟩ 8444

def mappedGuest : PeerInfo :=
  { activePeer 0 9990000 .client with
    address := .v6 (mapped ⟨[10, 0, 0, 3], rfl⟩) 8444 0 }

/-- It is dialed at the IPv4 address, which is a bootstrap peer. -/
theorem mappedGuest_redialed :
    let book := AddressBook.run {} [.addBootstrap 1 [host]]
    let plan :=
      plan {} [mappedGuest] (fun asked => book.known .none 0 asked [1]) 10000000
    mappedGuest.isLive = true ∧ plan.connect = [host] ∧
      host.sameEndpoint mappedGuest.address = true := by
  intro book plan
  have hlive : live [mappedGuest] = [mappedGuest] := List.mergeSort_singleton _
  have hwanted : wanted {} [mappedGuest] 10000000 = 7 := by decide
  have hfree : isFree [mappedGuest] host = true := by
    rw [isFree_iff, connected, mem_distinct]
    decide
  have hcurrent : book.current 0 [1] = [] := by
    simp [book, AddressBook.current, AddressBook.run, AddressBook.perform,
      AddressBook.addBootstrap]
  have hspare : book.spare 0 [1] =
      [.ofSocket host 1 PeerRecord.relaysObjects 0] := by
    rw [AddressBook.spare, hcurrent]
    decide
  have hknown (limit : Nat) (h : 0 < limit) :
      book.known .none 0 limit [1] =
        [.ofSocket host 1 PeerRecord.relaysObjects 0] := by
    rw [AddressBook.known_eq, hcurrent, hspare, List.length_nil, Nat.sub_zero]
    show [].take limit ++
      [PeerRecord.ofSocket host 1 PeerRecord.relaysObjects 0].take limit = _
    rw [List.take_nil, List.nil_append, List.take_of_length_le h]
  have htidy : book.Tidy := AddressBook.tidy_empty.run _
  have hsome : 0 < wanted {} [mappedGuest] 10000000 := hwanted ▸ by decide
  refine ⟨rfl, ?_, by decide⟩
  have hasked : 0 < (asked {} [mappedGuest] 10000000).toNat := by
    rw [toNat_asked, hwanted, connected, List.map_singleton,
      distinct_of_nodup (List.nodup_singleton _)]
    decide
  rw [connect_plan, hlive, dialed_known htidy hsome, hknown _ hasked, hwanted]
  show ([host].filter (isFree [mappedGuest])).take 7 = [host]
  rw [List.filter_cons_of_pos hfree]
  rfl

end Pool

end ObjectRelay
