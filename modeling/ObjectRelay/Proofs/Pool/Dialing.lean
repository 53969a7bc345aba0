import Mathlib.Data.Finset.Card
import Mathlib.Data.List.Dedup
import ObjectRelay.Proofs.AddressBook.Selection
import ObjectRelay.Proofs.Pool.Closing

namespace ObjectRelay

/-! Whom a sweep dials.  It asks the address book for as many peers as it wants
and one more for each address that is connected, so that enough are left
whatever the book draws. -/

namespace Pool

variable {limits : PoolLimits} {peers line : List PeerInfo} {now : Nat}
  {known : Nat → List PeerRecord} {address : SocketAddress}

theorem mem_connected_iff :
    address ∈ connected (live peers) ↔
      ∃ peer ∈ peers, peer.isLive = true ∧ peer.address = address := by
  rw [connected, mem_distinct, List.mem_map]
  simp only [(perm_live peers).mem_iff, List.mem_filter, and_assoc]

def isFree (line : List PeerInfo) (address : SocketAddress) : Bool :=
  !(connected line).contains address

theorem isFree_iff : isFree line address = true ↔ address ∉ connected line := by
  simp [isFree]

theorem dialed_of_wanted_eq_zero (h : wanted limits line now = 0) :
    dialed limits line now known = [] := by
  rw [dialed, asked?, if_pos h]

theorem dialed_of_wanted_pos (h : 0 < wanted limits line now) :
    dialed limits line now known =
      ((distinct ((known (asked limits line now).toNat).map
        PeerRecord.socket)).filter (isFree line)).take
          (wanted limits line now) := by
  rw [dialed, asked?, if_neg (Nat.ne_of_gt h)]
  rfl

theorem toNat_asked (limits : PoolLimits) (line : List PeerInfo) (now : Nat) :
    (asked limits line now).toNat =
      (wanted limits line now + (connected line).length) % UInt64.size := by
  rw [asked, ← UInt64.ofNat_add, UInt64.toNat_ofNat']

theorem mem_dialed (h : address ∈ dialed limits line now known) :
    (∃ asked, ∃ record ∈ known asked, record.socket = address) ∧
    address ∉ connected line := by
  rcases Nat.eq_zero_or_pos (wanted limits line now) with hnone | hsome
  · rw [dialed_of_wanted_eq_zero hnone] at h
    cases h
  · rw [dialed_of_wanted_pos hsome] at h
    obtain ⟨hdrawn, haside⟩ := List.mem_filter.mp (List.mem_of_mem_take h)
    rw [mem_distinct, List.mem_map] at hdrawn
    exact ⟨⟨_, hdrawn⟩, isFree_iff.mp haside⟩

variable {book : AddressBook} {clock : Int64} {streams : List UInt64}

theorem dialed_known (htidy : book.Tidy) (h : 0 < wanted limits line now)
    (shuffle : Shuffle) (clock : Int64) (streams : List UInt64) :
    (dialed limits line now fun asked =>
      book.known shuffle clock asked streams) =
      (((book.known shuffle clock (asked limits line now).toNat streams).map
        PeerRecord.socket).filter (isFree line)).take
          (wanted limits line now) := by
  rw [dialed_of_wanted_pos h, distinct_of_nodup (htidy.nodup_known _ _ _ _)]

end Pool

end ObjectRelay
