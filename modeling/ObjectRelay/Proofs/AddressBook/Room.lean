import Mathlib.Algebra.GroupWithZero.Nat
import Mathlib.Algebra.Ring.Int.Defs
import Mathlib.Data.List.Nodup
import Mathlib.Tactic.SplitIfs
import ObjectRelay.Proofs.AddressBook.Basic

namespace ObjectRelay

namespace PeerRecord

theorem seenAt_eq (record : PeerRecord) :
    record.seenAt =
      if record.time.toNat < 2 ^ 63 then (record.time.toNat : Int)
      else (record.time.toNat : Int) - 2 ^ 64 := by
  have hsigned := BitVec.toInt_eq_toNat_cond record.time.toBitVec
  have hseen : record.seenAt = record.time.toBitVec.toInt := rfl
  have hnat : record.time.toBitVec.toNat = record.time.toNat := rfl
  rw [hseen, hsigned, hnat]
  split_ifs <;> omega

end PeerRecord

namespace AddressBook

variable {book after : AddressBook} {shuffle : Shuffle} {now : Int64}
  {record : PeerRecord} {victims : List SocketAddress}

/-- The record was last seen longer ago than records are kept. -/
def Stale (now : Int64) (record : PeerRecord) : Prop :=
  (record.time.toNat : Int) < now.toInt - freshness

/-- The record was seen not too long ago, and not too far in the future. -/
def Timely (now : Int64) (record : PeerRecord) : Prop :=
  now.toInt - freshness ≤ record.time.toNat ∧
    (record.time.toNat : Int) ≤ now.toInt + clockSkew

/-- The times of all learnt records are also times of a clock. -/
def Dated (book : AddressBook) : Prop :=
  ∀ (socket : SocketAddress) (record : PeerRecord),
    book.learnt[socket]? = some record → record.time.toNat < 2 ^ 63

theorem Dated.within (h : book.Dated) (hwithin : after.Within book) :
    after.Dated :=
  fun socket record hheld =>
    h socket record (hwithin.learnt socket record hheld)

theorem isFresh_eq_false_iff (h : record.time.toNat < 2 ^ 63) :
    isFresh now record = false ↔ Stale now record := by
  rw [isFresh, PeerRecord.seenAt_eq, if_pos h, decide_eq_false_iff_not,
    Int.not_le, Stale]

/-- Where the clock is past the time that records are kept, no late time comes
out in range. -/
theorem inRange_iff (hclock : freshness ≤ now.toInt) :
    inRange now record = true ↔ record.time.toNat < 2 ^ 63 ∧
    Timely now record := by
  have htime := record.time.toNat_lt
  rw [inRange, isFresh, PeerRecord.seenAt_eq, Bool.and_eq_true,
    decide_eq_true_eq, decide_eq_true_eq, Timely]
  split_ifs with hearly
  · exact (and_iff_right hearly).symm
  · constructor
    · intro h
      omega
    · exact fun h => absurd h.1 hearly

/-- The victims are gone, and all else is as it was. -/
structure Drops (book : AddressBook) (victims : List SocketAddress)
    (after : AddressBook) : Prop where
  bootstrap : after.bootstrap = book.bootstrap
  nodup : victims.Nodup
  held : ∀ socket ∈ victims, ∃ record, book.learnt[socket]? = some record
  learnt : ∀ (socket : SocketAddress) (record : PeerRecord),
    after.learnt[socket]? = some record ↔
      socket ∉ victims ∧ book.learnt[socket]? = some record

theorem Drops.size_eq (h : book.Drops victims after) :
    book.learnt.size = victims.length + after.learnt.size := by
  have hnodup : (victims ++ after.learnt.keys).Nodup := by
    refine List.nodup_append.mpr ⟨h.nodup, Std.HashMap.nodup_keys, ?_⟩
    intro gone hgone left hleft hsame
    obtain ⟨record, hrecord⟩ := mem_keys_iff.mp hleft
    exact ((h.learnt left record).mp hrecord).1 (hsame ▸ hgone)
  have hmem : ∀ socket,
      socket ∈ book.learnt.keys ↔ socket ∈ victims ++ after.learnt.keys := by
    intro socket
    simp only [List.mem_append, mem_keys_iff, h.learnt]
    constructor
    · intro hheld
      obtain ⟨record, hrecord⟩ := hheld
      by_cases hgone : socket ∈ victims
      · exact .inl hgone
      · exact .inr ⟨record, hgone, hrecord⟩
    · intro hsplit
      rcases hsplit with hgone | ⟨record, -, hrecord⟩
      · exact h.held socket hgone
      · exact ⟨record, hrecord⟩
  have hperm :=
    (List.perm_ext_iff_of_nodup Std.HashMap.nodup_keys hnodup).mpr hmem
  rw [← Std.HashMap.length_keys, hperm.length_eq, List.length_append,
    Std.HashMap.length_keys]

/-- The sockets of the entries that a sweep removes. -/
def swept (book : AddressBook) (now : Int64) : List SocketAddress :=
  book.learnt.keys.filter fun socket =>
    !(book.learnt[socket]?.all (isFresh now))

theorem mem_swept_iff {socket : SocketAddress} :
    socket ∈ book.swept now ↔
      ∃ record, book.learnt[socket]? = some record ∧
        isFresh now record = false := by
  rw [swept, List.mem_filter, mem_keys_iff]
  cases hheld : book.learnt[socket]? with
  | none => simp
  | some record => simp

theorem drops_cleanup (book : AddressBook) (now : Int64) :
    book.Drops (book.swept now) (book.cleanup now) := by
  refine ⟨rfl, Std.HashMap.nodup_keys.filter _, ?_, ?_⟩
  · intro socket hgone
    obtain ⟨record, hrecord, -⟩ := mem_swept_iff.mp hgone
    exact ⟨record, hrecord⟩
  · intro socket record
    rw [cleanup, Std.HashMap.getElem?_filter', Option.filter_eq_some_iff,
      mem_swept_iff]
    constructor
    · intro hleft
      obtain ⟨hheld, hfresh⟩ := hleft
      refine ⟨fun hgone => ?_, hheld⟩
      obtain ⟨other, hother, hstale⟩ := hgone
      rw [hheld, Option.some_inj] at hother
      rw [← hother, hfresh] at hstale
      cases hstale
    · intro hleft
      obtain ⟨hkept, hheld⟩ := hleft
      refine ⟨hheld, ?_⟩
      rw [← Bool.not_eq_false]
      exact fun hstale => hkept ⟨record, hheld, hstale⟩

/-- The entries by age, the oldest first. -/
def byAge (book : AddressBook) (shuffle : Shuffle) :
    List (SocketAddress × PeerRecord) :=
  (shuffle.order book.learnt.toList).mergeSort fun left right => left.2.time ≤
    right.2.time

theorem perm_byAge (book : AddressBook) (shuffle : Shuffle) :
    (book.byAge shuffle).Perm book.learnt.toList :=
  (List.mergeSort_perm _ _).trans (shuffle.perm _)

theorem mem_byAge_iff {socket : SocketAddress} :
    (socket, record) ∈ book.byAge shuffle ↔
    book.learnt[socket]? = some record := by
  rw [(perm_byAge book shuffle).mem_iff,
    Std.HashMap.mem_toList_iff_getElem?_eq_some]

theorem pairwise_byAge (book : AddressBook) (shuffle : Shuffle) :
    (book.byAge shuffle).Pairwise fun left right => left.2.time ≤
      right.2.time := by
  unfold byAge
  refine (List.pairwise_mergeSort ?_ ?_ _).imp of_decide_eq_true
  · intro first second third
    simpa using UInt64.le_trans
  · intro left right
    simpa using UInt64.le_total left.2.time right.2.time

/-- The sockets of the oldest entries. -/
def oldest (book : AddressBook) (shuffle : Shuffle) : List SocketAddress :=
  ((book.byAge shuffle).take evictionBatch).map Prod.fst

theorem mem_oldest_iff {socket : SocketAddress}
    (hheld : book.learnt[socket]? = some record) :
    socket ∈ book.oldest shuffle ↔
    (socket, record) ∈ (book.byAge shuffle).take evictionBatch := by
  rw [oldest, List.mem_map]
  constructor
  · intro hgone
    obtain ⟨⟨_, other⟩, hmem, rfl⟩ := hgone
    have hother := mem_byAge_iff.mp (List.mem_of_mem_take hmem)
    rw [hheld, Option.some_inj] at hother
    rwa [hother]
  · exact fun hmem => ⟨_, hmem, rfl⟩

theorem drops_evictOldest (book : AddressBook) (shuffle : Shuffle) :
    book.Drops (book.oldest shuffle) (book.evictOldest shuffle) := by
  refine ⟨rfl, ?_, ?_, ?_⟩
  · have hkeys : (book.learnt.toList.map Prod.fst).Nodup := by
      rw [Std.HashMap.map_fst_toList_eq_keys]
      exact Std.HashMap.nodup_keys
    have hall : ((book.byAge shuffle).map Prod.fst).Nodup :=
      ((perm_byAge book shuffle).map Prod.fst).nodup_iff.mpr hkeys
    exact ((List.take_sublist _ _).map Prod.fst).nodup hall
  · intro socket hgone
    obtain ⟨⟨_, record⟩, hmem, rfl⟩ := List.mem_map.mp hgone
    exact ⟨record, mem_byAge_iff.mp (List.mem_of_mem_take hmem)⟩
  · intro socket record
    exact getElem?_foldl_erase_eq_some_iff _ _

theorem length_oldest (h : evictionBatch ≤ book.learnt.size) :
    (book.oldest shuffle).length = evictionBatch := by
  rw [oldest, List.length_map, List.length_take,
    (perm_byAge book shuffle).length_eq, Std.HashMap.length_toList,
    Nat.min_eq_left h]

theorem time_le_of_mem_oldest {gone left : SocketAddress}
    {lost kept : PeerRecord} (hlost : book.learnt[gone]? = some lost)
    (hgone : gone ∈ book.oldest shuffle) (hkept : book.learnt[left]? =
      some kept) (hleft : left ∉ book.oldest shuffle) :
    lost.time ≤ kept.time := by
  have hsorted := pairwise_byAge book shuffle
  rw [← List.take_append_drop evictionBatch (book.byAge shuffle),
    List.pairwise_append] at hsorted
  have hearly := (mem_oldest_iff hlost).mp hgone
  have hlate : (left, kept) ∈ (book.byAge shuffle).drop evictionBatch := by
    have hmem : (left, kept) ∈ book.byAge shuffle := mem_byAge_iff.mpr hkept
    rw [← List.take_append_drop evictionBatch (book.byAge shuffle),
      List.mem_append] at hmem
    exact hmem.resolve_left fun htaken =>
      hleft ((mem_oldest_iff hkept).mpr htaken)
  exact hsorted.2.2 _ hearly _ hlate

/-- Why those had to go: they are all that is stale, or nothing is and they are
a batch of the oldest. -/
inductive MakesWay (now : Int64) (book : AddressBook)
    (victims : List SocketAddress) : Prop where
  | stale (hsome : victims ≠ [])
      (hall : ∀ (socket : SocketAddress) (record : PeerRecord),
        book.learnt[socket]? = some record →
        (socket ∈ victims ↔ Stale now record))
  | oldest
      (hnone : ∀ (socket : SocketAddress) (record : PeerRecord),
        book.learnt[socket]? = some record → ¬ Stale now record)
      (hcount : victims.length = evictionBatch)
      (hnewer : ∀ (gone left : SocketAddress) (lost kept : PeerRecord),
        book.learnt[gone]? = some lost → gone ∈ victims →
          book.learnt[left]? = some kept → left ∉ victims →
          lost.time ≤ kept.time)

theorem exists_drops_makeRoom (hdated : book.Dated)
    (hsize : evictionBatch ≤ book.learnt.size) (shuffle : Shuffle)
    (now : Int64) :
    ∃ victims, book.Drops victims (book.makeRoom shuffle now) ∧
      MakesWay now book victims := by
  have hsweep := drops_cleanup book now
  have hswept : ∀ (socket : SocketAddress) (record : PeerRecord),
      book.learnt[socket]? = some record →
      (socket ∈ book.swept now ↔ Stale now record) := by
    intro socket record hheld
    rw [mem_swept_iff, ← isFresh_eq_false_iff (hdated socket record hheld)]
    constructor
    · intro hgone
      obtain ⟨other, hother, hstale⟩ := hgone
      rw [hheld, Option.some_inj] at hother
      rwa [hother]
    · exact fun hstale => ⟨record, hheld, hstale⟩
  have hless : (book.cleanup now).learnt.size < book.learnt.size ↔
      book.swept now ≠ [] := by
    rw [hsweep.size_eq, ← List.length_pos_iff]
    omega
  unfold makeRoom
  dsimp only
  split
  · rename_i hcleaned
    exact ⟨_, hsweep, .stale (hless.mp hcleaned) hswept⟩
  · rename_i hcleaned
    have hempty : book.swept now = [] :=
      Classical.not_not.mp (hcleaned ∘ hless.mpr)
    refine ⟨_, drops_evictOldest book shuffle,
      .oldest ?_ (length_oldest hsize) ?_⟩
    · intro socket record hheld hstale
      have hmem := (hswept socket record hheld).mpr hstale
      rw [hempty] at hmem
      exact absurd hmem List.not_mem_nil
    · intro gone left lost kept hlost hgone hkept hleft
      exact time_le_of_mem_oldest hlost hgone hkept hleft

end AddressBook

end ObjectRelay
