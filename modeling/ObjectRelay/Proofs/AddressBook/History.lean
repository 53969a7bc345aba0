import Mathlib.Data.List.Nodup
import ObjectRelay.Proofs.AddressBook.Latest
import ObjectRelay.Proofs.AddressBook.Room
import ObjectRelay.Proofs.Bytes.BigEndian

namespace ObjectRelay

/-! What holds of a book after any calls: it is bounded, its records stand under
their own sockets and came in time, and where a newcomer finds it full others go
for a reason. -/

namespace AddressBook

inductive Call where
  | offer (shuffle : Shuffle) (now : Int64) (records : List PeerRecord)
  | cleanup (now : Int64)
  | addBootstrap (stream : UInt32) (peers : List SocketAddress)

def Call.clock? : Call → Option Int64
  | offer _ now _ | cleanup now => some now
  | addBootstrap _ _ => none

/-- The clock is past the time that records are kept. -/
def Call.Late (call : Call) : Prop :=
  ∀ now ∈ call.clock?, freshness ≤ now.toInt

def perform (book : AddressBook) : Call → AddressBook
  | .offer shuffle now records => book.offer shuffle now records
  | .cleanup now => book.cleanup now
  | .addBootstrap stream peers => book.addBootstrap stream peers

def run (book : AddressBook) (calls : List Call) : AddressBook :=
  calls.foldl perform book

variable {book after : AddressBook} {shuffle : Shuffle} {now : Int64}
  {record found : PeerRecord} {records : List PeerRecord}
  {socket : SocketAddress} {call : Call} {calls : List Call}

@[simp] theorem run_nil (book : AddressBook) : book.run [] = book := rfl

@[simp] theorem run_cons (book : AddressBook) (call : Call)
    (calls : List Call) :
    book.run (call :: calls) = (book.perform call).run calls := rfl

/-- What every call keeps. -/
structure Sound (book : AddressBook) : Prop where
  size_le : book.learnt.size ≤ mostLearnt
  keyed : book.Keyed
  dated : book.Dated
  distinct : book.bootstrap.Pairwise fun left right =>
    left.sameEndpoint right = false

theorem sound_empty : ({} : AddressBook).Sound := by
  refine ⟨Nat.zero_le _, fun socket record hheld => ?_,
    fun socket record hheld => ?_, .nil⟩
  · simp at hheld
  · simp at hheld

/-- A record that was not held before is one that the clock let in. -/
theorem Dated.offer (h : book.Dated) (hclock : freshness ≤ now.toInt)
    (shuffle : Shuffle) (records : List PeerRecord) :
    (book.offer shuffle now records).Dated := by
  intro socket record hheld
  cases candidate_of_offer hheld with
  | inl hold => exact h socket record hold
  | inr hoffered => exact ((inRange_iff hclock).mp hoffered.2.2).1

theorem size_insert_of_held {held : PeerRecord}
    (hheld : book.learnt[record.socket]? = some held) :
    (book.insert record).learnt.size = book.learnt.size := by
  have hmem : record.socket ∈ book.learnt := by
    rw [Std.HashMap.mem_iff_isSome_getElem?, hheld]
    rfl
  rw [AddressBook.insert, Std.HashMap.size_insert, if_pos hmem]

theorem size_insert_le (book : AddressBook) (record : PeerRecord) :
    (book.insert record).learnt.size ≤ book.learnt.size + 1 := by
  rw [AddressBook.insert]
  exact Std.HashMap.size_insert_le

theorem MakesWay.length_pos {victims : List SocketAddress}
    (h : MakesWay now book victims) :
    0 < victims.length := by
  cases h with
  | stale hsome hall => exact List.length_pos_iff.mpr hsome
  | oldest hnone hcount hnewer =>
      rw [hcount]
      decide

theorem exists_drops_of_full (hdated : book.Dated)
    (hfull : mostLearnt ≤ book.learnt.size) (shuffle : Shuffle) (now : Int64) :
    ∃ victims, book.Drops victims (book.makeRoom shuffle now) ∧
      MakesWay now book victims :=
  exists_drops_makeRoom hdated (Nat.le_trans (by decide) hfull) shuffle now

theorem Sound.size_learning_le (h : book.Sound)
    (hlearning : Learning shuffle now book record after) :
    after.learnt.size ≤ mostLearnt := by
  cases hlearning with
  | declined hrange => exact h.size_le
  | kept hrange hheld htime => exact h.size_le
  | renewed hrange hheld htime => exact size_insert_of_held hheld ▸ h.size_le
  | added hrange hnew hroom =>
      exact Nat.le_trans (size_insert_le book record) hroom
  | crowded hrange hnew hfull =>
      obtain ⟨victims, hdrops, hway⟩ :=
        exists_drops_of_full h.dated hfull shuffle now
      have hsize := hdrops.size_eq
      have hsome := hway.length_pos
      have hinsert := size_insert_le (book.makeRoom shuffle now) record
      have hmost := h.size_le
      omega

theorem Sound.learn (h : book.Sound) (hclock : freshness ≤ now.toInt)
    (shuffle : Shuffle) (record : PeerRecord) :
    (book.learn shuffle now record).Sound := by
  refine ⟨?_, h.keyed.learn shuffle now record,
    h.dated.offer hclock shuffle [record], ?_⟩
  · exact h.size_learning_le (learning_learn shuffle now book record)
  · rw [bootstrap_learn]
    exact h.distinct

theorem Sound.offer (h : book.Sound) (hclock : freshness ≤ now.toInt)
    (shuffle : Shuffle) (records : List PeerRecord) :
    (book.offer shuffle now records).Sound := by
  unfold AddressBook.offer
  induction records generalizing book with
  | nil => exact h
  | cons record rest ih => exact ih (h.learn hclock shuffle record)

theorem Sound.cleanup (h : book.Sound) (now : Int64) :
    (book.cleanup now).Sound := by
  have hwithin := within_cleanup book now
  refine ⟨?_, h.keyed.within hwithin, h.dated.within hwithin, h.distinct⟩
  exact Nat.le_trans Std.HashMap.size_filter_le_size h.size_le

theorem Sound.addBootstrap (h : book.Sound) (stream : UInt32)
    (peers : List SocketAddress) :
    (book.addBootstrap stream peers).Sound :=
  ⟨h.size_le, h.keyed, h.dated, pairwise_addBootstrap h.distinct stream peers⟩

theorem Sound.perform (h : book.Sound) (hlate : call.Late) :
    (book.perform call).Sound := by
  cases call with
  | offer shuffle now records => exact h.offer (hlate now rfl) shuffle records
  | cleanup now => exact h.cleanup now
  | addBootstrap stream peers => exact h.addBootstrap stream peers

theorem Sound.run (h : book.Sound) (hlate : ∀ call ∈ calls, call.Late) :
    (book.run calls).Sound := by
  induction calls generalizing book with
  | nil => exact h
  | cons call rest ih =>
      exact ih (h.perform (hlate call List.mem_cons_self))
        fun later hmem => hlate later (List.mem_cons_of_mem call hmem)

/-- One of the calls offered the record, at a clock that it suited. -/
def TakenIn (calls : List Call) (record : PeerRecord) : Prop :=
  ∃ shuffle now records, Call.offer shuffle now records ∈ calls ∧
    record ∈ records ∧
    Timely now record

theorem held_or_offered (hclock : freshness ≤ now.toInt)
    (h : (book.offer shuffle now records).learnt[socket]? = some record) :
    book.learnt[socket]? = some record ∨
    (record ∈ records ∧ Timely now record) := by
  refine (candidate_of_offer h).imp_right fun hoffered => ?_
  exact ⟨hoffered.1, ((inRange_iff hclock).mp hoffered.2.2).2⟩

theorem held_or_takenIn (hlate : ∀ call ∈ calls, call.Late)
    (h : (book.run calls).learnt[socket]? = some record) :
    book.learnt[socket]? = some record ∨ TakenIn calls record := by
  induction calls generalizing book with
  | nil => exact .inl h
  | cons call rest ih =>
      have hlater : ∀ later ∈ rest, later.Late :=
        fun later hmem => hlate later (List.mem_cons_of_mem call hmem)
      rcases ih hlater h with hheld | ⟨shuffle, now, records, hmem, htaken⟩
      · cases call with
        | offer shuffle now records =>
            refine (held_or_offered (hlate _ List.mem_cons_self now rfl)
              hheld).imp_right ?_
            exact fun htaken =>
              ⟨shuffle, now, records, List.mem_cons_self, htaken⟩
        | cleanup now =>
            exact .inl ((within_cleanup book now).learnt socket record hheld)
        | addBootstrap stream peers => exact .inl hheld
      · exact .inr ⟨shuffle, now, records,
          List.mem_cons_of_mem call hmem, htaken⟩

/-- The last record in range is known, or a later one of its endpoint. -/
theorem exists_held_of_last {before later : List PeerRecord}
    (hrange : inRange now record = true) (hlast : ∀ other ∈ later,
      inRange now other = false) (book : AddressBook) (shuffle : Shuffle) :
    ∃ held, (book.offer shuffle now
      (before ++ record :: later)).learnt[record.socket]? =
      some held ∧ record.time ≤ held.time := by
  have hsettled :=
    settled_learn (book.offer shuffle now before) shuffle now record
  have hsplit : book.offer shuffle now (before ++ record :: later) =
      ((book.offer shuffle now before).learn shuffle now record).offer shuffle
        now later :=
    List.foldl_append
  have hrest : ∀ other ∈ later,
      ((book.offer shuffle now before).learn shuffle now record).Settled now
        other := by
    intro other hmem hin
    rw [hlast other hmem] at hin
    cases hin
  obtain ⟨held, hheld, htime⟩ := hsettled hrange
  rw [hsplit, offer_of_settled hrest]
  exact ⟨held, hheld, UInt64.not_lt.mp htime⟩

/-- Whatever was called before, the book is bounded and holds what came in time;
of one more batch the last record in range is known, and whoever makes way for a
newcomer is stale or old. -/
theorem history_keeps_bounds (hlate : ∀ call ∈ calls, call.Late) :
    let book := run {} calls
    book.learnt.size ≤ mostLearnt ∧
      (∀ (socket : SocketAddress) (record : PeerRecord),
        book.learnt[socket]? = some record →
        record.socket = socket ∧ TakenIn calls record) ∧
      (book.bootstrap.Pairwise fun left right => left.sameEndpoint right =
        false) ∧
      ∀ (shuffle : Shuffle) (now : Int64) (before : List PeerRecord)
        (record : PeerRecord) (later : List PeerRecord), freshness ≤ now.toInt →
        let midway := book.offer shuffle now before
        let after := book.offer shuffle now (before ++ record :: later)
        midway.learnt.size ≤ mostLearnt ∧
          (inRange now record = true ↔ record.time.toNat < 2 ^ 63 ∧
            Timely now record) ∧
          (∀ (socket : SocketAddress) (found : PeerRecord),
            after.learnt[socket]? = some found →
            book.learnt[socket]? = some found ∨
              (found ∈ before ++ record :: later ∧ Timely now found)) ∧
          (inRange now record = true →
            (∀ other ∈ later, inRange now other = false) →
            ∃ held, after.learnt[record.socket]? = some held ∧
              record.time ≤ held.time) ∧
          (inRange now record = true → midway.learnt[record.socket]? = none →
            midway.learnt.size = mostLearnt →
              ∃ victims room, midway.Drops victims room ∧
                MakesWay now midway victims ∧
                midway.learn shuffle now record = room.insert record) := by
  intro book
  have hsound : book.Sound := sound_empty.run hlate
  refine ⟨hsound.size_le,
    fun socket record hheld => ⟨hsound.keyed socket record hheld, ?_⟩,
    hsound.distinct, ?_⟩
  · have htaken := held_or_takenIn hlate hheld
    refine htaken.resolve_left fun hempty => ?_
    simp at hempty
  · intro shuffle now before record later hclock midway after
    have hmidway : midway.Sound := hsound.offer hclock shuffle before
    refine ⟨hmidway.size_le, inRange_iff hclock, ?_, ?_, ?_⟩
    · intro socket found hheld
      exact held_or_offered hclock hheld
    · intro hrange hlast
      exact exists_held_of_last hrange hlast book shuffle
    · intro hrange hnew hfull
      obtain ⟨victims, hdrops, hway⟩ :=
        exists_drops_of_full hmidway.dated (Nat.le_of_eq hfull.symm) shuffle now
      refine ⟨victims, _, hdrops, hway, ?_⟩
      unfold AddressBook.learn
      rw [if_pos hrange, hnew]
      exact if_pos (Nat.le_of_eq hfull.symm)

def crowdMember (index : Nat) : PeerRecord :=
  ⟨1700000000, 1, 1, mapped (Octets.ofNat 4 index), 8444⟩

def crowd (count : Nat) : List PeerRecord :=
  (List.range count).map crowdMember

theorem mem_crowd_iff {count : Nat} :
    record ∈ crowd count ↔ ∃ index < count, crowdMember index = record := by
  simp [crowd]

theorem crowdMember_injOn {left right : Nat} (hleft : left ≤ mostLearnt)
    (hright : right ≤ mostLearnt)
    (h : (crowdMember left).socket = (crowdMember right).socket) :
    left = right := by
  have hbound : mostLearnt < 256 ^ 4 := by decide
  simp only [crowdMember, PeerRecord.socket, unmapped?_mapped,
    SocketAddress.v4.injEq] at h
  exact Octets.ofNat_injOn (Nat.lt_of_le_of_lt hleft hbound)
    (Nat.lt_of_le_of_lt hright hbound) h.1

theorem inRange_crowdMember (index : Nat) :
    inRange 1700000000 (crowdMember index) = true := by
  have hfirst : inRange 1700000000 (crowdMember 0) = true := by decide
  rw [← hfirst]
  exact inRange_eq_of_time_eq rfl

theorem not_stale_crowdMember (index : Nat) :
    ¬ Stale 1700000000 (crowdMember index) := by
  have hrange := (inRange_iff (by decide)).mp (inRange_crowdMember index)
  exact Int.not_lt.mpr hrange.2.1

theorem card_endpoints_crowd {count : Nat} (h : count ≤ mostLearnt) :
    (endpoints 1700000000 {} (crowd count)).toFinset.card = count := by
  have hall : (crowd count).filter (inRange 1700000000) = crowd count := by
    refine List.filter_eq_self.mpr fun record hmem => ?_
    obtain ⟨index, -, rfl⟩ := mem_crowd_iff.mp hmem
    exact inRange_crowdMember index
  have hnodup : ((crowd count).map PeerRecord.socket).Nodup := by
    rw [crowd, List.map_map]
    refine List.Nodup.map_on (fun left hleft right hright hsame => ?_)
      List.nodup_range
    have hless := List.mem_range.mp hleft
    have hother := List.mem_range.mp hright
    exact crowdMember_injOn (by omega) (by omega) hsame
  have hendpoints : endpoints 1700000000 {} (crowd count) =
      (crowd count).map PeerRecord.socket := by
    simp [endpoints, hall]
  rw [hendpoints, List.toFinset_card_of_nodup hnodup, List.length_map, crowd,
    List.length_map, List.length_range]

theorem size_offer_crowd {count : Nat} (h : count ≤ mostLearnt)
    (shuffle : Shuffle) :
    (offer {} shuffle 1700000000 (crowd count)).learnt.size = count := by
  have hroom : Roomy 1700000000 {} (crowd count) :=
    (card_endpoints_crowd h).trans_le h
  rw [hroom.size_offer shuffle, card_endpoints_crowd h]

theorem exists_crowdMember_of_held {count : Nat}
    (h : (offer {} shuffle 1700000000 (crowd count)).learnt[socket]? =
      some record) :
    ∃ index < count, crowdMember index = record ∧ record.socket = socket := by
  cases candidate_of_offer h with
  | inl hempty => simp at hempty
  | inr hoffered =>
      obtain ⟨index, hindex, hmember⟩ := mem_crowd_iff.mp hoffered.1
      exact ⟨index, hindex, hmember, hoffered.2.1⟩

theorem getElem?_newcomer {count : Nat} (h : count ≤ mostLearnt)
    (shuffle : Shuffle) :
    (offer {} shuffle 1700000000
      (crowd count)).learnt[(crowdMember count).socket]? = none := by
  refine Option.eq_none_iff_forall_ne_some.mpr fun record hheld => ?_
  obtain ⟨index, hindex, rfl, hsocket⟩ := exists_crowdMember_of_held hheld
  exact Nat.ne_of_lt hindex (crowdMember_injOn (by omega) h hsocket)

/-- A newcomer to a crowd that is not stale makes a batch of it go. -/
theorem history_keeps_bounds_of_crowd :
    (∀ call ∈ [Call.offer .none 1700000000 (crowd mostLearnt)], call.Late) ∧
      let book := run {} [.offer .none 1700000000 (crowd mostLearnt)]
      book.learnt.size = mostLearnt ∧
        ∃ victims room, book.Drops victims room ∧
          victims.length = evictionBatch ∧
          book.learn .none 1700000000 (crowdMember mostLearnt) =
            room.insert (crowdMember mostLearnt) := by
  -- The bound is a name here: nothing may run a crowd of that many.
  obtain ⟨count, hcount⟩ : ∃ count, count = mostLearnt := ⟨mostLearnt, rfl⟩
  rw [← hcount]
  have hlate : ∀ call ∈ [Call.offer .none 1700000000 (crowd count)],
      call.Late := by
    intro call hmem now hnow
    rw [List.mem_singleton.mp hmem] at hnow
    rw [← Option.some_inj.mp hnow]
    decide
  have hfull := size_offer_crowd (Nat.le_of_eq hcount) .none
  have hnew := getElem?_newcomer (Nat.le_of_eq hcount) .none
  obtain ⟨-, -, -, hbatch⟩ := history_keeps_bounds hlate
  obtain ⟨-, -, -, -, hroom⟩ :=
    hbatch .none 1700000000 [] (crowdMember count) [] (by decide)
  obtain ⟨victims, room, hdrops, hway, hlearn⟩ :=
    hroom (inRange_crowdMember count) hnew (hfull.trans hcount)
  refine ⟨hlate, hfull, victims, room, hdrops, ?_, hlearn⟩
  cases hway with
  | oldest _ hcount _ => exact hcount
  | stale hsome hall =>
      obtain ⟨socket, hgone⟩ := List.exists_mem_of_ne_nil victims hsome
      obtain ⟨record, hheld⟩ := hdrops.held socket hgone
      obtain ⟨index, -, rfl, -⟩ := exists_crowdMember_of_held hheld
      exact absurd ((hall _ _ hheld).mp hgone) (not_stale_crowdMember index)

end AddressBook

end ObjectRelay
