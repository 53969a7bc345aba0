import Mathlib.Data.Finset.Card
import Mathlib.Data.List.Dedup
import ObjectRelay.Proofs.AddressBook.Offer

namespace ObjectRelay

/-! As long as there is room for all, a book comes to hold the latest record of
each endpoint, in whatever order and however often the records are offered. -/

namespace AddressBook

variable {book after : AddressBook} {shuffle : Shuffle} {now : Int64}
  {record found : PeerRecord} {records rest left right : List PeerRecord}
  {socket : SocketAddress}

theorem Candidate.append_comm
    (h : Candidate now book (left ++ right) socket found) :
    Candidate now book (right ++ left) socket found := by
  refine h.imp_right (And.imp_left fun hmem => ?_)
  rwa [List.mem_append, or_comm, ← List.mem_append]

def endpoints (now : Int64) (book : AddressBook) (records : List PeerRecord) :
    List SocketAddress :=
  book.learnt.keys ++ (records.filter (inRange now)).map PeerRecord.socket

theorem mem_endpoints_iff :
    socket ∈ endpoints now book records ↔ ∃ found,
      Candidate now book records socket found := by
  simp only [endpoints, List.mem_append, mem_keys_iff, List.mem_map,
    List.mem_filter, Candidate, exists_or]
  refine or_congr_right (exists_congr fun found => ?_)
  rw [and_assoc, and_comm (a := inRange now found = true)]

/-- The book has room for all of them. -/
def Roomy (now : Int64) (book : AddressBook)
    (records : List PeerRecord) : Prop :=
  (endpoints now book records).toFinset.card ≤ mostLearnt

theorem Roomy.of_candidate {others : List PeerRecord}
    (h : Roomy now book records)
    (hcandidate : ∀ socket found, Candidate now after others socket found →
      ∃ known, Candidate now book records socket known) :
      Roomy now after others := by
  refine Nat.le_trans (Finset.card_le_card fun socket hmem => ?_) h
  rw [List.mem_toFinset, mem_endpoints_iff] at hmem ⊢
  obtain ⟨found, hfound⟩ := hmem
  exact hcandidate socket found hfound

theorem Roomy.learn (h : Roomy now book (record :: rest)) (shuffle : Shuffle) :
    Roomy now (book.learn shuffle now record) rest :=
  h.of_candidate fun _ _ hfound =>
    ⟨_, (learning_learn shuffle now book record).candidate hfound⟩

theorem Roomy.offer (h : Roomy now book (left ++ right)) (shuffle : Shuffle) :
    Roomy now (book.offer shuffle now left) right := by
  induction left generalizing book with
  | nil => exact h
  | cons record rest ih => exact ih (h.learn shuffle)

theorem Roomy.append_comm (h : Roomy now book (left ++ right)) :
    Roomy now book (right ++ left) :=
  h.of_candidate fun _ _ hfound => ⟨_, hfound.append_comm⟩

theorem Roomy.size_lt (h : Roomy now book (record :: rest))
    (hrange : inRange now record = true) (hnew : book.learnt[record.socket]? =
      none) : book.learnt.size < mostLearnt := by
  have hnodup : (record.socket :: book.learnt.keys).Nodup := by
    refine List.nodup_cons.mpr ⟨fun hmem => ?_, Std.HashMap.nodup_keys⟩
    obtain ⟨held, hheld⟩ := mem_keys_iff.mp hmem
    rw [hnew] at hheld
    cases hheld
  have hsubset : (record.socket :: book.learnt.keys).toFinset ⊆
      (endpoints now book (record :: rest)).toFinset := by
    intro socket hmem
    rw [List.mem_toFinset] at hmem
    rw [List.mem_toFinset, mem_endpoints_iff]
    cases hmem with
    | head => exact ⟨record, .inr ⟨List.mem_cons_self, rfl, hrange⟩⟩
    | tail _ hkey =>
        obtain ⟨held, hheld⟩ := mem_keys_iff.mp hkey
        exact ⟨held, .inl hheld⟩
  have hcard := Nat.le_trans (Finset.card_le_card hsubset) h
  rwa [List.toFinset_card_of_nodup hnodup, List.length_cons,
    Std.HashMap.length_keys] at hcard

theorem Roomy.learn_eq (h : Roomy now book (record :: rest))
    (first second : Shuffle) :
    book.learn first now record = book.learn second now record := by
  unfold AddressBook.learn
  split
  · rename_i hrange
    cases hheld : book.learnt[record.socket]? with
    | some held => rfl
    | none =>
        have hroom := Nat.not_le.mpr (h.size_lt hrange hheld)
        dsimp only
        rw [if_neg hroom, if_neg hroom]
  · rfl

theorem Roomy.offer_eq (h : Roomy now book records) (first second : Shuffle) :
    book.offer first now records = book.offer second now records := by
  unfold AddressBook.offer
  induction records generalizing book with
  | nil => rfl
  | cons record rest ih =>
      rw [List.foldl_cons, List.foldl_cons, h.learn_eq first second]
      exact ih (h.learn second)

theorem Roomy.exists_candidate_learn (h : Roomy now book (record :: rest))
    (shuffle : Shuffle)
    (hfound : Candidate now book (record :: rest) socket found) :
    ∃ better, Candidate now (book.learn shuffle now record) rest socket better ∧
      found.time ≤ better.time := by
  have hlearning := learning_learn shuffle now book record
  have hsettled := settled_learn book shuffle now record
  generalize book.learn shuffle now record = taken at hlearning hsettled ⊢
  rcases hfound with hold | ⟨hmem, rfl, hrange⟩
  · -- What was held stays, or makes place for something later.
    have hinsert : (∀ held, book.learnt[record.socket]? = some held →
        held.time < record.time) →
        ∃ better, Candidate now (book.insert record) rest socket better ∧
          found.time ≤ better.time := by
      intro hlater
      by_cases hsame : record.socket = socket
      · refine ⟨record, .inl ?_, UInt64.le_of_lt (hlater found (hsame ▸ hold))⟩
        rw [← hsame, getElem?_insert_self]
      · refine ⟨found, .inl ?_, UInt64.le_refl _⟩
        rw [AddressBook.insert, Std.HashMap.getElem?_insert,
          if_neg (by simpa using hsame), hold]
    cases hlearning with
    | declined _ => exact ⟨found, .inl hold, UInt64.le_refl _⟩
    | kept _ _ _ => exact ⟨found, .inl hold, UInt64.le_refl _⟩
    | @renewed held _ hheld htime =>
        refine hinsert fun other hother => ?_
        rw [hheld, Option.some_inj] at hother
        rwa [← hother]
    | added _ hnew _ =>
        refine hinsert fun other hother => ?_
        rw [hnew] at hother
        cases hother
    | crowded hrange hnew hfull =>
        exact absurd hfull (Nat.not_le.mpr (h.size_lt hrange hnew))
  · rcases List.mem_cons.mp hmem with rfl | hrest
    · obtain ⟨held, hheld, htime⟩ := hsettled hrange
      exact ⟨held, .inl hheld, UInt64.not_lt.mp htime⟩
    · exact ⟨found, .inr ⟨hrest, rfl, hrange⟩, UInt64.le_refl _⟩

theorem Roomy.exists_held (h : Roomy now book records) (shuffle : Shuffle)
    (hfound : Candidate now book records socket found) :
    ∃ held, (book.offer shuffle now records).learnt[socket]? = some held ∧
      found.time ≤ held.time := by
  induction records generalizing book found with
  | nil => exact ⟨found, candidate_nil_iff.mp hfound, UInt64.le_refl _⟩
  | cons record rest ih =>
      obtain ⟨better, hbetter, htime⟩ := h.exists_candidate_learn shuffle hfound
      obtain ⟨held, hheld, hlater⟩ := ih (h.learn shuffle) hbetter
      exact ⟨held, hheld, UInt64.le_trans htime hlater⟩

theorem Roomy.size_offer (h : Roomy now book records) (shuffle : Shuffle) :
    (book.offer shuffle now records).learnt.size =
      (endpoints now book records).toFinset.card := by
  have hsame : (book.offer shuffle now records).learnt.keys.toFinset =
      (endpoints now book records).toFinset := by
    apply Finset.ext
    intro socket
    rw [List.mem_toFinset, List.mem_toFinset, mem_keys_iff, mem_endpoints_iff]
    constructor
    · intro hheld
      obtain ⟨held, hheld⟩ := hheld
      exact ⟨held, candidate_of_offer hheld⟩
    · intro hcandidate
      obtain ⟨found, hfound⟩ := hcandidate
      obtain ⟨held, hheld, -⟩ := h.exists_held shuffle hfound
      exact ⟨held, hheld⟩
  rw [← hsame, List.toFinset_card_of_nodup Std.HashMap.nodup_keys,
    Std.HashMap.length_keys]

theorem Roomy.offer_again {again : List PeerRecord} (h : Roomy now book records)
    (hagain : ∀ record ∈ again, record ∈ records) (first second : Shuffle) :
    (book.offer first now records).offer second now again =
      book.offer first now records := by
  refine offer_of_settled (fun record hmem hrange => ?_) second
  obtain ⟨held, hheld, htime⟩ :=
    h.exists_held first (.inr ⟨hagain record hmem, rfl, hrange⟩)
  exact ⟨held, hheld, UInt64.not_lt.mpr htime⟩

/-- Records of one endpoint that are in range have different times. -/
def Distinguished (now : Int64) (book : AddressBook)
    (records : List PeerRecord) : Prop :=
  ∀ socket first second,
    Candidate now book records socket first →
      Candidate now book records socket second →
      inRange now first = true → inRange now second = true →
        first.time = second.time →
        first = second

/-- Also what was held long before is told apart from what is in range. -/
theorem Distinguished.eq_of_time_eq {first second : PeerRecord}
    (h : Distinguished now book records)
    (hfirst : Candidate now book records socket first)
    (hsecond : Candidate now book records socket second)
    (htime : first.time = second.time) :
    first = second := by
  have hrange : inRange now first = inRange now second :=
    inRange_eq_of_time_eq htime
  rcases hfirst with hheld | ⟨hmem, hsocket, hin⟩
  · rcases hsecond with hother | ⟨hmem, hsocket, hin⟩
    · rwa [hheld, Option.some_inj] at hother
    · exact h socket first second (.inl hheld) (.inr ⟨hmem, hsocket, hin⟩)
        (hrange.trans hin) hin htime
  · exact h socket first second (.inr ⟨hmem, hsocket, hin⟩) hsecond hin
      (hrange.symm.trans hin) htime

theorem getElem?_offer_eq_some_iff (hroom : Roomy now book records)
    (hdistinct : Distinguished now book records) (shuffle : Shuffle) :
    (book.offer shuffle now records).learnt[socket]? = some found ↔
      Candidate now book records socket found ∧
        ∀ other, Candidate now book records socket other →
          other.time ≤ found.time := by
  constructor
  · intro hheld
    refine ⟨candidate_of_offer hheld, fun other hother => ?_⟩
    obtain ⟨held, hbetter, htime⟩ := hroom.exists_held shuffle hother
    rw [hheld, Option.some_inj] at hbetter
    rwa [hbetter]
  · intro hlatest
    obtain ⟨held, hheld, htime⟩ := hroom.exists_held shuffle hlatest.1
    have hcandidate := candidate_of_offer hheld
    have hsame : held = found := hdistinct.eq_of_time_eq hcandidate hlatest.1
      (UInt64.le_antisymm (hlatest.2 held hcandidate) htime)
    rw [hheld, hsame]

theorem Roomy.offer_offer (h : Roomy now book (left ++ right))
    (first second : Shuffle) :
    (book.offer first now left).offer second now right =
      book.offer first now (left ++ right) := by
  rw [(h.offer first).offer_eq second first]
  exact List.foldl_append.symm

theorem Roomy.of_append (h : Roomy now book (left ++ right)) :
    Roomy now book left := by
  refine h.of_candidate fun socket found hfound => ⟨found, ?_⟩
  exact hfound.imp_right (And.imp_left (List.mem_append_left right))

/-- The order of the batches makes no difference, nor does offering one of them
again: the latest record of each endpoint is held. -/
theorem offers_commute_and_keep_latest
    (hdistinct : Distinguished now book (left ++ right))
    (hroom : Roomy now book (left ++ right))
    (first second third fourth : Shuffle) :
    let one := (book.offer first now left).offer second now right
    let other := (book.offer third now right).offer fourth now left
    (∀ socket : SocketAddress, one.learnt[socket]? = other.learnt[socket]?) ∧
      (∀ (socket : SocketAddress) (found : PeerRecord),
        one.learnt[socket]? = some found ↔
          Candidate now book (left ++ right) socket found ∧
            ∀ rival, Candidate now book (left ++ right) socket rival →
              rival.time ≤ found.time) ∧
      ∀ again : Shuffle,
        ((book.offer first now left).offer again now left =
          book.offer first now left ∧
          (book.offer third now right).offer again now right =
            book.offer third now right) ∧
        (one.offer again now left = one ∧ one.offer again now right = one) ∧
        other.offer again now left = other ∧
        other.offer again now right = other := by
  intro one other
  have hback := hroom.append_comm
  have hone : one = book.offer first now (left ++ right) :=
    hroom.offer_offer first second
  have hother : other = book.offer third now (right ++ left) :=
    hback.offer_offer third fourth
  have hdistinctBack : Distinguished now book (right ++ left) :=
    fun socket record rival hrecord hrival =>
      hdistinct socket record rival hrecord.append_comm hrival.append_comm
  have hlatest : ∀ socket found, one.learnt[socket]? = some found ↔ _ :=
    fun socket found => hone ▸ getElem?_offer_eq_some_iff hroom hdistinct first
  refine ⟨fun socket => Option.ext fun found => ?_, hlatest, fun again => ?_⟩
  · have hswap : ∀ record, Candidate now book (left ++ right) socket record ↔
        Candidate now book (right ++ left) socket record :=
      fun record => ⟨Candidate.append_comm, Candidate.append_comm⟩
    rw [hlatest, hother, getElem?_offer_eq_some_iff hback hdistinctBack third]
    simp only [hswap]
  · have hleft : ∀ record ∈ left, record ∈ left ++ right ∧
        record ∈ right ++ left :=
      fun record hmem =>
        ⟨List.mem_append_left right hmem, List.mem_append_right right hmem⟩
    have hright : ∀ record ∈ right, record ∈ left ++ right ∧
        record ∈ right ++ left :=
      fun record hmem =>
        ⟨List.mem_append_right left hmem, List.mem_append_left left hmem⟩
    rw [hone, hother]
    exact ⟨⟨hroom.of_append.offer_again (fun _ hmem => hmem) first again,
        hback.of_append.offer_again (fun _ hmem => hmem) third again⟩,
      ⟨hroom.offer_again (fun record hmem => (hleft record hmem).1) first again,
        hroom.offer_again (fun record hmem => (hright record hmem).1)
          first again⟩,
      hback.offer_again (fun record hmem => (hleft record hmem).2) third again,
      hback.offer_again (fun record hmem => (hright record hmem).2) third again⟩

/-- A record of some host of one network. -/
def recordOf (host : UInt8) (time : UInt64) : PeerRecord :=
  ⟨time, 1, 1, mapped ⟨[10, 0, 0, host], rfl⟩, 8444⟩

def oneRecordBook : AddressBook :=
  ({} : AddressBook).insert (recordOf 1 1699999000)

/-- The same host at two later times, and another one. -/
def firstOffer : List PeerRecord :=
  [recordOf 1 1699999500, recordOf 2 1700000000, recordOf 1 1699999100]

/-- The same host in the future and at a still later time, and another one long
ago. -/
def secondOffer : List PeerRecord :=
  [recordOf 1 1700001000, recordOf 1 1699999900, recordOf 3 1600000000]

theorem mem_of_candidate_oneRecordBook
    (h : Candidate 1700000000 oneRecordBook (firstOffer ++ secondOffer) socket
      found) :
    found ∈ recordOf 1 1699999000 ::
        (firstOffer ++ secondOffer).filter (inRange 1700000000) ∧
      found.socket = socket := by
  cases h with
  | inl hheld =>
      rw [oneRecordBook, AddressBook.insert, Std.HashMap.getElem?_insert]
        at hheld
      split at hheld
      · rename_i hsame
        rw [← Option.some_inj.mp hheld]
        exact ⟨List.mem_cons_self, beq_iff_eq.mp hsame⟩
      · simp at hheld
  | inr hoffered =>
      obtain ⟨hmem, hsocket, hrange⟩ := hoffered
      exact ⟨List.mem_cons_of_mem _ (List.mem_filter.mpr ⟨hmem, hrange⟩),
        hsocket⟩

theorem offers_commute_oneRecordBook :
    Distinguished 1700000000 oneRecordBook (firstOffer ++ secondOffer) ∧
      Roomy 1700000000 oneRecordBook (firstOffer ++ secondOffer) ∧
      ∀ shuffle : Shuffle,
        let one := (oneRecordBook.offer shuffle 1700000000 firstOffer).offer
          shuffle 1700000000 secondOffer
        let other := (oneRecordBook.offer shuffle 1700000000 secondOffer).offer
          shuffle 1700000000 firstOffer
        one.learnt[(recordOf 1 0).socket]? = some (recordOf 1 1699999900) ∧
          other.learnt[(recordOf 1 0).socket]? =
            some (recordOf 1 1699999900) := by
  have hdistinct :
      Distinguished 1700000000 oneRecordBook (firstOffer ++ secondOffer) := by
    intro socket first second hfirst hsecond _ _ htime
    obtain ⟨hmem, hsocket⟩ := mem_of_candidate_oneRecordBook hfirst
    obtain ⟨hother, hsame⟩ := mem_of_candidate_oneRecordBook hsecond
    have hall : ∀ first ∈ recordOf 1 1699999000 ::
          (firstOffer ++ secondOffer).filter (inRange 1700000000),
        ∀ second ∈ recordOf 1 1699999000 ::
          (firstOffer ++ secondOffer).filter (inRange 1700000000),
        first.socket = second.socket → first.time = second.time →
        first = second := by decide
    exact hall first hmem second hother (hsocket.trans hsame.symm) htime
  have hroom : Roomy 1700000000 oneRecordBook (firstOffer ++ secondOffer) := by
    have hsize : oneRecordBook.learnt.size ≤ 1 := Std.HashMap.size_insert_le
    have hoffered :=
      List.length_filter_le (inRange 1700000000) (firstOffer ++ secondOffer)
    refine Nat.le_trans (List.toFinset_card_le _) ?_
    rw [endpoints, List.length_append, Std.HashMap.length_keys, List.length_map]
    exact Nat.le_trans (Nat.add_le_add hsize hoffered) (by decide)
  refine ⟨hdistinct, hroom, fun shuffle => ?_⟩
  obtain ⟨hsame, hlatest, -⟩ :=
    offers_commute_and_keep_latest hdistinct hroom shuffle shuffle
      shuffle shuffle
  have hlate : ∀ rival ∈ recordOf 1 1699999000 ::
        (firstOffer ++ secondOffer).filter (inRange 1700000000),
      rival.socket = (recordOf 1 0).socket →
      rival.time ≤ (recordOf 1 1699999900).time := by
    decide
  have hheld := (hlatest (recordOf 1 0).socket (recordOf 1 1699999900)).mpr
    ⟨.inr (by decide), fun rival hrival =>
      hlate rival (mem_of_candidate_oneRecordBook hrival).1
        (mem_of_candidate_oneRecordBook hrival).2⟩
  exact ⟨hheld, (hsame _).symm.trans hheld⟩

end AddressBook

end ObjectRelay
