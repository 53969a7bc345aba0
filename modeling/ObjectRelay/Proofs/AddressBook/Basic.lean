import Mathlib.Data.List.Basic
import ObjectRelay.AddressBook
import ObjectRelay.Proofs.HashMap

namespace ObjectRelay

namespace PeerRecord

theorem sameEndpoint_iff_fields {left right : PeerRecord} :
    left.sameEndpoint right = true ↔ left.ip = right.ip ∧
    left.port = right.port := by
  simp [sameEndpoint]

/-- Records name one endpoint just when they are held under one socket. -/
theorem sameEndpoint_iff {left right : PeerRecord} :
    left.sameEndpoint right = true ↔ left.socket = right.socket := by
  rw [sameEndpoint_iff_fields]
  constructor
  · rintro ⟨hip, hport⟩
    rw [socket, socket, hip, hport]
  · intro hsocket
    unfold socket at hsocket
    cases hleft : unmapped? left.ip with
    | none =>
        cases hright : unmapped? right.ip with
        | none => simpa [hleft, hright] using hsocket
        | some octets => simp [hleft, hright] at hsocket
    | some octets =>
        cases hright : unmapped? right.ip with
        | none => simp [hleft, hright] at hsocket
        | some others =>
            simp only [hleft, hright, SocketAddress.v4.injEq] at hsocket
            refine ⟨?_, hsocket.2⟩
            rw [← mapped_of_unmapped? hleft, ← mapped_of_unmapped? hright,
              hsocket.1]

theorem sameEndpoint_eq_false_iff {left right : PeerRecord} :
    left.sameEndpoint right = false ↔ left.socket ≠ right.socket := by
  rw [← Bool.not_eq_true, Ne, sameEndpoint_iff]

theorem servesAny_singleton {record : PeerRecord} {stream : UInt64} :
    record.servesAny [stream] = true ↔ record.stream.toUInt64 = stream := by
  simp [servesAny]

end PeerRecord

namespace AddressBook

variable {book other : AddressBook} {shuffle : Shuffle} {now : Int64}
  {record held : PeerRecord} {records : List PeerRecord}
  {socket : SocketAddress}

theorem isFresh_iff_words (hnow : 0 ≤ now.toInt) :
    isFresh now record = true ↔ now - 10800 ≤ record.time.toInt64 := by
  have hclock := now.toInt_lt
  have hword : (10800 : Int64).toInt = 10800 := rfl
  rw [isFresh, decide_eq_true_iff, Int64.le_iff_toInt_le,
    Int64.toInt_sub, hword, Int.bmod_def, freshness, PeerRecord.seenAt]
  omega

/-- The integers of the range are the words at every clock that is neither
before 1970 nor within ten minutes of the last. -/
theorem inRange_iff_words (hnow : 0 ≤ now.toInt)
    (hlast : now.toInt + clockSkew ≤ Int64.maxValue.toInt) :
    inRange now record = true ↔
      now - 10800 ≤ record.time.toInt64 ∧ record.time.toInt64 ≤ now + 600 := by
  have hword : (600 : Int64).toInt = 600 := rfl
  rw [clockSkew, Int64.toInt_maxValue] at hlast
  rw [inRange, Bool.and_eq_true, isFresh_iff_words hnow, decide_eq_true_iff]
  refine and_congr_right' ?_
  rw [Int64.le_iff_toInt_le, Int64.toInt_add, hword,
    Int.bmod_eq_of_le (by omega) (by omega)]
  exact Iff.rfl

/-- Each learnt record is held under its own socket. -/
def Keyed (book : AddressBook) : Prop :=
  ∀ (socket : SocketAddress) (record : PeerRecord),
    book.learnt[socket]? = some record → record.socket = socket

/-- Bootstrap peers have not been seen yet. -/
def Seeded (book : AddressBook) : Prop :=
  ∀ seed ∈ book.bootstrap, seed.time = 0

/-- The book has the bootstrap peers of the other, and nothing learnt that the
other has not. -/
structure Within (book other : AddressBook) : Prop where
  bootstrap : book.bootstrap = other.bootstrap
  learnt : ∀ (socket : SocketAddress) (record : PeerRecord),
    book.learnt[socket]? = some record → other.learnt[socket]? = some record

theorem within_cleanup (book : AddressBook) (now : Int64) :
    (book.cleanup now).Within book := by
  refine ⟨rfl, fun socket record hheld => ?_⟩
  rw [cleanup, Std.HashMap.getElem?_filter', Option.filter_eq_some_iff] at hheld
  exact hheld.1

theorem within_makeRoom (book : AddressBook) (shuffle : Shuffle) (now : Int64) :
    (book.makeRoom shuffle now).Within book := by
  unfold makeRoom
  dsimp only
  split
  · exact within_cleanup book now
  · exact ⟨rfl, fun socket record hheld =>
      ((getElem?_foldl_erase_eq_some_iff _ _).mp hheld).2⟩

inductive Learning (shuffle : Shuffle) (now : Int64) (book : AddressBook)
    (record : PeerRecord) : AddressBook → Prop where
  | declined (hrange : inRange now record = false) :
      Learning shuffle now book record book
  | kept {held : PeerRecord} (hrange : inRange now record = true)
      (hheld : book.learnt[record.socket]? = some held) (htime : ¬ held.time <
        record.time) :
      Learning shuffle now book record book
  | renewed {held : PeerRecord} (hrange : inRange now record = true)
      (hheld : book.learnt[record.socket]? = some held) (htime : held.time <
        record.time) :
      Learning shuffle now book record (book.insert record)
  | added (hrange : inRange now record = true)
      (hnew : book.learnt[record.socket]? = none)
      (hroom : book.learnt.size < mostLearnt) :
      Learning shuffle now book record (book.insert record)
  | crowded (hrange : inRange now record = true)
      (hnew : book.learnt[record.socket]? = none)
      (hfull : mostLearnt ≤ book.learnt.size) :
      Learning shuffle now book record
        ((book.makeRoom shuffle now).insert record)

theorem learning_learn (shuffle : Shuffle) (now : Int64) (book : AddressBook)
    (record : PeerRecord) :
    Learning shuffle now book record (book.learn shuffle now record) := by
  unfold learn
  by_cases hrange : inRange now record = true
  · rw [if_pos hrange]
    cases hheld : book.learnt[record.socket]? with
    | some held =>
        dsimp only
        split
        · rename_i htime
          exact .renewed hrange hheld htime
        · rename_i htime
          exact .kept hrange hheld htime
    | none =>
        dsimp only
        split
        · rename_i hfull
          exact .crowded hrange hheld hfull
        · rename_i hroom
          exact .added hrange hheld (Nat.not_le.mp hroom)
  · rw [if_neg hrange]
    exact .declined (Bool.not_eq_true _ ▸ hrange)

theorem Learning.bootstrap_eq (h : Learning shuffle now book record other) :
    other.bootstrap = book.bootstrap := by
  cases h with
  | crowded hrange hnew hfull =>
      exact (within_makeRoom book shuffle now).bootstrap
  | _ => rfl

inductive Change (book : AddressBook) : AddressBook → Prop where
  | kept : Change book book
  | offered (shuffle : Shuffle) (now : Int64) (records : List PeerRecord) :
      Change book (book.offer shuffle now records)
  | cleaned (now : Int64) : Change book (book.cleanup now)
  | seeded (stream : UInt32) (peers : List SocketAddress) :
      Change book (book.addBootstrap stream peers)

theorem bootstrap_learn (shuffle : Shuffle) (now : Int64) (book : AddressBook)
    (record : PeerRecord) :
    (learn shuffle now book record).bootstrap = book.bootstrap :=
  (learning_learn shuffle now book record).bootstrap_eq

theorem bootstrap_offer (book : AddressBook) (shuffle : Shuffle) (now : Int64)
    (records : List PeerRecord) :
    (book.offer shuffle now records).bootstrap = book.bootstrap := by
  unfold offer
  induction records generalizing book with
  | nil => rfl
  | cons record rest ih =>
      exact (ih _).trans (bootstrap_learn shuffle now book record)

theorem holds_addBootstrap (holds : List PeerRecord → Prop) (stream : UInt32)
    (hstep : ∀ seeds peer,
      let record := PeerRecord.ofSocket peer stream PeerRecord.relaysObjects 0
      holds seeds → (∀ seed ∈ seeds, seed.sameEndpoint record = false) → holds
        (seeds ++ [record]))
    (h : holds book.bootstrap) (peers : List SocketAddress) :
    holds (book.addBootstrap stream peers).bootstrap := by
  unfold addBootstrap
  dsimp only
  generalize book.bootstrap = seeds at h ⊢
  induction peers generalizing seeds with
  | nil => exact h
  | cons peer rest ih =>
      rw [List.foldl_cons]
      apply ih
      split
      · exact h
      · rename_i hnew
        simp only [List.any_eq_true, not_exists, not_and,
          Bool.not_eq_true] at hnew
        exact hstep seeds peer h hnew

theorem seeded_addBootstrap (h : book.Seeded) (stream : UInt32)
    (peers : List SocketAddress) :
    (book.addBootstrap stream peers).Seeded := by
  refine holds_addBootstrap (fun seeds => ∀ seed ∈ seeds, seed.time = 0) stream
    ?_ h peers
  intro seeds peer record hseeds _ seed hmem
  rcases List.mem_append.mp hmem with hold | hnew
  · exact hseeds seed hold
  · rw [List.mem_singleton.mp hnew]
    cases peer <;> rfl

theorem pairwise_addBootstrap
    (h : book.bootstrap.Pairwise fun left right =>
      left.sameEndpoint right = false)
    (stream : UInt32) (peers : List SocketAddress) :
    (book.addBootstrap stream peers).bootstrap.Pairwise
      fun left right => left.sameEndpoint right = false := by
  refine holds_addBootstrap
    (List.Pairwise fun left right => left.sameEndpoint right = false) stream
      ?_ h peers
  intro seeds peer record hdistinct hnew
  refine List.pairwise_append.mpr ⟨hdistinct, List.pairwise_singleton _ _, ?_⟩
  intro seed hseed other hother
  rw [List.mem_singleton.mp hother]
  exact hnew seed hseed

theorem Seeded.change (h : book.Seeded) (hchange : book.Change other) :
    other.Seeded := by
  cases hchange with
  | kept => exact h
  | offered shuffle now records =>
      rw [Seeded, bootstrap_offer]
      exact h
  | cleaned now => exact h
  | seeded stream peers => exact seeded_addBootstrap h stream peers

theorem Keyed.within (h : book.Keyed) (hwithin : other.Within book) :
    other.Keyed :=
  fun socket record hheld =>
    h socket record (hwithin.learnt socket record hheld)

theorem Keyed.insert (h : book.Keyed) (record : PeerRecord) :
    (book.insert record).Keyed := by
  intro socket found hfound
  rw [AddressBook.insert, Std.HashMap.getElem?_insert] at hfound
  split at hfound
  · rename_i hsame
    rw [← Option.some_inj.mp hfound]
    exact beq_iff_eq.mp hsame
  · exact h socket found hfound

theorem Keyed.learning (h : book.Keyed)
    (hlearning : Learning shuffle now book record other) :
    other.Keyed := by
  cases hlearning with
  | declined hrange => exact h
  | kept hrange hheld htime => exact h
  | renewed hrange hheld htime => exact h.insert record
  | added hrange hnew hroom => exact h.insert record
  | crowded hrange hnew hfull =>
      exact (h.within (within_makeRoom book shuffle now)).insert record

theorem Keyed.learn (h : book.Keyed) (shuffle : Shuffle) (now : Int64)
    (record : PeerRecord) :
    (AddressBook.learn shuffle now book record).Keyed :=
  h.learning (learning_learn shuffle now book record)

theorem Keyed.offer (h : book.Keyed) (shuffle : Shuffle) (now : Int64)
    (records : List PeerRecord) : (book.offer shuffle now records).Keyed := by
  unfold AddressBook.offer
  induction records generalizing book with
  | nil => exact h
  | cons record rest ih => exact ih (h.learn shuffle now record)

theorem Keyed.change (h : book.Keyed) (hchange : book.Change other) :
    other.Keyed := by
  cases hchange with
  | kept => exact h
  | offered shuffle now records => exact h.offer shuffle now records
  | cleaned now => exact h.within (within_cleanup book now)
  | seeded stream peers => exact h

end AddressBook

end ObjectRelay
