import ObjectRelay.Proofs.AddressBook.Basic

namespace ObjectRelay

namespace AddressBook

variable {book after : AddressBook} {shuffle : Shuffle} {now : Int64}
  {record other first found : PeerRecord} {records rest : List PeerRecord}
  {socket : SocketAddress}

/-- The record of an endpoint that is held after a first or a further one was
offered. -/
def settle (now : Int64) (held? : Option PeerRecord) (record : PeerRecord) :
    Option PeerRecord :=
  if inRange now record then
    match held? with
    | some held => if held.time < record.time then some record else some held
    | none => some record
  else held?

theorem getElem?_insert_self (book : AddressBook) (record : PeerRecord) :
    (book.insert record).learnt[record.socket]? = some record := by
  rw [AddressBook.insert, Std.HashMap.getElem?_insert_self]

theorem getElem?_learn (hroom : book.learnt.size < mostLearnt)
    (shuffle : Shuffle) (now : Int64) (record : PeerRecord) :
    (book.learn shuffle now record).learnt[record.socket]? =
      settle now book.learnt[record.socket]? record := by
  unfold learn settle
  split
  · cases hheld : book.learnt[record.socket]? with
    | some held =>
        dsimp only
        split
        · exact getElem?_insert_self book record
        · exact hheld
    | none =>
        dsimp only
        rw [if_neg (Nat.not_le.mpr hroom)]
        exact getElem?_insert_self book record
  · rfl

/-- The book has a record of the endpoint that is as late, or would not take
this one at all. -/
def Settled (book : AddressBook) (now : Int64) (record : PeerRecord) : Prop :=
  inRange now record = true →
    ∃ held, book.learnt[record.socket]? = some held ∧ ¬ held.time < record.time

theorem learn_of_settled (h : book.Settled now record) (shuffle : Shuffle) :
    book.learn shuffle now record = book := by
  unfold learn
  split
  · rename_i hrange
    obtain ⟨held, hheld, htime⟩ := h hrange
    rw [hheld]
    exact if_neg htime
  · rfl

theorem Learning.settled (h : Learning shuffle now book record after) :
    after.Settled now record := by
  intro hrange
  have hown : ∀ room : AddressBook, ∃ found,
      (room.insert record).learnt[record.socket]? = some found ∧
      ¬ found.time < record.time :=
    fun room => ⟨record, getElem?_insert_self room record, UInt64.lt_irrefl _⟩
  cases h with
  | declined hout =>
      rw [hrange] at hout
      cases hout
  | kept _ hheld htime => exact ⟨_, hheld, htime⟩
  | renewed _ _ _ => exact hown book
  | added _ _ _ => exact hown book
  | crowded _ _ _ => exact hown _

theorem settled_learn (book : AddressBook) (shuffle : Shuffle) (now : Int64)
    (record : PeerRecord) :
    (book.learn shuffle now record).Settled now record :=
  (learning_learn shuffle now book record).settled

theorem inRange_eq_of_time_eq {first second : PeerRecord}
    (h : first.time = second.time) :
    inRange now first = inRange now second := by
  unfold inRange isFresh PeerRecord.seenAt
  rw [h]

theorem Settled.congr (h : book.Settled now record)
    (hsocket : other.socket = record.socket)
    (htime : other.time = record.time) : book.Settled now other := by
  unfold Settled at h ⊢
  rw [hsocket, htime, inRange_eq_of_time_eq htime]
  exact h

theorem offer_of_settled (h : ∀ record ∈ records, book.Settled now record)
    (shuffle : Shuffle) :
    book.offer shuffle now records = book := by
  unfold offer
  induction records with
  | nil => rfl
  | cons record rest ih =>
      rw [List.foldl_cons, learn_of_settled (h record List.mem_cons_self)]
      exact ih fun other hmem => h other (List.mem_cons_of_mem record hmem)

/-- Of records that name one endpoint and one time only the first is taken. -/
theorem offer_alike
    (hrest : ∀ other ∈ rest, other.socket = first.socket ∧
      other.time = first.time) (shuffle : Shuffle) :
    book.offer shuffle now (first :: rest) = book.learn shuffle now first := by
  rw [offer, List.foldl_cons]
  -- What the first leaves behind is settled for the rest, which change nothing.
  have hsettled := settled_learn book shuffle now first
  refine offer_of_settled (fun other hmem => ?_) shuffle
  exact hsettled.congr (hrest other hmem).1 (hrest other hmem).2

/-- The records that a socket may be held with once the given ones were
offered. -/
def Candidate (now : Int64) (book : AddressBook) (records : List PeerRecord)
    (socket : SocketAddress) (found : PeerRecord) : Prop :=
  book.learnt[socket]? = some found ∨
    (found ∈ records ∧ found.socket = socket ∧ inRange now found = true)

theorem candidate_nil_iff :
    Candidate now book [] socket found ↔ book.learnt[socket]? = some found := by
  simp [Candidate]

theorem Learning.candidate (h : Learning shuffle now book record after)
    (hfound : Candidate now after rest socket found) :
    Candidate now book (record :: rest) socket found := by
  have hlater : found ∈ rest → found ∈ record :: rest :=
    List.mem_cons_of_mem record
  -- What an insertion brings is the record, under its own socket.
  have hinsert : ∀ room : AddressBook, inRange now record = true →
      room.Within book →
      Candidate now (room.insert record) rest socket found →
        Candidate now book (record :: rest) socket found := by
    intro room hrange hwithin hcandidate
    cases hcandidate with
    | inr hoffered => exact .inr (hoffered.imp_left hlater)
    | inl hheld =>
        rw [AddressBook.insert, Std.HashMap.getElem?_insert] at hheld
        split at hheld
        · rename_i hsame
          rw [← Option.some_inj.mp hheld]
          exact .inr ⟨List.mem_cons_self, beq_iff_eq.mp hsame, hrange⟩
        · exact .inl (hwithin.learnt socket found hheld)
  have hself : book.Within book := ⟨rfl, fun _ _ hheld => hheld⟩
  cases h with
  | declined hrange => exact hfound.imp_right (And.imp_left hlater)
  | kept hrange hheld htime => exact hfound.imp_right (And.imp_left hlater)
  | renewed hrange hheld htime => exact hinsert book hrange hself hfound
  | added hrange hnew hroom => exact hinsert book hrange hself hfound
  | crowded hrange hnew hfull =>
      exact hinsert _ hrange (within_makeRoom book shuffle now) hfound

theorem candidate_of_offer
    (h : (book.offer shuffle now records).learnt[socket]? = some found) :
    Candidate now book records socket found := by
  induction records generalizing book with
  | nil => exact candidate_nil_iff.mpr h
  | cons record rest ih =>
      exact (learning_learn shuffle now book record).candidate (ih h)

end AddressBook

end ObjectRelay
