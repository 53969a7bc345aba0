import ObjectRelay.Proofs.AddressBook.Basic

namespace ObjectRelay

namespace AddressBook

variable {book : AddressBook} {shuffle : Shuffle} {now : Int64} {limit : Nat}
  {streams : List UInt64} {record peer : PeerRecord}

/-- The learnt records of the streams that are not too old. -/
def current (book : AddressBook) (now : Int64) (streams : List UInt64) :
    List PeerRecord :=
  book.learnt.values.filter fun record =>
    record.servesAny streams && isFresh now record

/-- The bootstrap peers of the streams that no current record stands for. -/
def spare (book : AddressBook) (now : Int64) (streams : List UInt64) :
    List PeerRecord :=
  book.bootstrap.filter fun seed =>
    seed.servesAny streams &&
      !(book.current now streams).any (·.sameEndpoint seed)

theorem mem_current_iff :
    record ∈ book.current now streams ↔
      (∃ socket : SocketAddress, book.learnt[socket]? = some record) ∧
        record.servesAny streams = true ∧ isFresh now record = true := by
  rw [current, List.mem_filter, mem_values_iff, Bool.and_eq_true]

theorem mem_spare_iff :
    record ∈ book.spare now streams ↔ record ∈ book.bootstrap ∧
      record.servesAny streams = true ∧
        ∀ held ∈ book.current now streams, held.sameEndpoint record =
          false := by
  simp [spare, List.mem_filter]

theorem length_current_le (book : AddressBook) (now : Int64)
    (streams : List UInt64) :
    (book.current now streams).length ≤ book.learnt.size := by
  have hsize : book.learnt.values.length = book.learnt.size := by
    rw [values_eq_map_toList, List.length_map, Std.HashMap.length_toList]
  exact hsize ▸ List.length_filter_le _ _

theorem length_spare_le (book : AddressBook) (now : Int64)
    (streams : List UInt64) :
    (book.spare now streams).length ≤ book.bootstrap.length :=
  List.length_filter_le _ _

theorem length_known_le (book : AddressBook) (shuffle : Shuffle) (now : Int64)
    (limit : Nat) (streams : List UInt64) :
    (book.known shuffle now limit streams).length ≤ limit := by
  simp only [known, List.length_append, List.length_take]
  omega

theorem known_of_limit_le (h : limit ≤ (book.current now streams).length) :
    book.known shuffle now limit streams =
      (shuffle.order (book.current now streams)).take limit := by
  have hfull : ((shuffle.order (book.current now streams)).take limit).length =
      limit := by
    rw [List.length_take, Shuffle.length_order, Nat.min_eq_left h]
  unfold current at hfull
  unfold known current
  dsimp only
  rw [hfull, Nat.sub_self, List.take_zero, List.append_nil]

theorem known_of_lt_limit (h : (book.current now streams).length < limit) :
    book.known shuffle now limit streams =
      shuffle.order (book.current now streams) ++
      (shuffle.order (book.spare now streams)).take
        (limit - (book.current now streams).length) := by
  have hall : (shuffle.order (book.current now streams)).take limit =
      shuffle.order (book.current now streams) :=
    List.take_of_length_le (by rw [Shuffle.length_order]; exact Nat.le_of_lt h)
  have hstands : ∀ seed : PeerRecord,
      (shuffle.order (book.current now streams)).any (·.sameEndpoint seed) =
        (book.current now streams).any (·.sameEndpoint seed) :=
    fun seed => (shuffle.perm _).any_eq
  unfold current at hall hstands
  unfold known spare current
  dsimp only
  simp only [hall, hstands, Shuffle.length_order]

theorem mem_current_or_spare_of_mem_known
    (h : record ∈ book.known shuffle now limit streams) :
    record ∈ book.current now streams ∨
      (book.current now streams).length < limit ∧
      record ∈ book.spare now streams := by
  rcases Nat.lt_or_ge (book.current now streams).length limit with hfew | hmany
  · rw [known_of_lt_limit hfew] at h
    rcases List.mem_append.mp h with hcurrent | hspare
    · exact .inl (shuffle.mem_order.mp hcurrent)
    · exact .inr ⟨hfew, shuffle.mem_order.mp (List.mem_of_mem_take hspare)⟩
  · rw [known_of_limit_le hmany] at h
    exact .inl (shuffle.mem_order.mp (List.mem_of_mem_take h))

theorem mem_known_iff (h : book.learnt.size + book.bootstrap.length < limit) :
    record ∈ book.known shuffle now limit streams ↔
      record ∈ book.current now streams ∨ record ∈ book.spare now streams := by
  have hcurrent := length_current_le book now streams
  have hspare := length_spare_le book now streams
  have hfits : (shuffle.order (book.spare now streams)).length ≤
      limit - (book.current now streams).length := by
    rw [Shuffle.length_order]
    omega
  rw [known_of_lt_limit (by omega), List.take_of_length_le hfits,
    List.mem_append, Shuffle.mem_order, Shuffle.mem_order]

theorem isFresh_of_mem_current (h : record ∈ book.current now streams) :
    isFresh now record = true :=
  (mem_current_iff.mp h).2.2

theorem Seeded.isFresh_eq (h : book.Seeded) (hseed : record ∈ book.bootstrap) :
    isFresh now record = decide (now.toInt ≤ freshness) := by
  have hseen : record.seenAt = 0 := by
    rw [PeerRecord.seenAt, h record hseed]
    rfl
  rw [isFresh, hseen]
  exact decide_eq_decide.mpr (by omega)

/-- Too old a record is handed out just when too few current ones leave room for
a bootstrap peer. -/
theorem exists_stale_known_iff (h : book.Seeded) :
    (∃ record ∈ book.known shuffle now limit streams,
      isFresh now record = false) ↔
      freshness < now.toInt ∧ (book.current now streams).length < limit ∧
        book.spare now streams ≠ [] := by
  constructor
  · rintro ⟨record, hknown, hstale⟩
    rcases mem_current_or_spare_of_mem_known hknown with
      hcurrent | ⟨hfew, hspare⟩
    · rw [isFresh_of_mem_current hcurrent] at hstale
      cases hstale
    · rw [h.isFresh_eq (mem_spare_iff.mp hspare).1, decide_eq_false_iff_not]
        at hstale
      exact ⟨Int.not_le.mp hstale, hfew, List.ne_nil_of_mem hspare⟩
  · rintro ⟨hlate, hfew, hspare⟩
    have hroom : (shuffle.order (book.spare now streams)).take
        (limit - (book.current now streams).length) ≠ [] := by
      rw [Ne, List.take_eq_nil_iff, ← List.length_eq_zero_iff,
        Shuffle.length_order, List.length_eq_zero_iff]
      rintro (hnone | hempty)
      · omega
      · exact hspare hempty
    obtain ⟨seed, hseed⟩ := List.exists_mem_of_ne_nil _ hroom
    have hbootstrap :=
      (mem_spare_iff.mp (shuffle.mem_order.mp (List.mem_of_mem_take hseed))).1
    refine ⟨seed, ?_, ?_⟩
    · rw [known_of_lt_limit hfew]
      exact List.mem_append_right _ hseed
    · rw [h.isFresh_eq hbootstrap, decide_eq_false_iff_not]
      exact Int.not_le.mpr hlate

/-- With room for all, an endpoint is handed out for a learnt record that is not
too old, or for a bootstrap peer. -/
theorem exists_sameEndpoint_known_iff (h : book.Keyed)
    (hlimit : book.learnt.size + book.bootstrap.length < limit) :
    (∃ found ∈ book.known shuffle now limit streams,
      found.sameEndpoint peer = true) ↔
      (∃ held, book.learnt[peer.socket]? = some held ∧
        held.servesAny streams = true ∧
        isFresh now held = true) ∨
      ∃ seed ∈ book.bootstrap, seed.servesAny streams = true ∧
        seed.sameEndpoint peer = true := by
  constructor
  · rintro ⟨found, hknown, hsame⟩
    rcases (mem_known_iff hlimit).mp hknown with hcurrent | hspare
    · obtain ⟨⟨socket, hheld⟩, hserves, hfresh⟩ := mem_current_iff.mp hcurrent
      have hsocket : socket = peer.socket :=
        (h socket found hheld).symm.trans (PeerRecord.sameEndpoint_iff.mp hsame)
      exact .inl ⟨found, hsocket ▸ hheld, hserves, hfresh⟩
    · obtain ⟨hseed, hserves, -⟩ := mem_spare_iff.mp hspare
      exact .inr ⟨found, hseed, hserves, hsame⟩
  · rintro (⟨held, hheld, hserves, hfresh⟩ | ⟨seed, hseed, hserves, hsame⟩)
    · exact ⟨held, (mem_known_iff hlimit).mpr (.inl (mem_current_iff.mpr
        ⟨⟨peer.socket, hheld⟩, hserves, hfresh⟩)),
        PeerRecord.sameEndpoint_iff.mpr (h _ held hheld)⟩
    · by_cases hstands : ∀ held ∈ book.current now streams,
        held.sameEndpoint seed = false
      · exact ⟨seed, (mem_known_iff hlimit).mpr (.inr (mem_spare_iff.mpr
          ⟨hseed, hserves, hstands⟩)), hsame⟩
      · -- A current record keeps the bootstrap peer out, but has its endpoint.
        push Not at hstands
        obtain ⟨held, hcurrent, hstands⟩ := hstands
        have hsocket : held.socket = seed.socket :=
          PeerRecord.sameEndpoint_iff.mp (by simpa using hstands)
        exact ⟨held, (mem_known_iff hlimit).mpr (.inl hcurrent),
          PeerRecord.sameEndpoint_iff.mpr
          (hsocket.trans (PeerRecord.sameEndpoint_iff.mp hsame))⟩

end AddressBook

end ObjectRelay
