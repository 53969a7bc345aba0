import Mathlib.Data.Finset.Card
import Mathlib.Data.List.Dedup
import Mathlib.Data.List.Perm.Subperm
import ObjectRelay.Proofs.AddressBook.History
import ObjectRelay.Proofs.AddressBook.Known

namespace ObjectRelay

/-! What a book hands out of all that it can name: no endpoint twice, as many as
were asked for where there are so many, and bootstrap peers only behind
everything that is current. -/

namespace Shuffle

/-- Any one list can be rearranged at will, whatever becomes of the others. -/
theorem exists_order_eq {α : Type} (shuffle : Shuffle) {items arranged : List α}
    (h : arranged.Perm items) :
    ∃ other : Shuffle, other.order items = arranged ∧
      ∀ rest : List α, rest ≠ items →
        other.order rest = shuffle.order rest := by
  classical
  let order {β : Type} (given : List β) : List β :=
    if hgiven : ∃ hsame : α = β,
      hsame ▸ items = given then hgiven.choose ▸ arranged
    else shuffle.order given
  have hperm {β : Type} (given : List β) : (order given).Perm given := by
    by_cases hgiven : ∃ hsame : α = β, hsame ▸ items = given
    · obtain ⟨rfl, rfl⟩ := hgiven
      simpa [order] using h
    · simpa [order, hgiven] using shuffle.perm given
  refine ⟨⟨order, hperm⟩, by simp [order], fun rest hrest => ?_⟩
  simp [order, hrest.symm]

end Shuffle

namespace AddressBook

variable {book : AddressBook} {shuffle : Shuffle} {now : Int64} {limit : Nat}
  {streams : List UInt64} {record : PeerRecord} {socket : SocketAddress}
  {calls : List Call}

/-- No endpoint is held twice, neither among what was learnt nor among the
bootstrap peers.  One of either kind may still have the endpoint of one of the
other. -/
structure Tidy (book : AddressBook) : Prop where
  keyed : book.Keyed
  distinct : book.bootstrap.Pairwise fun left right =>
    left.sameEndpoint right = false

theorem tidy_empty : ({} : AddressBook).Tidy :=
  ⟨sound_empty.keyed, sound_empty.distinct⟩

/-- Unlike what bounds the times of the records, this asks nothing of the
clock. -/
theorem Tidy.perform (h : book.Tidy) (call : Call) :
    (book.perform call).Tidy := by
  cases call with
  | offer shuffle now records =>
      refine ⟨h.keyed.offer shuffle now records, ?_⟩
      rw [AddressBook.perform, bootstrap_offer]
      exact h.distinct
  | cleanup now => exact ⟨h.keyed.within (within_cleanup book now), h.distinct⟩
  | addBootstrap stream peers =>
      exact ⟨h.keyed, pairwise_addBootstrap h.distinct stream peers⟩

theorem Tidy.run (h : book.Tidy) (calls : List Call) :
    (book.run calls).Tidy := by
  induction calls generalizing book with
  | nil => exact h
  | cons call rest ih => exact ih (h.perform call)

/-- The endpoints of current records and of bootstrap peers, each once. -/
def reach (book : AddressBook) (now : Int64) (streams : List UInt64) :
    Finset SocketAddress :=
  ((book.current now streams ++ book.bootstrap.filter (·.servesAny streams)).map
    PeerRecord.socket).toFinset

theorem mem_reach_iff :
    socket ∈ book.reach now streams ↔
      (∃ record ∈ book.current now streams, record.socket = socket) ∨
        ∃ seed ∈ book.bootstrap, seed.servesAny streams = true ∧
          seed.socket = socket := by
  simp only [reach, List.mem_toFinset, List.map_append, List.mem_append,
    List.mem_map, List.mem_filter, and_assoc]

/-- What a book chooses from: a current record stands for a bootstrap peer of
its endpoint. -/
def candidates (book : AddressBook) (now : Int64) (streams : List UInt64) :
    List PeerRecord :=
  book.current now streams ++ book.spare now streams

theorem mem_reach_iff_candidate :
    socket ∈ book.reach now streams ↔
      ∃ record ∈ book.candidates now streams, record.socket = socket := by
  simp only [mem_reach_iff, candidates, List.mem_append, or_and_right,
    exists_or]
  constructor
  · rintro (hcurrent | ⟨seed, hseed, hserves, hsocket⟩)
    · exact .inl hcurrent
    · by_cases hstands : ∃ held ∈ book.current now streams, held.socket = socket
      · exact .inl hstands
      · refine .inr ⟨seed,
          mem_spare_iff.mpr ⟨hseed, hserves, fun held hheld => ?_⟩, hsocket⟩
        rw [PeerRecord.sameEndpoint_eq_false_iff, hsocket]
        exact fun hsame => hstands ⟨held, hheld, hsame⟩
  · rintro (hcurrent | ⟨seed, hspare, hsocket⟩)
    · exact .inl hcurrent
    · obtain ⟨hseed, hserves, -⟩ := mem_spare_iff.mp hspare
      exact .inr ⟨seed, hseed, hserves, hsocket⟩

theorem Keyed.nodup_sockets (h : book.Keyed) :
    (book.learnt.values.map PeerRecord.socket).Nodup := by
  have hkeys : book.learnt.values.map PeerRecord.socket = book.learnt.keys := by
    rw [values_eq_map_toList, List.map_map,
      ← Std.HashMap.map_fst_toList_eq_keys]
    refine List.map_congr_left fun entry hmem => ?_
    exact h entry.1 entry.2
      (Std.HashMap.mem_toList_iff_getElem?_eq_some.mp hmem)
  rw [hkeys]
  exact Std.HashMap.nodup_keys

theorem Tidy.nodup_candidates (h : book.Tidy) :
    ((book.candidates now streams).map PeerRecord.socket).Nodup := by
  rw [candidates, List.map_append, List.nodup_append]
  refine ⟨?_, ?_, ?_⟩
  · exact (List.filter_sublist.map PeerRecord.socket).nodup
      h.keyed.nodup_sockets
  · have hseeds : (book.bootstrap.map PeerRecord.socket).Nodup :=
      List.pairwise_map.mpr
        (h.distinct.imp PeerRecord.sameEndpoint_eq_false_iff.mp)
    exact (List.filter_sublist.map PeerRecord.socket).nodup hseeds
  · intro socket hsocket other hother
    obtain ⟨record, hcurrent, rfl⟩ := List.mem_map.mp hsocket
    obtain ⟨seed, hspare, rfl⟩ := List.mem_map.mp hother
    exact PeerRecord.sameEndpoint_eq_false_iff.mp
      ((mem_spare_iff.mp hspare).2.2 record hcurrent)

theorem Tidy.card_reach (h : book.Tidy) :
    (book.reach now streams).card = (book.candidates now streams).length := by
  have hreach : book.reach now streams =
      ((book.candidates now streams).map PeerRecord.socket).toFinset := by
    ext socket
    rw [mem_reach_iff_candidate, List.mem_toFinset, List.mem_map]
  rw [hreach, List.toFinset_card_of_nodup h.nodup_candidates, List.length_map]

/-- Current records are drawn first, and spare ones for what they leave of the
limit. -/
theorem known_eq (book : AddressBook) (shuffle : Shuffle) (now : Int64)
    (limit : Nat) (streams : List UInt64) :
    book.known shuffle now limit streams =
      (shuffle.order (book.current now streams)).take limit ++
        (shuffle.order (book.spare now streams)).take
          (limit - (book.current now streams).length) := by
  rcases Nat.lt_or_ge (book.current now streams).length limit with hfew | hmany
  · have hlength := (shuffle.length_order (book.current now streams)).trans_le
      (Nat.le_of_lt hfew)
    rw [known_of_lt_limit hfew, List.take_of_length_le hlength]
  · rw [known_of_limit_le hmany, Nat.sub_eq_zero_of_le hmany, List.take_zero,
      List.append_nil]

theorem length_known (book : AddressBook) (shuffle : Shuffle) (now : Int64)
    (limit : Nat) (streams : List UInt64) :
    (book.known shuffle now limit streams).length =
      min limit (book.candidates now streams).length := by
  rw [known_eq, candidates, List.length_append, List.length_append,
    List.length_take, List.length_take, Shuffle.length_order,
    Shuffle.length_order]
  omega

theorem subperm_known (book : AddressBook) (shuffle : Shuffle) (now : Int64)
    (limit : Nat) (streams : List UInt64) :
    (book.known shuffle now limit streams).Subperm
      (book.candidates now streams) := by
  rw [known_eq]
  have hcurrent := (shuffle.perm (book.current now streams)).subperm
  have hspare := (shuffle.perm (book.spare now streams)).subperm
  exact ((List.take_sublist _ _).subperm.trans hcurrent).append
    ((List.take_sublist _ _).subperm.trans hspare)

theorem Tidy.nodup_known (h : book.Tidy) (shuffle : Shuffle) (now : Int64)
    (limit : Nat) (streams : List UInt64) :
    ((book.known shuffle now limit streams).map PeerRecord.socket).Nodup := by
  obtain ⟨chosen, hperm, hsublist⟩ :=
    subperm_known book shuffle now limit streams
  rw [← (hperm.map PeerRecord.socket).nodup_iff]
  exact (hsublist.map PeerRecord.socket).nodup h.nodup_candidates

/-- What is handed out falls into what was learnt and the bootstrap peers behind
it. -/
theorem exists_known_eq_append (book : AddressBook) (shuffle : Shuffle)
    (now : Int64) (limit : Nat) (streams : List UInt64) :
    ∃ held seeds, book.known shuffle now limit streams = held ++ seeds ∧
      (∀ record ∈ held, record ∈ book.current now streams) ∧
      (∀ seed ∈ seeds, seed ∈ book.spare now streams) ∧
      (seeds ≠ [] → ∀ record ∈ book.current now streams, record ∈ held) := by
  refine ⟨_, _, known_eq book shuffle now limit streams,
    fun record hheld => shuffle.mem_order.mp (List.mem_of_mem_take hheld),
    fun seed hseed => shuffle.mem_order.mp (List.mem_of_mem_take hseed), ?_⟩
  intro hsome record hcurrent
  have hroom : limit - (book.current now streams).length ≠ 0 :=
    fun hnone => hsome (by rw [hnone, List.take_zero])
  rw [List.take_of_length_le (by rw [Shuffle.length_order]; omega)]
  exact shuffle.mem_order.mpr hcurrent

/-- One shuffle is enough for two draws that know nothing of each other. -/
theorem exists_known_eq {held seeds : List PeerRecord}
    (hheld : held.Perm (book.current now streams))
    (hseeds : seeds.Perm (book.spare now streams)) :
    ∃ shuffle, ∀ limit, book.known shuffle now limit streams =
      held.take limit ++ seeds.take (limit - held.length) := by
  obtain ⟨first, hfirst, -⟩ := Shuffle.exists_order_eq .none hseeds
  obtain ⟨shuffle, hcurrent, hrest⟩ := Shuffle.exists_order_eq first hheld
  have hspare : shuffle.order (book.spare now streams) = seeds := by
    by_cases hsame : book.spare now streams = book.current now streams
    · -- No record is both current and spare: these are two empty lists.
      have hempty : book.spare now streams = [] := by
        refine List.eq_nil_iff_forall_not_mem.mpr fun record hspare => ?_
        have hother := (mem_spare_iff.mp hspare).2.2 record (hsame ▸ hspare)
        exact PeerRecord.sameEndpoint_eq_false_iff.mp hother rfl
      rw [hempty] at hseeds ⊢
      exact (shuffle.perm []).eq_nil.trans hseeds.eq_nil.symm
    · exact (hrest _ hsame).trans hfirst
  refine ⟨shuffle, fun limit => ?_⟩
  rw [known_eq, hcurrent, hspare, hheld.length_eq]

/-- Whatever was called before, a book names as many different endpoints as it
can and may: first those of fresh learnt records, and bootstrap peers only if
there is room for more than these. -/
theorem known_fills_limit (calls : List Call) (shuffle : Shuffle) (now : Int64)
    (limit : Nat) (streams : List UInt64) :
    let book := run {} calls
    let known := book.known shuffle now limit streams
    (known.Pairwise fun left right => left.sameEndpoint right = false) ∧
      (∀ record ∈ known, record.servesAny streams = true) ∧
      known.length = min limit (book.reach now streams).card ∧
      ∃ held seeds, known = held ++ seeds ∧
        (∀ record ∈ held,
          (∃ socket : SocketAddress, book.learnt[socket]? = some record) ∧
          isFresh now record = true) ∧
        (∀ seed ∈ seeds, seed ∈ book.bootstrap) ∧
        (seeds ≠ [] → ∀ (socket : SocketAddress) (record : PeerRecord),
          book.learnt[socket]? = some record → record.servesAny streams = true →
            isFresh now record = true → record ∈ held) := by
  intro book known
  have htidy : book.Tidy := tidy_empty.run calls
  obtain ⟨held, seeds, hsplit, hheld, hseeds, hall⟩ :=
    exists_known_eq_append book shuffle now limit streams
  refine ⟨?_, ?_, ?_, held, seeds, hsplit, ?_, ?_, ?_⟩
  · exact (List.pairwise_map.mp (htidy.nodup_known _ _ _ _)).imp
      PeerRecord.sameEndpoint_eq_false_iff.mpr
  · intro record hknown
    rcases mem_current_or_spare_of_mem_known hknown with hcurrent | ⟨-, hspare⟩
    · exact (mem_current_iff.mp hcurrent).2.1
    · exact (mem_spare_iff.mp hspare).2.1
  · rw [htidy.card_reach]
    exact length_known book shuffle now limit streams
  · intro record hrecord
    obtain ⟨hlearnt, -, hfresh⟩ := mem_current_iff.mp (hheld record hrecord)
    exact ⟨hlearnt, hfresh⟩
  · exact fun seed hseed => (mem_spare_iff.mp (hseeds seed hseed)).1
  · intro hsome socket record hlearnt hserves hfresh
    exact hall hsome record
      (mem_current_iff.mpr ⟨⟨socket, hlearnt⟩, hserves, hfresh⟩)

end AddressBook

end ObjectRelay
