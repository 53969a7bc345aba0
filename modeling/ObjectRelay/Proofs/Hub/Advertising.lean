import ObjectRelay.Proofs.AddressBook.Known
import ObjectRelay.Proofs.Connection.Activation
import ObjectRelay.Proofs.Hub.Refetch

namespace ObjectRelay

/-! What the connections of a node tell of the addresses that it knows.  A
bootstrap peer may be among them, whether or not it was ever seen. -/

namespace Node

theorem addresses_work (node : Node) (chore : Chore) :
    node.addresses.Change (node.work chore).addresses := by
  cases chore with
  | publish clock object =>
      rw [work, publish]
      split
      · exact .kept
      · exact .kept
  | cleanInventory clock => exact .kept
  | cleanAddresses clock => exact .cleaned clock
  | offerAddresses moment records =>
      exact .offered moment.shuffle moment.clock records
  | addBootstrap stream peers => exact .seeded stream peers

end Node

namespace Link

variable {link : Link} {moment : Moment} {records : List PeerRecord}
  {record : PeerRecord}

theorem mem_tidings_iff :
    record ∈ link.tidings moment ↔ link.connection.mode ≠ .sync ∧
      record ∈ link.node.knownAddresses moment Message.mostAddresses
        link.node.profile.streams := by
  unfold tidings
  split
  · rename_i hsync
    simp [hsync]
  · rename_i hgossip
    simp [hgossip]

theorem isFresh_or_bootstrap_of_mem_tidings (h : record ∈ link.tidings moment) :
    AddressBook.isFresh moment.clock record = true ∨
    record ∈ link.node.addresses.bootstrap := by
  rcases AddressBook.mem_current_or_spare_of_mem_known (mem_tidings_iff.mp h).2
    with
    hcurrent | ⟨-, hspare⟩
  · exact .inl (AddressBook.isFresh_of_mem_current hcurrent)
  · exact .inr (AddressBook.mem_spare_iff.mp hspare).1

/-- Bootstrap peers are passed on when too few others are known. -/
structure PassesOn (link : Link) (moment : Moment) : Prop where
  mode : link.connection.mode ≠ .sync
  late : AddressBook.freshness < moment.clock.toInt
  few : (link.node.addresses.current moment.clock
    link.node.profile.streams).length < Message.mostAddresses
  spare : link.node.addresses.spare moment.clock link.node.profile.streams ≠ []

theorem exists_stale_tidings_iff (h : link.node.addresses.Seeded) :
    (∃ record ∈ link.tidings moment, AddressBook.isFresh moment.clock record =
      false) ↔
      link.PassesOn moment := by
  have hknown :
      (∃ record ∈ link.node.knownAddresses moment Message.mostAddresses
      link.node.profile.streams,
      AddressBook.isFresh moment.clock record = false) ↔ _ :=
    AddressBook.exists_stale_known_iff h
  constructor
  · rintro ⟨record, htold, hstale⟩
    obtain ⟨hmode, hmem⟩ := mem_tidings_iff.mp htold
    obtain ⟨hlate, hfew, hspare⟩ := hknown.mp ⟨record, hmem, hstale⟩
    exact ⟨hmode, hlate, hfew, hspare⟩
  · rintro ⟨hmode, hlate, hfew, hspare⟩
    obtain ⟨record, hmem, hstale⟩ := hknown.mpr ⟨hlate, hfew, hspare⟩
    exact ⟨record, mem_tidings_iff.mpr ⟨hmode, hmem⟩, hstale⟩

end Link

namespace Hub

variable {hub : Hub}

theorem addresses_put {id : PeerId} {link after : Link}
    (hlink : hub.link? id = some link)
    (h : link.node.addresses.Change after.node.addresses) :
    hub.node.addresses.Change (hub.put after).node.addresses := by
  rw [← (link?_eq_some_iff.mp hlink).1]
  exact h

theorem addresses_change {id : PeerId} {change : Link → Link}
    (h : ∀ link : Link,
      link.node.addresses.Change (change link).node.addresses) :
    hub.node.addresses.Change (hub.change id change).node.addresses := by
  cases hlink : hub.link? id with
  | none =>
      rw [change_of_none hlink]
      exact .kept
  | some link =>
      rw [change_of_some hlink]
      exact addresses_put hlink (h link)

theorem addresses_step (hub : Hub) (step : Step) :
    hub.node.addresses.Change (hub.step step).node.addresses := by
  cases step with
  | act id action =>
      exact addresses_change fun link => link.addresses_perform action
  | write id => exact addresses_change fun link => .kept
  | consult id now => exact addresses_change fun link => .kept
  | work chore => exact hub.node.addresses_work chore

theorem addresses_run {holds : AddressBook → Prop}
    (hchange : ∀ book other : AddressBook, holds book → book.Change other →
      holds other) (h : holds hub.node.addresses) (steps : List Step) :
    holds (hub.run steps).node.addresses := by
  induction steps generalizing hub with
  | nil => exact h
  | cons step rest ih => exact ih (hchange _ _ h (addresses_step hub step))

/-- Whatever has happened, a record that is told of was seen lately, or is a
bootstrap peer that nobody is known to have seen.  The latter is told of just
where a connection becomes active that was not opened to synchronize, and the
node knows too few others. -/
theorem stale_addresses_told_iff (hub : Hub)
    (hseeded : hub.node.addresses.Seeded) (steps : List Step) (id : PeerId)
    (action : Action) :
    (∀ records, .addr records ∈ (hub.run steps).queued id action →
      ∃ moment message, action = .receive moment message ∧ ∀ record ∈ records,
        AddressBook.isFresh moment.clock record = true ∨
          record ∈ (hub.run steps).node.addresses.bootstrap ∧ record.time = 0) ∧
    ((∃ moment message records, action = .receive moment message ∧
        .addr records ∈ (hub.run steps).queued id action ∧
        ∃ record ∈ records, AddressBook.isFresh moment.clock record = false) ↔
      ∃ moment message link, action = .receive moment message ∧
        (hub.run steps).link? id = some link ∧
        (link.receive moment message).2 = some .activated ∧
        link.PassesOn moment) := by
  have hlater :=
    addresses_run (fun _ _ => AddressBook.Seeded.change) hseeded steps
  generalize hub.run steps = hub at *
  refine ⟨?_, ?_⟩
  · intro records hqueued
    obtain ⟨link, hlink, hsaid⟩ := mem_queued.mp hqueued
    obtain ⟨moment, message, haction, -, -, rfl⟩ :=
      Link.addr_mem_queued_iff.mp hsaid
    refine ⟨moment, message, haction, fun record hmem => ?_⟩
    rcases Link.isFresh_or_bootstrap_of_mem_tidings hmem with
      hfresh | hbootstrap
    · exact .inl hfresh
    · rw [(link?_eq_some_iff.mp hlink).1] at hbootstrap
      exact .inr ⟨hbootstrap, hlater record hbootstrap⟩
  · constructor
    · rintro ⟨moment, message, records, rfl, hqueued, hstale⟩
      obtain ⟨link, hlink, hsaid⟩ := mem_queued.mp hqueued
      rw [← (link?_eq_some_iff.mp hlink).1] at hlater
      obtain ⟨hevent, -, rfl⟩ := Link.addr_mem_queued_receive_iff.mp hsaid
      exact ⟨moment, message, link, rfl, hlink, hevent,
        (Link.exists_stale_tidings_iff hlater).mp hstale⟩
    · rintro ⟨moment, message, link, rfl, hlink, hevent, hpasses⟩
      rw [← (link?_eq_some_iff.mp hlink).1] at hlater
      obtain ⟨record, hmem, hstale⟩ :=
        (Link.exists_stale_tidings_iff hlater).mpr hpasses
      have hsaid : .addr (link.tidings moment) ∈
          link.queued (.receive moment message) :=
        Link.addr_mem_queued_receive_iff.mpr ⟨hevent,
          List.ne_nil_of_mem hmem, rfl⟩
      exact ⟨moment, message, _, rfl, mem_queued.mpr ⟨link, hlink, hsaid⟩,
        record, hmem, hstale⟩

def bootstrapOnly : Hub where
  node :=
    { plainNode with addresses := AddressBook.addBootstrap {} 1 [plainRemote] }
  connections := [.opened 0 .client plainRemote 0]
  nodup_ids := by decide

def fifthHour : Moment :=
  ⟨0, 18000, .none⟩

theorem seeded_bootstrapOnly : bootstrapOnly.node.addresses.Seeded :=
  AddressBook.seeded_addBootstrap (fun _ h => absurd h List.not_mem_nil) 1
    [plainRemote]

theorem current_bootstrapOnly (now : Int64) (streams : List UInt64) :
    bootstrapOnly.node.addresses.current now streams = [] := by
  simp [AddressBook.current, bootstrapOnly, AddressBook.addBootstrap]

theorem passesOn_bootstrapOnly :
    (⟨bootstrapOnly.node, .opened 0 .client plainRemote 0⟩ : Link).PassesOn
      fifthHour where
  mode := Mode.noConfusion
  late := by decide
  few := by
    rw [current_bootstrapOnly]
    decide
  spare := by
    rw [AddressBook.spare, current_bootstrapOnly]
    exact List.cons_ne_nil _ _

/-- The first stranger is told of it. -/
theorem bootstrapOnly_tells_bootstrap :
    bootstrapOnly.node.addresses.Seeded ∧ ∃ records,
      .addr records ∈
        bootstrapOnly.queued 0 (.receive fifthHour (.version plainGreeting)) ∧
        ∃ record ∈ records, AddressBook.isFresh fifthHour.clock record =
          false := by
  obtain ⟨moment, message, records, hsame, hqueued, hstale⟩ :=
    (stale_addresses_told_iff bootstrapOnly seeded_bootstrapOnly [] 0
      (.receive fifthHour (.version plainGreeting))).2.mpr
        ⟨fifthHour, .version plainGreeting, _, rfl, rfl, rfl,
          passesOn_bootstrapOnly⟩
  cases hsame
  exact ⟨seeded_bootstrapOnly, records, hqueued, hstale⟩

end Hub

end ObjectRelay
