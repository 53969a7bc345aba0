import Mathlib.Data.List.Perm.Subperm
import ObjectRelay.Proofs.AddressBook.Known
import ObjectRelay.Proofs.Connection.Activation
import ObjectRelay.Proofs.Message.Sizes

namespace ObjectRelay

/-! What a connection says when it becomes active: the known addresses, and then
all that its peer may ask for, in as few messages as hold it. -/

namespace Message

theorem exists_parts_announce (vectors : List InventoryVector) :
    ∃ parts : List (List InventoryVector), announce vectors = parts.map .inv ∧
      parts.flatten = vectors ∧
      (∀ part ∈ parts, 1 ≤ part.length ∧ part.length ≤ mostVectors) ∧
      parts.length * mostVectors < vectors.length + mostVectors := by
  fun_induction announce vectors with
  | case1 => exact ⟨[], rfl, rfl, by simp, by decide⟩
  | case2 vector rest ih =>
      obtain ⟨parts, hannounce, hflatten, hparts, hlength⟩ := ih
      refine ⟨(vector :: rest.take (mostVectors - 1)) :: parts, ?_, ?_, ?_, ?_⟩
      · rw [hannounce, List.map_cons]
      · rw [List.flatten_cons, hflatten, List.cons_append,
          List.take_append_drop]
      · refine List.forall_mem_cons.mpr ⟨?_, hparts⟩
        simp only [List.length_cons, List.length_take, mostVectors]
        omega
      · rw [List.length_drop] at hlength
        rw [List.length_cons, List.length_cons, Nat.succ_mul]
        rcases Nat.lt_or_ge rest.length mostVectors with hlast | hmore
        · have hempty : rest.length - (mostVectors - 1) = 0 := by omega
          rw [hempty, Nat.zero_add] at hlength
          have hless : parts.length * mostVectors <
              1 * mostVectors := by rwa [Nat.one_mul]
          rw [Nat.lt_one_iff.mp (Nat.lt_of_mul_lt_mul_right hless)]
          omega
        · omega

theorem length_parts_le {parts others : List (List InventoryVector)}
    (hnodup : parts.flatten.Nodup)
    (hfull : parts.length * mostVectors < parts.flatten.length + mostVectors)
    (hfit : ∀ part ∈ others, part.length ≤ mostVectors)
    (hcover : ∀ vector ∈ parts.flatten, vector ∈ others.flatten) :
    parts.length ≤ others.length := by
  have hless : parts.flatten.length ≤ others.flatten.length :=
    (hnodup.subperm hcover).length_le
  have hmost : others.flatten.length ≤ others.length * mostVectors := by
    rw [← List.flatMap_id]
    exact length_flatMap_le hfit
  simp only [mostVectors] at hfull hmost
  omega

end Message

namespace Link

variable {link opened after : Link} {moment : Moment} {message : Message}

theorem length_tidings_le (link : Link) (moment : Moment) :
    (link.tidings moment).length ≤ Message.mostAddresses := by
  unfold tidings
  split
  · exact Nat.zero_le _
  · exact AddressBook.length_known_le _ _ _ _ _

/-- What a connection queues first in the message that makes it active. -/
def acknowledgement : Mode → List Message
  | .server => []
  | .client | .sync => [.verack]

/-- The handshake is over but for becoming active. -/
structure Readies (before after : Link) : Prop where
  node : after.node = before.node
  mode : after.connection.mode = before.connection.mode
  queue : after.connection.queue =
    before.connection.queue ++ acknowledgement before.connection.mode

theorem exists_readies_of_greeting {greeting : Greeting}
    (h : link.receiveGreeting moment greeting = (after, some .activated)) :
    ∃ opened, Readies link opened ∧ after = opened.activate moment := by
  let met := (link.meet greeting).send .verack
  unfold receiveGreeting at h
  split at h
  · cases h
  · split at h
    · cases h
    · split at h
      · cases h
      · dsimp only at h
        split at h
        · cases h
        · rename_i hmode
          refine ⟨met, ⟨rfl, rfl, ?_⟩, (congrArg Prod.fst h).symm⟩
          rw [hmode]
          rfl
        · rename_i hmode
          refine ⟨met, ⟨rfl, rfl, ?_⟩, (congrArg Prod.fst h).symm⟩
          rw [hmode]
          rfl

theorem exists_readies_of_verack
    (h : link.receiveVerack moment = (after, some .activated)) :
    ∃ opened, Readies link opened ∧ after = opened.activate moment := by
  unfold receiveVerack at h
  split at h
  · rename_i hmode
    split at h
    · refine ⟨link, ⟨rfl, rfl, ?_⟩, (congrArg Prod.fst h).symm⟩
      rw [hmode]
      exact (List.append_nil _).symm
    · cases h
  · cases h
  · cases h

theorem event_receiveActive_ne_activated (link : Link) (moment : Moment)
    (message : Message) :
    (link.receiveActive moment message).2 ≠ some .activated := by
  cases message with
  | object object => exact event_receiveObject_ne_activated link moment object
  | _ => simp [receiveActive]

theorem exists_readies_of_activated
    (h : link.receive moment message = (after, some .activated)) :
    ∃ opened, Readies link opened ∧ after = opened.activate moment := by
  have hheard : ∀ opened, Readies (link.hear moment.instant) opened →
      Readies link opened :=
    fun opened hopened => ⟨hopened.node, hopened.mode, hopened.queue⟩
  unfold receive at h
  dsimp only at h
  split at h
  · cases message with
    | version greeting =>
        obtain ⟨opened, hopened, rfl⟩ := exists_readies_of_greeting h
        exact ⟨opened, hheard opened hopened, rfl⟩
    | verack =>
        obtain ⟨opened, hopened, rfl⟩ := exists_readies_of_verack h
        exact ⟨opened, hheard opened hopened, rfl⟩
    | _ => cases h
  · exact absurd (congrArg Prod.snd h)
      (event_receiveActive_ne_activated _ moment message)
  · cases h

/-- A connection that becomes active has acknowledged its peer where that is
called for.  It tells the addresses that are known, at most a thousand and only
if there are any, unless it merely synchronizes.  It then announces each vector
that it serves its peer once and no other, in parts that fit a message and of
which fewer would not do.  Nothing is stored or requested. -/
theorem activation_tells_all_once
    (h : link.receive moment message = (after, some .activated)) :
    ∃ (told? : Option (List PeerRecord)) (parts : List (List InventoryVector)),
      after.connection.queue = link.connection.queue ++
        acknowledgement link.connection.mode ++ told?.toList.map .addr ++
          parts.map .inv ∧
      (link.connection.mode = .sync → told? = none) ∧
      (link.connection.mode ≠ .sync →
        (told? = none ↔ link.node.knownAddresses moment Message.mostAddresses
          link.node.profile.streams = []) ∧
        ∀ records, told? = some records →
          records = link.node.knownAddresses moment Message.mostAddresses
            link.node.profile.streams ∧
          1 ≤ records.length ∧ records.length ≤ 1000) ∧
      (∀ part ∈ parts, 1 ≤ part.length ∧ part.length ≤ Message.mostVectors) ∧
      (∀ vector, parts.flatten.count vector =
        if link.node.inventory.serves after.connection.streams vector =
          true then 1 else 0) ∧
      (∀ others : List (List InventoryVector),
        (∀ part ∈ others, part.length ≤ Message.mostVectors) →
        (∀ vector ∈ parts.flatten, vector ∈ others.flatten) →
        parts.length ≤ others.length) ∧
      after.node.inventory = link.node.inventory ∧
      after.node.requests = link.node.requests := by
  obtain ⟨opened, hopened, rfl⟩ := exists_readies_of_activated h
  obtain ⟨parts, hannounce, hflatten, hparts, hfull⟩ :=
    Message.exists_parts_announce
    (opened.node.inventory.vectors opened.connection.streams)
  have hnodup := opened.node.inventory.nodup_vectors opened.connection.streams
  have hstock := (speaks_activate opened moment).stock
  rw [← hflatten] at hnodup hfull
  refine ⟨opened.told? moment, parts, ?_, ?_, fun hmode => ⟨?_, ?_⟩, hparts, ?_,
    ?_, ?_, ?_⟩
  · rw [queue_activate, hannounce, hopened.queue]
  · intro hmode
    rw [told?_eq_none_iff, tidings, hopened.mode, if_pos hmode]
  · rw [told?_eq_none_iff, tidings, hopened.mode, if_neg hmode, hopened.node]
  · intro records hrecords
    obtain ⟨hsome, rfl⟩ := told?_eq_some_iff.mp hrecords
    refine ⟨?_, List.length_pos_iff.mpr hsome, length_tidings_le opened moment⟩
    rw [tidings, hopened.mode, if_neg hmode, hopened.node]
  · intro vector
    rw [hflatten, Inventory.count_vectors, activate_streams, hopened.node]
  · exact fun others hfit hcover =>
      Message.length_parts_le hnodup hfull hfit hcover
  · exact (congrArg Stock.inventory hstock).trans
      (congrArg Node.inventory hopened.node)
  · exact (congrArg Stock.requests hstock).trans
      (congrArg Node.requests hopened.node)

def heldRemote : SocketAddress :=
  .v4 (.ofNat 4 1) 8444

def heldObject : Object :=
  ⟨some (.ofNat 8 0), 0, 2, 1, 1, .letter []⟩

def oneObjectNode : Node where
  profile := ⟨1, [1, 1], PeerRecord.relaysObjects, "", none, 0, 0⟩
  port := 0
  engine := ⟨⟨fun _ => .ofNat digestSize 0⟩, .network, ∅⟩
  inventory := ({} : Inventory).store (.ofNat 32 0) heldObject
  addresses := AddressBook.addBootstrap {} 1 [heldRemote]

def oneObjectLink : Link :=
  ⟨oneObjectNode, .opened 0 .client heldRemote 0⟩

def openingMoment : Moment :=
  ⟨0, 0, .none⟩

def oneStreamGreeting : Greeting :=
  ⟨3, 0, 0, .ofSocket heldRemote 1 0 0, .ofSocket heldRemote 1 0 0, 2, "", [1]⟩

theorem known_oneObjectNode :
    oneObjectNode.knownAddresses openingMoment Message.mostAddresses [1, 1] ≠
      [] := by
  have hcurrent : oneObjectNode.addresses.current 0 [1, 1] = [] := by
    simp [AddressBook.current, oneObjectNode, AddressBook.addBootstrap]
  have hfew :
      (oneObjectNode.addresses.current openingMoment.clock [1, 1]).length <
      Message.mostAddresses := by
    rw [openingMoment, hcurrent]
    decide
  rw [Node.knownAddresses, AddressBook.known_of_lt_limit hfew, openingMoment,
    hcurrent, AddressBook.spare, hcurrent]
  exact List.cons_ne_nil _ _

theorem serves_oneObjectNode :
    oneObjectNode.inventory.serves [1, 1] (.ofNat 32 0) = true := by
  have hheld : oneObjectNode.inventory.get? (.ofNat 32 0) = some heldObject :=
    Inventory.get?_store_of_eq_none (by simp [Inventory.get?]) heldObject
  rw [Inventory.serves, hheld]
  rfl

theorem oneObjectLink_tells_all_once :
    ∃ (after : Link) (records : List PeerRecord)
      (parts : List (List InventoryVector)),
      oneObjectLink.receive openingMoment (.version oneStreamGreeting) =
        (after, some .activated) ∧
      after.connection.queue = .verack :: .addr records :: parts.map .inv ∧
      1 ≤ records.length ∧ parts.flatten.count (.ofNat 32 0) = 1 := by
  let met := ((oneObjectLink.hear 0).meet oneStreamGreeting).send .verack
  have hactivated :
      oneObjectLink.receive openingMoment (.version oneStreamGreeting) =
      (met.activate openingMoment, some .activated) := rfl
  have hstreams : (met.activate openingMoment).connection.streams = [1, 1] :=
    activate_streams openingMoment
  obtain ⟨told?, parts, hqueue, -, htold, -, hcount, -⟩ :=
    activation_tells_all_once hactivated
  obtain ⟨hnone, hsome⟩ := htold (by decide)
  cases htold? : told? with
  | none => exact absurd (hnone.mp htold?) known_oneObjectNode
  | some records =>
      rw [htold?] at hqueue
      refine ⟨_, records, parts, hactivated, hqueue,
        (hsome records htold?).2.1, ?_⟩
      rw [hcount, hstreams]
      exact if_pos serves_oneObjectNode

end Link

end ObjectRelay
