import ObjectRelay.Proofs.AddressBook.Known
import ObjectRelay.Proofs.Bytes.BigEndian
import ObjectRelay.Proofs.Hub.Refetch
import ObjectRelay.Proofs.Message.Sizes

namespace ObjectRelay

/-! What is queued can be written, but for a takeover of more than one message
can name. -/

/-- What a node says of itself, and what it answers, is within the limits of a
reader. -/
structure Profile.Fits (profile : Profile) : Prop where
  userAgent : (Utf8.encode profile.userAgent).length ≤ Greeting.longestUserAgent
  streams : profile.streams.length ≤ Greeting.mostStreams
  response : ∀ answer request response, profile.answer? = some answer →
    answer request = some response →
    response.write.length ≤ Frame.largestPayload

/-- A message that was read from the wire. -/
def Message.Arrives (message : Message) : Prop :=
  ∃ hasher magic buffer rest, Frame.decode hasher magic buffer =
    .message message rest

theorem Node.Utterance.accepts {node : Node} {message : Message}
    {hasher : Hasher} {magic : Frame.Magic} (h : node.Utterance message)
    (hfits : node.profile.Fits)
    (hobjects : ∀ vector object, node.inventory.get? vector = some object →
      Frame.Accepts hasher magic (.object object)) :
    Frame.Accepts hasher magic message := by
  cases h with
  | greeting remote clock =>
      exact Frame.accepts_version hfits.userAgent hfits.streams
  | verack => exact Frame.accepts_verack
  | answer hanswer hresponse =>
      exact Frame.accepts_custom (hfits.response _ _ _ hanswer hresponse)
  | addresses moment =>
      exact Frame.accepts_addr (AddressBook.length_known_le _ _ _ _ _)
  | inventory hmem =>
      obtain ⟨part, rfl, hlength⟩ := Message.eq_inv_of_mem_announce hmem
      exact Frame.accepts_inv hlength
  | offer vector =>
      exact Frame.accepts_inv (by decide : 1 ≤ Message.mostVectors)
  | object hheld => exact hobjects _ _ hheld

namespace Link

variable {link : Link} {action : Action} {message : Message} {hasher : Hasher}
  {magic : Frame.Magic}

/-- The vectors that a takeover asks for do not fit one message. -/
def LongTakeover (link : Link) (action : Action) : Prop :=
  ∃ moment handed, action = .reassign moment handed ∧
    link.connection.isActive = true ∧
    Message.mostVectors <
      (link.asked (link.connection.known.knownOf handed
        moment.instant).1).length

section

variable (hfits : link.node.profile.Fits)
  (hobjects : ∀ vector object, link.node.inventory.get? vector = some object →
    Frame.Accepts hasher magic (.object object))
  (harrives : ∀ moment message, action = .receive moment message →
    message.Arrives)

include hfits hobjects harrives

theorem getdata_of_refused (h : message ∈ link.queued action)
    (hrefused : ¬ Frame.Accepts hasher magic message) :
    link.LongTakeover action ∧
      ∃ vectors, message = .getdata vectors ∧
        Message.mostVectors < vectors.length := by
  rcases queued_cases h with hsaid | ⟨wanted, hactive, hwants, rfl⟩
  · exact absurd (hsaid.accepts hfits hobjects) hrefused
  · rw [Frame.accepts_getdata_iff, Nat.not_le] at hrefused
    cases hwants with
    | announced moment offer =>
        -- What is asked for is a part of the offer, and the offer came in one
        -- message.
        obtain ⟨_, _, _, _, hdecoded⟩ := harrives moment (.inv offer) rfl
        have hoffer := Frame.length_of_decode_inv hdecoded
        have hmissing := (link.node.inventory.missing_sublist offer
          link.node.profile.streams).length_le
        have hasked := link.length_asked_le
          (link.node.inventory.missing offer link.node.profile.streams)
        omega
    | takenOver moment handed =>
        exact ⟨⟨moment, handed, rfl, hactive, hrefused⟩, _, rfl, hrefused⟩

theorem exists_refused_iff :
    (∃ message ∈ link.queued action, ¬ Frame.Accepts hasher magic message) ↔
      link.LongTakeover action := by
  constructor
  · intro hrefusal
    obtain ⟨message, hqueued, hrefused⟩ := hrefusal
    exact (getdata_of_refused hfits hobjects harrives hqueued hrefused).1
  · intro htakeover
    obtain ⟨moment, handed, rfl, hactive, hlong⟩ := htakeover
    refine ⟨.getdata
      (link.asked (link.connection.known.knownOf handed moment.instant).1),
      ?_, ?_⟩
    · rw [queued_reassign moment handed hactive, mem_requestFor]
      exact ⟨List.ne_nil_of_length_pos (Nat.zero_lt_of_lt hlong), rfl⟩
    · rw [Frame.accepts_getdata_iff]
      exact Nat.not_le.mpr hlong

end

theorem longTakeover_iff :
    link.LongTakeover action ↔
      ∃ moment handed, action = .reassign moment handed ∧
        link.connection.isActive = true ∧
        ∃ vectors : List InventoryVector, vectors.Nodup ∧
          Message.mostVectors < vectors.length ∧
          ∀ vector ∈ vectors, vector ∈ handed ∧
            link.Recalls moment.instant vector ∧
            link.node.requests.owner? vector = none := by
  constructor
  · intro htakeover
    obtain ⟨moment, handed, haction, hactive, hlong⟩ := htakeover
    refine ⟨moment, handed, haction, hactive, _, nodup_asked link _, hlong, ?_⟩
    intro vector hmem
    obtain ⟨hknown, hfree⟩ := mem_asked.mp hmem
    obtain ⟨hhanded, hrecalls⟩ := KnownVectors.mem_knownOf.mp hknown
    exact ⟨hhanded, hrecalls, hfree⟩
  · intro htakeover
    obtain ⟨moment, handed, haction, hactive, vectors, hnodup, hlong, hall⟩ :=
      htakeover
    refine ⟨moment, handed, haction, hactive, Nat.lt_of_lt_of_le hlong ?_⟩
    refine (hnodup.subperm fun vector hmem => ?_).length_le
    obtain ⟨hhanded, hrecalls, hfree⟩ := hall vector hmem
    exact mem_asked.mpr
      ⟨KnownVectors.mem_knownOf.mpr ⟨hhanded, hrecalls⟩, hfree⟩

end Link

namespace Hub

/-- Whatever has happened, the next action queues nothing that the encoder
refuses, but for one request: that for more than a message's worth of vectors
taken over at once. -/
theorem encoder_refuses_iff_long_takeover (hub : Hub) (hfresh : hub.Fresh)
    (hfits : hub.node.profile.Fits) (steps : List Step) (id : PeerId)
    (action : Action) (hasher : Hasher) (magic : Frame.Magic)
    (harrives : ∀ moment message, action = .receive moment message →
      message.Arrives)
    (hobjects : ∀ vector object, (hub.run steps).node.inventory.get? vector =
      some object →
      Frame.Accepts hasher magic (.object object)) :
    (∀ message ∈ (hub.run steps).queued id action,
      ¬ Frame.Accepts hasher magic message →
      ∃ vectors, message = .getdata vectors ∧
        Message.mostVectors < vectors.length) ∧
    ((∃ message ∈ (hub.run steps).queued id action,
      ¬ Frame.Accepts hasher magic message) ↔
      ∃ moment handed link, action = .reassign moment handed ∧
        (hub.run steps).link? id = some link ∧ link.connection.isActive = true ∧
        ∃ vectors : List InventoryVector, vectors.Nodup ∧
          Message.mostVectors < vectors.length ∧
          ∀ vector ∈ vectors, vector ∈ handed ∧
            link.Recalls moment.instant vector ∧
            ∀ connection ∈ (hub.run steps).connections,
              connection.outstanding.contains vector = false) := by
  have hbalanced := hfresh.balanced.run steps
  rw [← profile_run hub steps] at hfits
  generalize hub.run steps = hub at *
  refine ⟨?_, ?_⟩
  · intro message hqueued hrefused
    obtain ⟨link, hlink, hsaid⟩ := mem_queued.mp hqueued
    rw [← (link?_eq_some_iff.mp hlink).1] at hfits hobjects
    exact (Link.getdata_of_refused hfits hobjects harrives hsaid hrefused).2
  · simp only [← hbalanced.owner?_eq_none_iff]
    constructor
    · intro hrefusal
      obtain ⟨message, hqueued, hrefused⟩ := hrefusal
      obtain ⟨link, hlink, hsaid⟩ := mem_queued.mp hqueued
      have hnode := (link?_eq_some_iff.mp hlink).1
      rw [← hnode] at hfits hobjects ⊢
      have hlong := (Link.exists_refused_iff hfits hobjects harrives).mp
        ⟨message, hsaid, hrefused⟩
      obtain ⟨moment, handed, haction, hactive, hvectors⟩ :=
        Link.longTakeover_iff.mp hlong
      exact ⟨moment, handed, link, haction, hlink, hactive, hvectors⟩
    · intro htakeover
      obtain ⟨moment, handed, link, haction, hlink, hactive, hvectors⟩ :=
        htakeover
      rw [← (link?_eq_some_iff.mp hlink).1] at hfits hobjects hvectors
      have hlong := Link.longTakeover_iff.mpr ⟨moment, handed, haction, hactive,
        hvectors⟩
      obtain ⟨message, hsaid, hrefused⟩ :=
        (Link.exists_refused_iff hfits hobjects harrives).mpr hlong
      exact ⟨message, mem_queued.mpr ⟨link, hlink, hsaid⟩, hrefused⟩

def manyVectors : List InventoryVector :=
  (List.range (Message.mostVectors + 1)).map (Octets.ofNat 32)

theorem length_manyVectors : manyVectors.length = Message.mostVectors + 1 := by
  simp [manyVectors]

theorem nodup_manyVectors : manyVectors.Nodup := by
  refine List.Nodup.map_on ?_ List.nodup_range
  intro left hleft right hright hsame
  rw [List.mem_range, Message.mostVectors] at hleft hright
  exact Octets.ofNat_injOn (by omega) (by omega) hsame

def manyOffers : List (List InventoryVector) :=
  [manyVectors.take Message.mostVectors, manyVectors.drop Message.mostVectors]

theorem flatten_manyOffers : manyOffers.flatten = manyVectors := by
  simp [manyOffers]

theorem fits_plainNode : plainNode.profile.Fits :=
  ⟨by decide, by decide, fun answer request response h => by cases h⟩

/-- The second peer is asked for all that the first lets go of, in one message
that cannot be written. -/
theorem twoDialed_refuses_long_takeover :
    (twoDialed plainNode plainRemote).Fresh ∧ plainNode.profile.Fits ∧
      ∃ leaver, ((twoDialed plainNode plainRemote).run
          (announcements plainGreeting plainMoment manyOffers)).link? 0 =
            some leaver ∧
        ∃ message ∈ ((twoDialed plainNode plainRemote).run
            (announcements plainGreeting plainMoment manyOffers ++
              departure)).queued 1 (.reassign plainMoment
                (leaver.disconnect .closedByPeer).release.1),
          ¬ Frame.Accepts plainNode.hasher Frame.networkMagic message := by
  have hfresh := fresh_twoDialed size_requests_plainNode plainRemote
  have hshared := shared_announcements size_requests_plainNode
    welcomes_plainGreeting plainRemote plainMoment manyOffers
    fun vector _ => plainNode_serves _ vector
  obtain ⟨leaver, hleaver, hreleased⟩ := hshared.exists_released .closedByPeer
  obtain ⟨link, hlink, hactive, hnode, hseen, hfree⟩ :=
    hshared.depart (by decide) .closedByPeer
  have hrun : ((twoDialed plainNode plainRemote).run
      (announcements plainGreeting plainMoment manyOffers ++
        departure)).link? 1 = some link := by
    rw [run_append]
    exact hlink
  have hempty : ∀ vector object, ((twoDialed plainNode plainRemote).run
      (announcements plainGreeting plainMoment manyOffers ++
        departure)).node.inventory.get? vector = some object →
      Frame.Accepts plainNode.hasher Frame.networkMagic (.object object) := by
    intro vector object hheld
    rw [← (link?_eq_some_iff.mp hrun).1, hnode.inventory] at hheld
    simp [plainNode, Inventory.get?] at hheld
  rw [(link?_eq_some_iff.mp hrun).1] at hfree
  rw [flatten_manyOffers] at hreleased hseen
  refine ⟨hfresh, fits_plainNode, leaver, hleaver, ?_⟩
  refine (encoder_refuses_iff_long_takeover _ hfresh fits_plainNode _ 1
    (.reassign plainMoment _) _ _ (fun moment message h => by cases h)
    hempty).2.mpr ?_
  refine ⟨plainMoment, _, link, rfl, hrun, ?_, manyVectors,
    nodup_manyVectors, ?_, ?_⟩
  · simp [Connection.isActive, hactive]
  · rw [length_manyVectors]
    exact Nat.lt_succ_self _
  · intro vector hmem
    refine ⟨hreleased vector hmem,
      ⟨plainMoment.instant, hseen vector hmem, ?_⟩, ?_⟩
    · exact (Nat.sub_self plainMoment.instant).le.trans (Nat.zero_le _)
    · exact (hfresh.balanced.run _).owner?_eq_none_iff.mp (hfree vector)

end Hub

end ObjectRelay
