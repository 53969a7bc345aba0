import ObjectRelay.Proofs.Hub.Asking
import ObjectRelay.Proofs.Hub.Takeover

namespace ObjectRelay

/-! Many peers announce what they have, in any order and as often as they like.
The node asks for each thing that it lacks, once, and remembers who has it. -/

structure Announcement where
  peer : PeerId
  offer : List InventoryVector

namespace Hub

/-- Each announcement is heard at its own moment. -/
def hearing (heard : List (Moment × Announcement)) : List Step :=
  heard.map fun entry =>
    .act entry.2.peer (.receive entry.1 (.inv entry.2.offer))

/-- The node does not serve the vector and has asked nobody for it. -/
def Lacks (hub : Hub) (vector : InventoryVector) : Prop :=
  hub.node.inventory.serves hub.node.profile.streams vector = false ∧
    hub.node.requests.owner? vector = none

/-- The connections on which the announcements come are active. -/
def Attends (hub : Hub) (heard : List (Moment × Announcement)) : Prop :=
  ∀ entry ∈ heard, ∃ link, hub.link? entry.2.peer = some link ∧
    link.connection.phase = .active

/-- An announcement names what is missing from this node's inventory. -/
def Announces (node : Node) (_ : PeerId) (action : Action)
    (vector : InventoryVector) : Prop :=
  ∃ moment offer, action = .receive moment (.inv offer) ∧
    vector ∈ node.inventory.missing offer node.profile.streams

variable {hub : Hub} {node : Node} {heard : List (Moment × Announcement)}
  {id peer : PeerId} {link speaker : Link} {moment : Moment}
  {offer : List InventoryVector} {vector : InventoryVector}

theorem exists_announces_iff :
    (∃ id action, .act id action ∈ hearing heard ∧
      Announces node id action vector) ↔
      node.inventory.serves node.profile.streams vector = false ∧
        ∃ entry ∈ heard, vector ∈ entry.2.offer := by
  constructor
  · rintro ⟨id, action, hmem, moment, offer, rfl, hmissing⟩
    obtain ⟨entry, hentry, hsame⟩ := List.mem_map.mp hmem
    cases hsame
    obtain ⟨hoffered, hunserved⟩ := Inventory.mem_missing.mp hmissing
    exact ⟨hunserved, entry, hentry, hoffered⟩
  · rintro ⟨hunserved, entry, hentry, hoffered⟩
    exact ⟨_, _, List.mem_map.mpr ⟨entry, hentry, rfl⟩, _, _, rfl,
      Inventory.mem_missing.mpr ⟨hoffered, hunserved⟩⟩

theorem exists_link?_announcement (hspeaker : hub.link? peer = some speaker)
    (hactive : speaker.connection.phase = .active) (moment : Moment)
    (offer : List InventoryVector) (hlink : hub.link? id = some link) :
    ∃ after, (hub.step (.act peer (.receive moment (.inv offer)))).link? id =
      some after ∧
      after.connection.phase = link.connection.phase ∧
      after.connection.known =
        if id = peer then link.connection.known.extend offer moment.instant
        else link.connection.known := by
  have hname := speaker.id_perform (.receive moment (.inv offer))
  obtain ⟨hphase, hknown⟩ := Link.perform_announcement hactive moment offer
  rw [step_act hspeaker]
  by_cases hsame : id = peer
  · subst hsame
    rw [hspeaker, Option.some_inj] at hlink
    subst hlink
    rw [if_pos rfl]
    exact ⟨_, link?_put_self hspeaker hname, hphase.trans hactive.symm, hknown⟩
  · rw [if_neg hsame]
    exact ⟨_, link?_put_other hspeaker hname hlink hsame, rfl, rfl⟩

theorem resembles_announcement (hspeaker : hub.link? peer = some speaker)
    (hactive : speaker.connection.phase = .active) (moment : Moment)
    (offer : List InventoryVector) :
    (hub.step (.act peer (.receive moment (.inv offer)))).node.Resembles
      hub.node := by
  rw [step_act hspeaker, ← (link?_eq_some_iff.mp hspeaker).1]
  exact (Link.asks_announcement moment offer hactive).resembles

theorem Attends.tail {entry : Moment × Announcement}
    (h : hub.Attends (entry :: heard)) :
    (hub.step (.act entry.2.peer
      (.receive entry.1 (.inv entry.2.offer)))).Attends heard := by
  obtain ⟨speaker, hspeaker, hactive⟩ := h entry List.mem_cons_self
  intro later hlater
  obtain ⟨link, hlink, hphase⟩ := h later (List.mem_cons_of_mem _ hlater)
  obtain ⟨after, hafter, hsame, -⟩ :=
    exists_link?_announcement hspeaker hactive entry.1 entry.2.offer hlink
  exact ⟨after, hafter, hsame.trans hphase⟩

theorem Attends.asking (h : hub.Attends heard)
    (hnode : hub.node.Resembles node) :
    Asking (Announces node) hub (hearing heard) := by
  induction heard generalizing hub with
  | nil => exact .nil
  | cons entry rest ih =>
      obtain ⟨speaker, hspeaker, hactive⟩ := h entry List.mem_cons_self
      have hsame :=
        resembles_announcement hspeaker hactive entry.1 entry.2.offer
      refine .cons hspeaker
        (Link.asks_announcement entry.1 entry.2.offer hactive)
        (fun vector => ?_) (ih h.tail (hsame.trans hnode))
      rw [(link?_eq_some_iff.mp hspeaker).1, hnode.inventory, hnode.profile]
      constructor
      · exact fun hmissing => ⟨entry.1, entry.2.offer, rfl, hmissing⟩
      · rintro ⟨moment, offer, haction, hmissing⟩
        cases haction
        exact hmissing

theorem Attends.earlier {before after : List (Moment × Announcement)}
    (h : hub.Attends (before ++ after)) : hub.Attends before :=
  fun entry hentry => h entry (List.mem_append_left after hentry)

/-- Connections stay as they are but for what their peers are known to have. -/
theorem Attends.exists_link?_run (h : hub.Attends heard)
    (hlink : hub.link? id = some link) :
    ∃ after, (hub.run (hearing heard)).link? id = some after ∧
      after.connection.phase = link.connection.phase ∧
      (∀ vector, link.connection.known.seen.contains vector = true →
        after.connection.known.seen.contains vector = true) ∧
      ∀ entry ∈ heard, entry.2.peer = id → ∀ vector ∈ entry.2.offer,
        after.connection.known.seen.contains vector = true := by
  induction heard generalizing hub link with
  | nil => exact ⟨link, hlink, rfl, fun _ hknown => hknown, by simp⟩
  | cons entry rest ih =>
      obtain ⟨speaker, hspeaker, hactive⟩ := h entry List.mem_cons_self
      obtain ⟨middle, hmiddle, hphase, hextended⟩ :=
        exists_link?_announcement hspeaker hactive entry.1 entry.2.offer hlink
      have hextends : ∀ vector,
          middle.connection.known.seen.contains vector = true ↔
          id = entry.2.peer ∧ vector ∈ entry.2.offer ∨
            link.connection.known.seen.contains vector = true := by
        intro vector
        rw [hextended]
        split
        · rename_i hsame
          rw [Std.HashMap.contains_eq_isSome_getElem?,
            KnownVectors.getElem?_extend]
          by_cases hoffered : vector ∈ entry.2.offer
          · simp [hsame, hoffered]
          · simp [hoffered]
        · rename_i hother
          simp [hother]
      obtain ⟨after, hafter, hsame, hkept, hlater⟩ := ih h.tail hmiddle
      refine ⟨after, hafter, hsame.trans hphase, ?_, ?_⟩
      · exact fun vector hknown =>
          hkept vector ((hextends vector).mpr (.inr hknown))
      · intro other hother hpeer vector hoffered
        rcases List.mem_cons.mp hother with rfl | hrest
        · exact hkept vector
            ((hextends vector).mpr (.inl ⟨hpeer.symm, hoffered⟩))
        · exact hlater other hrest hpeer vector hoffered

theorem Attends.resembles_run (h : hub.Attends heard) :
    (hub.run (hearing heard)).node.Resembles hub.node := by
  induction heard generalizing hub with
  | nil => exact ⟨rfl, rfl, rfl⟩
  | cons entry rest ih =>
      obtain ⟨speaker, hspeaker, hactive⟩ := h entry List.mem_cons_self
      exact (ih h.tail).trans
        (resembles_announcement hspeaker hactive entry.1 entry.2.offer)

theorem Attends.exists_queued_eq {before after : List (Moment × Announcement)}
    {entry : Moment × Announcement}
    (h : hub.Attends (before ++ entry :: after)) :
    ∃ asked, (hub.run (hearing before)).queued entry.2.peer
        (.receive entry.1 (.inv entry.2.offer)) = Link.requestFor asked ∧
      asked.Sublist (distinct entry.2.offer) ∧
      ∀ vector, vector ∈ asked ↔ vector ∈ entry.2.offer ∧ hub.Lacks vector ∧
        ∀ earlier ∈ before, vector ∉ earlier.2.offer := by
  obtain ⟨first, hfirst, hactive⟩ := h entry (by simp)
  obtain ⟨link, hlink, hphase, -⟩ := h.earlier.exists_link?_run hfirst
  have hasks :=
    Link.asks_announcement entry.1 entry.2.offer (hphase.trans hactive)
  have hnode := h.earlier.resembles_run
  refine ⟨_, (queued_of_link? hlink _).trans (Link.queued_eq hasks.queue), ?_,
    ?_⟩
  · exact (RequestLedger.claim_sublist _ _ _).trans List.filter_sublist
  · intro vector
    have hearlier := not_congr (@exists_announces_iff hub.node before vector)
    push Not at hearlier
    rw [mem_asked_iff hlink,
      (h.earlier.asking ⟨rfl, rfl, rfl⟩).owner?_eq_none_iff, hearlier,
      Inventory.mem_missing, (link?_eq_some_iff.mp hlink).1, hnode.inventory,
      hnode.profile, Lacks]
    tauto

theorem exists_mem_of_perm {left right : List (Moment × Announcement)}
    {entry : Moment × Announcement}
    (hperm : (left.map (·.2)).Perm (right.map (·.2))) (h : entry ∈ left) :
    ∃ same ∈ right, same.2 = entry.2 :=
  List.mem_map.mp (hperm.mem_iff.mp (List.mem_map_of_mem h))

section

variable {other : List (Moment × Announcement)}
  (hperm : (other.map (·.2)).Perm (heard.map (·.2)))

include hperm

theorem Attends.perm (h : hub.Attends heard) : hub.Attends other := by
  intro entry hentry
  obtain ⟨same, hsame, hannouncement⟩ := exists_mem_of_perm hperm hentry
  rw [← hannouncement]
  exact h same hsame

theorem exists_offered_iff_of_perm :
    (∃ entry ∈ other, vector ∈ entry.2.offer) ↔ ∃ entry ∈ heard,
      vector ∈ entry.2.offer := by
  constructor
  · rintro ⟨entry, hentry, hoffered⟩
    obtain ⟨same, hsame, hannouncement⟩ := exists_mem_of_perm hperm hentry
    exact ⟨same, hsame, hannouncement ▸ hoffered⟩
  · rintro ⟨entry, hentry, hoffered⟩
    obtain ⟨same, hsame, hannouncement⟩ := exists_mem_of_perm hperm.symm hentry
    exact ⟨same, hsame, hannouncement ▸ hoffered⟩

end

/-- Every vector that the node lacks and that is announced is asked for in one
request, once, of a peer that announced it, and nothing else is asked for.  Each
announcement leads to one request at most, for what was still free, in the order
of the announcement.  What is asked for is the same in whatever order and
whenever the announcements are heard, and each peer is known to have what it
announced. -/
theorem announced_requested_once (hub : Hub)
    (heard : List (Moment × Announcement)) (hattends : hub.Attends heard) :
    (∀ vector, hub.Lacks vector → (∃ entry ∈ heard, vector ∈ entry.2.offer) →
      ∃ entry ∈ heard, ∃ vectors, vector ∈ entry.2.offer ∧
        hub.requestsFor (hearing heard) vector =
          [(entry.2.peer, .getdata vectors)] ∧
        vectors.count vector = 1) ∧
    (∀ vector, ¬ (hub.Lacks vector ∧ ∃ entry ∈ heard, vector ∈ entry.2.offer) →
      hub.requestsFor (hearing heard) vector = []) ∧
    (∀ before entry after, heard = before ++ entry :: after →
      ∃ asked, (hub.run (hearing before)).queued entry.2.peer
          (.receive entry.1 (.inv entry.2.offer)) = Link.requestFor asked ∧
        asked.Sublist (distinct entry.2.offer) ∧
        ∀ vector, vector ∈ asked ↔ vector ∈ entry.2.offer ∧ hub.Lacks vector ∧
          ∀ earlier ∈ before, vector ∉ earlier.2.offer) ∧
    (∀ other : List (Moment × Announcement),
      (other.map (·.2)).Perm (heard.map (·.2)) →
      ∀ vector, hub.requestsFor (hearing other) vector = [] ↔
        hub.requestsFor (hearing heard) vector = []) ∧
    ∀ entry ∈ heard, ∃ link, (hub.run (hearing heard)).link? entry.2.peer =
      some link ∧
      ∀ vector ∈ entry.2.offer, link.connection.known.seen.contains vector =
        true := by
  have hasking : Asking (Announces hub.node) hub (hearing heard) :=
    hattends.asking ⟨rfl, rfl, rfl⟩
  refine ⟨?_, ?_, ?_, ?_, ?_⟩
  · intro vector hlacks hannounced
    obtain ⟨id, action, vectors, hmem, ⟨moment, offer, rfl, hmissing⟩, hone,
      hcount, -⟩ :=
      hasking.settle hlacks.2 (exists_announces_iff.mpr ⟨hlacks.1, hannounced⟩)
    obtain ⟨entry, hentry, hsame⟩ := List.mem_map.mp hmem
    cases hsame
    exact ⟨entry, hentry, vectors, (Inventory.mem_missing.mp hmissing).1,
      hone, hcount⟩
  · intro vector hpassed
    rw [hasking.requestsFor_eq_nil_iff, exists_announces_iff]
    exact fun hwanted => hpassed ⟨⟨hwanted.2.1, hwanted.1⟩, hwanted.2.2⟩
  · rintro before entry after rfl
    exact hattends.exists_queued_eq
  · intro other hperm vector
    rw [((hattends.perm hperm).asking ⟨rfl, rfl, rfl⟩).requestsFor_eq_nil_iff,
      hasking.requestsFor_eq_nil_iff, exists_announces_iff,
      exists_announces_iff, exists_offered_iff_of_perm hperm]
  · intro entry hentry
    obtain ⟨first, hfirst, -⟩ := hattends entry hentry
    obtain ⟨link, hlink, -, -, hknown⟩ := hattends.exists_link?_run hfirst
    exact ⟨link, hlink, hknown entry hentry rfl⟩

def twoActive : Hub where
  node := plainNode
  connections := [
    { Connection.opened 0 .client plainRemote 0 with phase := .active },
    { Connection.opened 1 .server plainRemote 0 with phase := .active }]
  nodup_ids := by simp [Connection.opened]

def overlappingOffers : List (Moment × Announcement) :=
  [(plainMoment, ⟨1, [.ofNat 32 0, .ofNat 32 1, .ofNat 32 0]⟩),
    (plainMoment, ⟨0, [.ofNat 32 1, .ofNat 32 2]⟩)]

theorem attends_overlappingOffers : twoActive.Attends overlappingOffers := by
  intro entry hentry
  rcases List.mem_pair.mp hentry with rfl | rfl
  · exact ⟨_, rfl, rfl⟩
  · exact ⟨_, rfl, rfl⟩

theorem lacks_twoActive (vector : InventoryVector) : twoActive.Lacks vector :=
  ⟨plainNode_serves _ vector,
    RequestLedger.owner?_eq_none_of_size_eq_zero size_requests_plainNode vector⟩

/-- What both announce is asked for once, and both are known to have it. -/
theorem overlappingOffers_requested_once :
    twoActive.Attends overlappingOffers ∧ twoActive.Lacks (.ofNat 32 1) ∧
      (∃ entry ∈ overlappingOffers, ∃ vectors,
        twoActive.requestsFor (hearing overlappingOffers) (.ofNat 32 1) =
          [(entry.2.peer, .getdata vectors)] ∧
          vectors.count (.ofNat 32 1) = 1) ∧
      ∀ peer, peer = 0 ∨ peer = 1 → ∃ link,
        (twoActive.run (hearing overlappingOffers)).link? peer =
        some link ∧ link.connection.known.seen.contains (.ofNat 32 1) =
          true := by
  obtain ⟨honce, -, -, -, hknown⟩ :=
    announced_requested_once twoActive overlappingOffers
      attends_overlappingOffers
  refine ⟨attends_overlappingOffers, lacks_twoActive _, ?_, ?_⟩
  · obtain ⟨entry, hentry, vectors, -, hone, hcount⟩ :=
      honce (.ofNat 32 1) (lacks_twoActive _) ⟨_, List.mem_cons_self, by simp⟩
    exact ⟨entry, hentry, vectors, hone, hcount⟩
  · rintro peer (rfl | rfl)
    · obtain ⟨link, hlink, hall⟩ :=
        hknown _ (List.mem_cons_of_mem _ List.mem_cons_self)
      exact ⟨link, hlink, hall _ (by simp)⟩
    · obtain ⟨link, hlink, hall⟩ := hknown _ List.mem_cons_self
      exact ⟨link, hlink, hall _ (by simp)⟩

end Hub

end ObjectRelay
