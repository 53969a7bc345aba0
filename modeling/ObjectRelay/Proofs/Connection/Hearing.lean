import ObjectRelay.Proofs.Connection.Meeting

namespace ObjectRelay

namespace Message

/-- What carries an object, or leads to it. -/
def IsRelay : Message → Prop
  | inv _ | getdata _ | object _ => True
  | version _ | verack | addr _ | custom _ | unknown _ _ => False

end Message

namespace Link

variable {link : Link} {message : Message}

/-- What the connection says when it hears a word, and what it makes of it. -/
inductive Hears (other : Profile) (link : Link) (moment : Moment) :
    Message → List Message → Link → Prop where
  | talks {message : Message} {said : List Message} {after : Link}
      (hmessage : ¬ message.IsRelay) (hsaid : ∀ word ∈ said, ¬ word.IsRelay)
      (hstock : after.stock = link.stock)
      (hactive : after.connection.isActive = link.connection.isActive) :
      Hears other link moment message said after
  | opens {message : Message} (words : List Message) {said : List Message}
      {after : Link}
      (hmessage : ¬ message.IsRelay) (hwords : ∀ word ∈ words, ¬ word.IsRelay)
      (hstock : after.stock = link.stock) (hopens : Opens other after said) :
      Hears other link moment message (words ++ said) after
  | asks {vectors : List InventoryVector} {after : Link}
      (hactive : link.connection.isActive = true)
      (h : Asks (link.node.inventory.missing vectors link.node.profile.streams)
        moment.instant link after) :
      Hears other link moment (.inv vectors)
        (requestFor (link.asked
          (link.node.inventory.missing vectors link.node.profile.streams)))
            after
  | serves {vectors : List InventoryVector} {after : Link}
      (hactive : link.connection.isActive = true) (hstock : after.stock =
        link.stock) :
      Hears other link moment (.getdata vectors)
        ((vectors.filterMap link.node.inventory.get?).map .object) after
  | takes {object : Object} {after : Link}
      (hactive : link.connection.isActive = true)
      (h : ∀ vector, object.vector link.node.hasher = .ok vector →
        Delivers moment vector object link after) :
      Hears other link moment (.object object) [] after

theorem Floods.ne_getdata {said : List Message} (h : link.Floods said)
    (hmem : message ∈ said) (vectors : List InventoryVector) :
    message ≠ .getdata vectors := by
  obtain ⟨told, htold, rfl⟩ := h
  rcases List.mem_append.mp hmem with haddress | hannounced
  · obtain ⟨records, rfl⟩ := htold message haddress
    exact Message.noConfusion
  · obtain ⟨part, rfl, -⟩ := Message.eq_inv_of_mem_announce hannounced
    exact Message.noConfusion

theorem exists_hears_of_gossip (other : Profile)
    (hphase : link.connection.phase = .active) (hgossip : message.IsGossip)
    (moment : Moment) :
    let after := link.perform (.receive moment message)
    ∃ said, Hears other link moment message said after ∧
      after.connection.queue = link.connection.queue ++ said := by
  have hactive : link.connection.isActive =
      true := by simp [Connection.isActive, hphase]
  cases message with
  | inv vectors =>
      have hasks := asks_announcement moment vectors hphase
      exact ⟨_, .asks hactive hasks, hasks.queue⟩
  | getdata vectors =>
      obtain ⟨known, hserved⟩ :=
        exists_receiveRequest_eq (link.hear moment.instant) moment vectors
      rw [perform_receive_of_active hphase, receiveActive, hserved]
      exact ⟨_, .serves hactive rfl, rfl⟩
  | object object =>
      refine ⟨[], .takes hactive fun vector hvector =>
        delivers_perform hactive hvector moment, ?_⟩
      rw [perform_receive_of_active hphase]
      exact (queue_receiveObject _ moment object).trans (List.append_nil _).symm
  | addr records =>
      rw [perform_receive_of_active hphase]
      exact ⟨[], .talks (fun h => h) (by simp) rfl rfl,
        (List.append_nil _).symm⟩
  | _ => exact hgossip.elim

end Link

end ObjectRelay
