import ObjectRelay.Connection.Lifetime

namespace ObjectRelay

/-- What the connections of a node may say without asking for anything. -/
inductive Node.Utterance (node : Node) : Message → Prop where
  | greeting (remote : SocketAddress) (clock : Int64) :
      Utterance node (.version (node.greeting remote clock))
  | verack : Utterance node .verack
  | answer {answer : CustomMessage → Option CustomMessage}
      {request response : CustomMessage}
      (hanswer : node.profile.answer? = some answer)
        (hresponse : answer request = some response) :
      Utterance node (.custom response)
  | addresses (moment : Moment) :
      Utterance node
        (.addr (node.knownAddresses moment Message.mostAddresses
          node.profile.streams))
  | inventory {streams : List UInt64} {message : Message}
      (h : message ∈ Message.announce (node.inventory.vectors streams)) :
      Utterance node message
  | offer (vector : InventoryVector) : Utterance node (.inv [vector])
  | object {vector : InventoryVector} {object : Object}
      (h : node.inventory.get? vector = some object) :
      Utterance node (.object object)

theorem Message.eq_inv_of_mem_announce {vectors : List InventoryVector}
    {message : Message} (h : message ∈ announce vectors) :
    ∃ part, message = .inv part ∧ part.length ≤ mostVectors := by
  fun_induction announce vectors with
  | case1 => cases h
  | case2 vector rest ih =>
      rcases List.mem_cons.mp h with rfl | hrest
      · refine ⟨_, rfl, ?_⟩
        rw [List.length_cons, List.length_take]
        have hmost : mostVectors = mostVectors - 1 + 1 := rfl
        omega
      · exact ih hrest

theorem Message.exists_inv_mem_announce_iff {vectors : List InventoryVector}
    {vector : InventoryVector} :
    (∃ part, .inv part ∈ announce vectors ∧ vector ∈ part) ↔
    vector ∈ vectors := by
  fun_induction announce vectors with
  | case1 => simp
  | case2 first rest ih =>
      have hsplit : vector ∈ rest ↔ vector ∈ rest.take (mostVectors - 1) ∨
          vector ∈ rest.drop (mostVectors - 1) := by
        rw [← List.mem_append, List.take_append_drop]
      rw [List.mem_cons, hsplit, ← ih]
      constructor
      · rintro ⟨part, hpart, hvector⟩
        rcases List.mem_cons.mp hpart with hfirst | hlater
        · rw [Message.inv.inj hfirst, List.mem_cons] at hvector
          rcases hvector with hsame | htaken
          · exact .inl hsame
          · exact .inr (.inl htaken)
        · exact .inr (.inr ⟨part, hlater, hvector⟩)
      · rintro (hsame | htaken | ⟨part, hpart, hvector⟩)
        · exact ⟨_, List.mem_cons_self, List.mem_cons.mpr (.inl hsame)⟩
        · exact ⟨_, List.mem_cons_self, List.mem_cons.mpr (.inr htaken)⟩
        · exact ⟨part, List.mem_cons_of_mem _ hpart, hvector⟩

theorem Node.Utterance.ne_getdata {node : Node} {message : Message}
    (h : node.Utterance message) (vectors : List InventoryVector) :
    message ≠ .getdata vectors := by
  cases h with
  | greeting remote clock => exact Message.noConfusion
  | verack => exact Message.noConfusion
  | answer hanswer hresponse => exact Message.noConfusion
  | addresses moment => exact Message.noConfusion
  | inventory hmem =>
      obtain ⟨part, rfl, -⟩ := Message.eq_inv_of_mem_announce hmem
      exact Message.noConfusion
  | offer vector => exact Message.noConfusion
  | object hheld => exact Message.noConfusion

/-- What a link holds and awaits, whatever is said over it. -/
structure Stock where
  profile : Profile
  engine : WorkEngine
  inventory : Inventory
  requests : RequestLedger
  id : PeerId
  mode : Mode
  outstanding : Std.HashSet InventoryVector
  lastObjectAt : Nat
  received : Nat

namespace Link

def stock (link : Link) : Stock where
  profile := link.node.profile
  engine := link.node.engine
  inventory := link.node.inventory
  requests := link.node.requests
  id := link.connection.id
  mode := link.connection.mode
  outstanding := link.connection.outstanding
  lastObjectAt := link.connection.lastObjectAt
  received := link.connection.received

/-- The stock is the same, and only allowed messages were queued. -/
structure Speaks (allowed : Message → Prop) (before after : Link) : Prop where
  stock : after.stock = before.stock
  queue : ∃ said, after.connection.queue = before.connection.queue ++ said ∧
    ∀ message ∈ said, allowed message

variable {allowed : Message → Prop} {before middle after : Link}

theorem Speaks.silent (hstock : after.stock = before.stock)
    (hqueue : after.connection.queue = before.connection.queue) :
    Speaks allowed before after :=
  ⟨hstock, [], by rw [hqueue, List.append_nil], by simp⟩

theorem Speaks.refl (link : Link) : Speaks allowed link link :=
  Speaks.silent rfl rfl

theorem Speaks.trans (hfirst : Speaks allowed before middle)
    (hsecond : Speaks allowed middle after) : Speaks allowed before after := by
  obtain ⟨hstock, first, hqueue, hallowed⟩ := hfirst
  obtain ⟨hstock', second, hqueue', hallowed'⟩ := hsecond
  refine ⟨hstock'.trans hstock, first ++ second, ?_, ?_⟩
  · rw [hqueue', hqueue, List.append_assoc]
  · intro message hmem
    rcases List.mem_append.mp hmem with hmem | hmem
    · exact hallowed message hmem
    · exact hallowed' message hmem

theorem speaks_send (link : Link) {message : Message} (h : allowed message) :
    Speaks allowed link (link.send message) :=
  ⟨rfl, [message], rfl, by simpa using h⟩

theorem speaks_foldl_send (link : Link) {messages : List Message}
    (h : ∀ message ∈ messages, allowed message) :
    Speaks allowed link (messages.foldl send link) := by
  induction messages generalizing link with
  | nil => exact Speaks.refl link
  | cons message rest ih =>
      have hrest : ∀ message ∈ rest, allowed message :=
        fun message hmem => h message (List.mem_cons_of_mem _ hmem)
      exact (speaks_send link (h message List.mem_cons_self)).trans (ih _ hrest)

theorem speaks_disconnect (link : Link) (reason : DisconnectReason) :
    Speaks allowed link (link.disconnect reason) := by
  obtain ⟨node, connection⟩ := link
  cases hphase : connection.phase <;>
    simp only [disconnect, Connection.disconnect, hphase] <;>
    exact Speaks.silent rfl rfl

variable (link : Link) (moment : Moment)

theorem speaks_greet : Speaks link.node.Utterance link (link.greet moment) :=
  speaks_send link (.greeting link.connection.remote moment.clock)

theorem speaks_start : Speaks link.node.Utterance link (link.start moment) := by
  unfold start
  split
  · exact Speaks.refl link
  · exact speaks_greet link moment
  · exact speaks_greet link moment

theorem speaks_tellAddresses :
    Speaks link.node.Utterance link (link.tellAddresses moment) := by
  unfold tellAddresses
  dsimp only
  split
  · exact Speaks.refl link
  · split
    · exact Speaks.refl link
    · exact speaks_send link (.addresses moment)

theorem speaks_learnPeer : Speaks allowed link (link.learnPeer moment) :=
  Speaks.silent rfl rfl

theorem speaks_tellInventory {node : Node}
    (h : link.node.inventory = node.inventory) :
    Speaks node.Utterance link link.tellInventory := by
  apply speaks_foldl_send
  intro message hmem
  rw [h] at hmem
  exact .inventory hmem

theorem speaks_activate :
    Speaks link.node.Utterance link (link.activate moment) := by
  let opened : Link := { link with
    connection := { link.connection with
      phase := .active, lastActivity := moment.instant } }
  have hopened : Speaks link.node.Utterance link opened :=
    Speaks.silent rfl rfl
  have htold := hopened.trans (speaks_tellAddresses opened moment)
  have hlearnt := htold.trans (speaks_learnPeer _ moment)
  exact hlearnt.trans
    (speaks_tellInventory _ (congrArg Stock.inventory hlearnt.stock))

theorem speaks_meet (greeting : Greeting) :
    Speaks allowed link (link.meet greeting) :=
  Speaks.silent rfl rfl

theorem speaks_receiveGreeting (greeting : Greeting) :
    Speaks link.node.Utterance link
      (link.receiveGreeting moment greeting).1 := by
  have hmet :
      Speaks link.node.Utterance link ((link.meet greeting).send .verack) :=
    (speaks_meet link greeting).trans (speaks_send _ .verack)
  unfold receiveGreeting
  dsimp only
  split
  · exact speaks_disconnect link _
  · split
    · exact speaks_disconnect link _
    · split
      · exact speaks_disconnect link _
      · split
        · exact hmet.trans
            (speaks_greet ((link.meet greeting).send .verack) moment)
        · exact hmet.trans
            (speaks_activate ((link.meet greeting).send .verack) moment)
        · exact hmet.trans
            (speaks_activate ((link.meet greeting).send .verack) moment)

theorem speaks_receiveVerack :
    Speaks link.node.Utterance link (link.receiveVerack moment).1 := by
  unfold receiveVerack
  split
  · split
    · exact speaks_activate link moment
    · exact speaks_disconnect link _
  · exact Speaks.refl link
  · exact Speaks.refl link

theorem speaks_receiveCustom (request : CustomMessage) :
    Speaks link.node.Utterance link (link.receiveCustom request) := by
  unfold receiveCustom
  split
  · rename_i answer _ _ hanswer
    cases hresponse : answer request with
    | none => exact speaks_disconnect link _
    | some response =>
        exact (speaks_send link (.answer hanswer hresponse)).trans
          (speaks_disconnect _ _)
  · exact speaks_disconnect link _

theorem speaks_receiveConnecting (message : Message) :
    Speaks link.node.Utterance link
      (link.receiveConnecting moment message).1 := by
  unfold receiveConnecting
  split
  · exact speaks_receiveGreeting link moment _
  · exact speaks_receiveVerack link moment
  · exact speaks_receiveCustom link _
  · exact Speaks.refl link

theorem speaks_remember (vector : InventoryVector) (now : Nat) :
    Speaks allowed link (link.remember vector now) :=
  Speaks.silent rfl rfl

theorem speaks_serve {node : Node} (vector : InventoryVector)
    (h : link.node.inventory = node.inventory) :
    Speaks node.Utterance link (serve moment link vector) := by
  unfold serve
  split
  · rename_i object hobject
    rw [h] at hobject
    exact (speaks_remember link vector _).trans
      (speaks_send _ (.object hobject))
  · exact Speaks.refl link

theorem speaks_receiveRequest (vectors : List InventoryVector) :
    Speaks link.node.Utterance link (link.receiveRequest moment vectors) := by
  have hrun : ∀ (rest : List InventoryVector) (later : Link),
      Speaks link.node.Utterance link later →
        Speaks link.node.Utterance link (rest.foldl (serve moment) later) := by
    intro rest
    induction rest with
    | nil => exact fun later h => h
    | cons vector rest ih =>
        exact fun later h => ih _ (h.trans (speaks_serve later moment vector
          (congrArg Stock.inventory h.stock)))
  exact hrun vectors link (Speaks.refl link)

theorem speaks_offer (vector : InventoryVector) :
    Speaks link.node.Utterance link (link.offer moment vector) := by
  unfold offer
  dsimp only
  split
  · exact (speaks_remember link vector _).trans (speaks_send _ (.offer vector))
  · exact Speaks.refl link

theorem speaks_tick (now : Nat) : Speaks allowed link (link.tick now) := by
  unfold tick
  split
  · exact speaks_disconnect link _
  · exact Speaks.refl link

end Link

end ObjectRelay
