import ObjectRelay.Proofs.Connection.Memory
import ObjectRelay.Proofs.Hub.Basic
import ObjectRelay.Proofs.Peer.Table
import ObjectRelay.Service.Session

namespace ObjectRelay

namespace Connection

/-- Writing takes messages out of the queue, and may end the connection. -/
theorem writeQueue_keeps (hasher : Hasher) (magic : Frame.Magic)
    (connection : Connection) (messages : List Message) :
    (connection.writeQueue hasher magic messages).2.id = connection.id ∧
      (connection.writeQueue hasher magic messages).2.known =
        connection.known := by
  fun_induction writeQueue hasher magic connection messages with
  | case1 => exact ⟨rfl, rfl⟩
  | case2 message rest failure hencode =>
      unfold disconnect
      split <;> exact ⟨rfl, rfl⟩
  | case3 message rest frame hencode frames after hrest ih =>
      rw [hrest] at ih
      exact ih

end Connection

namespace Service

open KnownVectors (Ages)

/-- What is done to a service, one message at a time.  Bytes that are left over
wait for more. -/
inductive Step where
  | join (mode : Mode) (remote : SocketAddress)
  | hear (id : PeerId) (message : Message)
  | await (id : PeerId) (unread : Bytes)
  | attend (id : PeerId)
  | tick (id : PeerId)
  | leave (id : PeerId) (reason : DisconnectReason)
  | publish (object : Object)
  | sweep
  | work (chore : Chore)

def await (service : Service) (id : PeerId) (unread : Bytes) : Service :=
  match service.sessions[id]? with
  | none => service
  | some session =>
      { service with
        sessions := service.sessions.insert id { session with
          unread := unread } }

def step (service : Service) (moment : Moment) : Step → Service
  | .join mode remote => (service.openSession moment mode remote).2.2
  | .hear id message => (service.advance moment id (·.receive moment message)).2
  | .await id unread => service.await id unread
  | .attend id => (service.attend moment id).2
  | .tick id => (service.tick moment id).2
  | .leave id reason => (service.disconnect moment id reason).2
  | .publish object => (service.publish moment object).2
  | .sweep => (service.sweep moment).2
  | .work chore => { service with node := service.node.work chore }

def run (service : Service) (steps : List (Moment × Step)) : Service :=
  steps.foldl (fun service entry => service.step entry.1 entry.2) service

/-- Sessions and peers go by their names, which were given, and all that is
known of a peer is known for the same time. -/
structure Orderly (service : Service) : Prop where
  named : ∀ (id : PeerId) (session : Session),
    service.sessions[id]? = some session →
    session.connection.id = id ∧ id < service.nextId
  numbered : ∀ id peer, service.peers.get? id = some peer → id < service.nextId
  lasting : ∀ id peer, service.peers.get? id = some peer →
    peer.known.lifetime = ({} : KnownVectors).lifetime

/-- Nobody joins, sessions keep their names, and what is known of the peers
ages. -/
structure Passes (now : Nat) (before after : Service) : Prop where
  nextId : after.nextId = before.nextId
  sessions : ∀ (id : PeerId) (session : Session),
    after.sessions[id]? = some session →
    ∃ held, before.sessions[id]? = some held ∧
      (held.connection.id = id → session.connection.id = id)
  peers : before.peers.Ages now after.peers

variable {service before middle after : Service} {moment : Moment} {id : PeerId}
  {now : Nat} {session : Session} {link : Link}

theorem run_append (service : Service) (first second : List (Moment × Step)) :
    service.run (first ++ second) = (service.run first).run second :=
  List.foldl_append

theorem receiveAll_eq_run (service : Service) (moment : Moment) (id : PeerId)
    (messages : List Message) :
    (service.receiveAll moment id messages).2 =
      service.run (messages.map fun message => (moment, .hear id message)) := by
  induction messages generalizing service with
  | nil => rfl
  | cons message rest ih => exact ih _

theorem exists_receive_eq_run (service : Service) (moment : Moment)
    (id : PeerId) (bytes : Bytes) :
    ∃ steps, (∀ entry ∈ steps, entry.1 = moment) ∧
      (service.receive moment id bytes).2 = service.run steps := by
  unfold receive
  split
  · exact ⟨[], by simp, rfl⟩
  · rename_i session hsession
    dsimp only
    generalize Frame.decodeAll service.node.hasher service.settings.magic
      (session.unread ++ bytes) = decoded
    obtain ⟨messages, failure?, unread⟩ := decoded
    let waiting := { service with
      sessions := service.sessions.insert id { session with unread := unread } }
    have hwaiting : service.await id unread = waiting := by rw [await, hsession]
    let heard := (moment, Step.await id unread) ::
      messages.map fun message => (moment, .hear id message)
    have hheard : (waiting.receiveAll moment id messages).2 =
        service.run heard := by
      rw [receiveAll_eq_run, ← hwaiting]
      rfl
    have hmoment : ∀ entry ∈ heard, entry.1 = moment := by
      intro entry hentry
      rcases List.mem_cons.mp hentry with rfl | hmapped
      · rfl
      · obtain ⟨message, -, rfl⟩ := List.mem_map.mp hmapped
        rfl
    cases failure? with
    | none => exact ⟨heard, hmoment, hheard⟩
    | some failure =>
        refine ⟨heard ++ [(moment, .leave id (.malformed failure.message))], ?_,
          ?_⟩
        · intro entry hentry
          rcases List.mem_append.mp hentry with hearlier | hlast
          · exact hmoment entry hearlier
          · rw [List.mem_singleton.mp hlast]
        · rw [run_append, ← hheard]
          rfl

theorem Passes.refl (now : Nat) (service : Service) :
    Passes now service service :=
  ⟨rfl, fun _ session hsession => ⟨session, hsession, fun h => h⟩, .refl now _⟩

theorem Passes.trans (hfirst : Passes now before middle)
    (hsecond : Passes now middle after) :
    Passes now before after := by
  refine ⟨hsecond.nextId.trans hfirst.nextId, ?_,
    hfirst.peers.trans hsecond.peers⟩
  intro id session hsession
  obtain ⟨between, hbetween, hlater⟩ := hsecond.sessions id session hsession
  obtain ⟨held, hheld, hearlier⟩ := hfirst.sessions id between hbetween
  exact ⟨held, hheld, fun hname => hlater (hearlier hname)⟩

theorem Passes.of_peers (hnextId : after.nextId = before.nextId)
    (hsessions : after.sessions = before.sessions)
    (hpeers : before.peers.Ages now after.peers) :
    Passes now before after :=
  ⟨hnextId, fun _ session hsession =>
    ⟨session, hsessions ▸ hsession, fun h => h⟩, hpeers⟩

theorem Orderly.passes (h : before.Orderly)
    (hpasses : Passes now before after) :
    after.Orderly where
  named id session hsession := by
    obtain ⟨held, hheld, hname⟩ := hpasses.sessions id session hsession
    obtain ⟨hnamed, hgiven⟩ := h.named id held hheld
    rw [hpasses.nextId]
    exact ⟨hname hnamed, hgiven⟩
  numbered id peer hpeer := by
    obtain ⟨held, hheld, -⟩ := hpasses.peers id peer hpeer
    rw [hpasses.nextId]
    exact h.numbered id held hheld
  lasting id peer hpeer := by
    obtain ⟨held, hheld, hages⟩ := hpasses.peers id peer hpeer
    rw [hages.lifetime]
    exact h.lasting id held hheld

theorem link?_eq_some_iff :
    service.link? id = some (session, link) ↔
      service.sessions[id]? = some session ∧
        link = ⟨service.node, { session.connection with
          known := ((service.peers.get? id).map (·.known)).getD
            session.connection.known }⟩ := by
  unfold link?
  cases service.sessions[id]? with
  | none => simp
  | some held =>
      simp only [Option.bind_eq_bind, Option.bind_some, Option.pure_def,
        Option.some.injEq, Prod.mk.injEq]
      constructor
      · rintro ⟨rfl, rfl⟩
        exact ⟨rfl, rfl⟩
      · rintro ⟨rfl, rfl⟩
        exact ⟨rfl, rfl⟩

theorem known_of_link? (h : service.link? id = some (session, link))
    {peer : Peer} (hpeer : service.peers.get? id = some peer) :
    link.connection.known = peer.known := by
  obtain ⟨-, rfl⟩ := link?_eq_some_iff.mp h
  simp [hpeer]

theorem id_of_link? (horderly : service.Orderly)
    (h : service.link? id = some (session, link)) :
    session.connection.id = id ∧ link.connection.id = id := by
  obtain ⟨hsession, rfl⟩ := link?_eq_some_iff.mp h
  have hname := (horderly.named id session hsession).1
  exact ⟨hname, hname⟩

theorem passes_insert (entry : Session)
    (h : service.sessions[id]? = some session)
    (hname : session.connection.id = id → entry.connection.id = id)
    (hsessions : after.sessions = service.sessions.insert id entry)
    (hnextId : after.nextId = service.nextId)
    (hpeers : service.peers.Ages now after.peers) :
    Passes now service after := by
  refine ⟨hnextId, ?_, hpeers⟩
  intro other found hfound
  rw [hsessions, Std.HashMap.getElem?_insert] at hfound
  split at hfound
  · rename_i hid
    rw [← eq_of_beq hid, ← Option.some_inj.mp hfound]
    exact ⟨session, h, hname⟩
  · exact ⟨found, hfound, fun h => h⟩

theorem passes_keep (horderly : service.Orderly)
    (h : service.link? id = some (session, link)) {changed : Link}
    (hid : changed.connection.id = link.connection.id)
    (hknown : Ages now link.connection.known changed.connection.known) :
    Passes now service (service.keep session changed) := by
  obtain ⟨hsession, -⟩ := link?_eq_some_iff.mp h
  have hname : changed.connection.id = id :=
    hid.trans (id_of_link? horderly h).2
  refine passes_insert { session with
    connection := changed.connection } hsession (fun _ => hname) ?_ rfl ?_
  · rw [keep, hname]
  · refine PeerTable.ages_modify fun peer hpeer => ?_
    rw [hname] at hpeer
    rw [known_of_link? h hpeer] at hknown
    exact hknown

theorem passes_announce (service : Service) (moment : Moment)
    (vector : InventoryVector) (stream : UInt64) (except? : Option PeerId) :
    Passes moment.instant service
      (service.announce moment vector stream except?) :=
  .of_peers rfl rfl (PeerTable.ages_announce service.peers _ _ _ _ _)

theorem passes_act (service : Service) (moment : Moment) (id : PeerId)
    (event? : Option Event) :
    Passes moment.instant service (service.act moment id event?) := by
  unfold act
  split
  · exact Passes.refl _ service
  · split
    · exact Passes.refl _ service
    · rename_i session hsession
      refine passes_insert { session with isActivated := true } hsession
        (fun hname => hname) rfl rfl ?_
      refine PeerTable.ages_modify fun peer _ => ?_
      exact Ages.refl _ peer.known
  · split
    · exact Passes.refl _ service
    · exact passes_announce service moment _ _ _

theorem passes_retire (now : Nat) (service : Service) (session : Session)
    (link : Link) :
    Passes now service (service.retire session link) := by
  refine ⟨rfl, ?_, ?_⟩
  · intro other found hfound
    refine ⟨found, ?_, fun hname => hname⟩
    rw [retire, Std.HashMap.getElem?_erase] at hfound
    split at hfound
    · cases hfound
    · exact hfound
  · unfold retire
    dsimp only
    have herased := PeerTable.ages_erase now service.peers link.connection.id
    split
    · exact herased
    · exact herased.trans
        (PeerTable.ages_sendAll (PeerTable.nodup_active _ none) now _ _)

theorem passes_flush (horderly : service.Orderly) (now : Nat) (id : PeerId) :
    Passes now service (service.flush id).2 := by
  unfold flush
  split
  · exact Passes.refl now service
  · rename_i session link hlink
    dsimp only
    have hkeeps := link.connection.writeQueue_keeps service.node.hasher
      service.settings.magic link.connection.queue
    generalize link.connection.writeQueue service.node.hasher
      service.settings.magic link.connection.queue = written at hkeeps
    obtain ⟨bytes, connection⟩ := written
    dsimp only at hkeeps ⊢
    split
    · exact passes_retire now service session _
    · refine passes_keep horderly hlink hkeeps.1 ?_
      rw [hkeeps.2]
      exact Ages.refl now _

theorem passes_advance (horderly : service.Orderly) (moment : Moment)
    (id : PeerId) {change : Link → Link × Option Event}
    (hid : ∀ link, (change link).1.connection.id = link.connection.id)
    (hknown : ∀ link, Ages moment.instant link.connection.known
      (change link).1.connection.known) :
    Passes moment.instant service (service.advance moment id change).2 := by
  unfold advance
  split
  · exact Passes.refl _ service
  · rename_i session link hlink
    have hkept := passes_keep horderly hlink (hid link) (hknown link)
    have hacted := hkept.trans (passes_act _ moment id (change link).2)
    exact hacted.trans (passes_flush (horderly.passes hacted) _ id)

theorem passes_advance_perform (horderly : service.Orderly) (moment : Moment)
    (id : PeerId) (action : Action)
    (hinstant : ∀ instant, action.instant? = some instant →
      instant = moment.instant) {change : Link → Link × Option Event}
    (hchange : ∀ link, (change link).1 = link.perform action) :
    Passes moment.instant service (service.advance moment id change).2 := by
  refine passes_advance horderly moment id (fun link => ?_) fun link => ?_
  · rw [hchange]
    exact Link.id_perform link action
  · rw [hchange]
    exact Link.ages_perform link hinstant

theorem passes_attend (horderly : service.Orderly) (moment : Moment)
    (id : PeerId) :
    Passes moment.instant service (service.attend moment id).2 := by
  unfold attend
  split
  · exact Passes.refl _ service
  · rename_i peer hpeer
    dsimp only
    split
    · exact Passes.refl _ service
    · rename_i command hcommand
      let heeded : Service := { service with
        peers := service.peers.modify id fun held =>
          { held with inbox := peer.inbox.pop.2 } }
      have hheeded : Passes moment.instant service heeded := by
        refine .of_peers rfl rfl (PeerTable.ages_modify fun held _ => ?_)
        exact Ages.refl _ held.known
      have hadvanced :
          Passes moment.instant heeded (heeded.advance moment id fun link =>
          (obey moment command link, none)).2 := by
        have horderly := horderly.passes hheeded
        cases command with
        | offer vector =>
            exact passes_advance_perform horderly moment id
              (.offer moment vector)
              (fun _ h => (Option.some_inj.mp h).symm) fun _ => rfl
        | reassign vectors =>
            exact passes_advance_perform horderly moment id
              (.reassign moment vectors)
              (fun _ h => (Option.some_inj.mp h).symm) fun _ => rfl
        | disconnect reason =>
            exact passes_advance_perform horderly moment id (.disconnect reason)
              (fun _ h => nomatch h) fun _ => rfl
      exact hheeded.trans hadvanced

theorem passes_publish (service : Service) (moment : Moment) (object : Object) :
    Passes moment.instant service (service.publish moment object).2 := by
  unfold publish
  split
  · exact Passes.refl _ service
  · rename_i vector hcheck
    dsimp only
    let stored : Service := { service with
      node := { service.node with
        engine := service.node.engine.forget object }.store vector object }
    have hstored : Passes moment.instant service stored :=
      .of_peers rfl rfl (.refl _ _)
    split
    · exact hstored.trans
        (passes_announce stored moment vector object.stream none)
    · exact hstored

theorem passes_sweep (service : Service) (moment : Moment) :
    Passes moment.instant service (service.sweep moment).2 := by
  have htold : ∀ (told : List (PeerId × DisconnectReason)) (table : PeerTable),
      table.Ages moment.instant (told.foldl
        (fun peers entry => (peers.send entry.1 (.disconnect entry.2)).2)
          table) := by
    intro told
    induction told with
    | nil => exact fun table => .refl _ table
    | cons entry rest ih =>
        exact fun table =>
          (table.ages_send _ entry.1 (.disconnect entry.2)).trans (ih _)
  exact .of_peers rfl rfl (htold _ service.peers)

def joined (service : Service) (moment : Moment) (mode : Mode)
    (remote : SocketAddress) : Service :=
  { service with
    peers := service.peers.insert
      { info :=
          { id := service.nextId, address := remote, mode := mode,
            connectedAt := moment.instant } }
    sessions := service.sessions.insert service.nextId
      { connection :=
          { id := service.nextId, mode := mode, remote := remote,
            startedAt := moment.instant } }
    nextId := service.nextId + 1 }

theorem Orderly.joined (h : service.Orderly) (moment : Moment) (mode : Mode)
    (remote : SocketAddress) : (service.joined moment mode remote).Orderly where
  named id session hsession := by
    rw [Service.joined, Std.HashMap.getElem?_insert] at hsession
    split at hsession
    · rename_i hid
      rw [← Option.some_inj.mp hsession, ← eq_of_beq hid]
      exact ⟨rfl, Nat.lt_succ_self _⟩
    · obtain ⟨hname, hgiven⟩ := h.named id session hsession
      exact ⟨hname, Nat.lt_succ_of_lt hgiven⟩
  numbered id peer hpeer := by
    rw [Service.joined, PeerTable.get?_insert] at hpeer
    split at hpeer
    · rename_i hid
      rw [← hid]
      exact Nat.lt_succ_self _
    · exact Nat.lt_succ_of_lt (h.numbered id peer hpeer)
  lasting id peer hpeer := by
    rw [Service.joined, PeerTable.get?_insert] at hpeer
    split at hpeer
    · rw [← Option.some_inj.mp hpeer]
    · exact h.lasting id peer hpeer

theorem passes_openSession (h : service.Orderly) (moment : Moment) (mode : Mode)
    (remote : SocketAddress) :
    Passes moment.instant (service.joined moment mode remote)
      (service.openSession moment mode remote).2.2 := by
  have hopened : (service.openSession moment mode remote).2.2 =
      ((service.joined moment mode remote).advance moment service.nextId
        fun link => (link.start moment, none)).2 := rfl
  rw [hopened]
  exact passes_advance_perform (h.joined moment mode remote) moment
    service.nextId
    (.start moment) (fun _ h => (Option.some_inj.mp h).symm) fun _ => rfl

theorem step_cases (horderly : service.Orderly) (moment : Moment)
    (step : Step) :
    Passes moment.instant service (service.step moment step) ∨
      ∃ mode remote, Passes moment.instant (service.joined moment mode remote)
        (service.step moment step) := by
  cases step with
  | join mode remote =>
      exact .inr ⟨mode, remote, passes_openSession horderly moment mode remote⟩
  | hear id message =>
      exact .inl (passes_advance_perform horderly moment id
        (.receive moment message)
        (fun _ h => (Option.some_inj.mp h).symm) fun _ => rfl)
  | await id unread =>
      left
      rw [step, await]
      split
      · exact Passes.refl _ service
      · rename_i session hsession
        exact passes_insert { session with unread := unread } hsession
          (fun hname => hname) rfl rfl (.refl _ _)
  | attend id => exact .inl (passes_attend horderly moment id)
  | tick id =>
      exact .inl (passes_advance_perform horderly moment id
        (.tick moment.instant)
        (fun _ h => (Option.some_inj.mp h).symm) fun _ => rfl)
  | leave id reason =>
      exact .inl (passes_advance_perform horderly moment id (.disconnect reason)
        (fun _ h => nomatch h) fun _ => rfl)
  | publish object => exact .inl (passes_publish service moment object)
  | sweep => exact .inl (passes_sweep service moment)
  | work chore => exact .inl (.of_peers rfl rfl (.refl _ _))

theorem Orderly.step (h : service.Orderly) (moment : Moment) (step : Step) :
    (service.step moment step).Orderly := by
  rcases step_cases h moment step with hpasses | ⟨mode, remote, hpasses⟩
  · exact h.passes hpasses
  · exact (h.joined moment mode remote).passes hpasses

theorem Orderly.run (h : service.Orderly) (steps : List (Moment × Step)) :
    (service.run steps).Orderly := by
  induction steps generalizing service with
  | nil => exact h
  | cons entry steps ih => exact ih (h.step entry.1 entry.2)

theorem orderly_new (settings : ServiceSettings) (node : Node) :
    ({ settings := settings, node := node } : Service).Orderly where
  named id session hsession := by simp at hsession
  numbered id peer hpeer := by rw [PeerTable.get?_empty] at hpeer; cases hpeer
  lasting id peer hpeer := by rw [PeerTable.get?_empty] at hpeer; cases hpeer

/-- Either the peer is gone for good, or it was heard of the vector then or
later. -/
structure Recalls (service : Service) (id : PeerId) (vector : InventoryVector)
    (since : Nat) : Prop where
  given : id < service.nextId
  heard : ∀ peer, service.peers.get? id = some peer →
    peer.known.HeardSince vector since

variable {vector : InventoryVector} {since : Nat}

theorem Recalls.passes (h : before.Recalls id vector since)
    (horderly : before.Orderly) (hpasses : Passes now before after)
    (hsince : since ≤ now) (hnow : now ≤ since + ({} : KnownVectors).lifetime) :
    after.Recalls id vector since where
  given := hpasses.nextId ▸ h.given
  heard peer hpeer := by
    obtain ⟨held, hheld, hages⟩ := hpasses.peers id peer hpeer
    rw [← horderly.lasting id held hheld] at hnow
    exact hages.heard vector since hsince hnow (h.heard held hheld)

theorem Recalls.joined (h : service.Recalls id vector since) (moment : Moment)
    (mode : Mode) (remote : SocketAddress) :
    (service.joined moment mode remote).Recalls id vector since where
  given := Nat.lt_succ_of_lt h.given
  heard peer hpeer := by
    rw [Service.joined, PeerTable.get?_insert, if_neg (Nat.ne_of_gt h.given)]
      at hpeer
    exact h.heard peer hpeer

theorem Recalls.step (h : service.Recalls id vector since)
    (horderly : service.Orderly) {moment : Moment}
    (hsince : since ≤ moment.instant) (hnow : moment.instant ≤
      since + ({} : KnownVectors).lifetime) (step : Step) :
    (service.step moment step).Recalls id vector since := by
  rcases step_cases horderly moment step with hpasses | ⟨mode, remote, hpasses⟩
  · exact h.passes horderly hpasses hsince hnow
  · exact (h.joined moment mode remote).passes
      (horderly.joined moment mode remote) hpasses hsince hnow

theorem Recalls.run (h : service.Recalls id vector since)
    (horderly : service.Orderly) {steps : List (Moment × Step)}
    (htime : ∀ entry ∈ steps, since ≤ entry.1.instant ∧
      entry.1.instant ≤ since + ({} : KnownVectors).lifetime) :
    (service.run steps).Recalls id vector since := by
  induction steps generalizing service with
  | nil => exact h
  | cons entry steps ih =>
      obtain ⟨hentry, hsteps⟩ := List.forall_mem_cons.mp htime
      exact ih (h.step horderly hentry.1 hentry.2 entry.2)
        (horderly.step entry.1 entry.2) hsteps

theorem recalls_hear (horderly : service.Orderly)
    (hsession : service.sessions[id]? = some session)
    (hactive : session.connection.phase = .active) {message : Message}
    (hnames : message.Names service.node.hasher vector) (moment : Moment) :
    (service.step moment (.hear id message)).Recalls id vector
      moment.instant := by
  let link : Link := ⟨service.node, { session.connection with
    known := ((service.peers.get? id).map (·.known)).getD
      session.connection.known }⟩
  have hlink : service.link? id = some (session, link) :=
    link?_eq_some_iff.mpr ⟨hsession, rfl⟩
  let heard := link.perform (.receive moment message)
  have hname : heard.connection.id = id :=
    (Link.id_perform link _).trans (id_of_link? horderly hlink).2
  have hkept : Passes moment.instant service (service.keep session heard) :=
    passes_keep horderly hlink (Link.id_perform link _)
      (Link.ages_perform link fun _ h => (Option.some_inj.mp h).symm)
  have hrecalls :
      (service.keep session heard).Recalls id vector moment.instant := by
    refine ⟨(horderly.named id session hsession).2, fun peer hpeer => ?_⟩
    rw [keep, PeerTable.get?_modify, if_pos hname] at hpeer
    obtain ⟨held, -, rfl⟩ := Option.map_eq_some_iff.mp hpeer
    exact Link.heardSince_receive hactive hnames moment
  have hacted := passes_act (service.keep session heard) moment id
    (link.receive moment message).2
  have hflushed := hacted.trans
    (passes_flush ((horderly.passes hkept).passes hacted) moment.instant id)
  have hstep : service.step moment (.hear id message) =
      (((service.keep session heard).act moment id
        (link.receive moment message).2).flush id).2 := by
    rw [step, advance, hlink]
    rfl
  rw [hstep]
  exact hrecalls.passes (horderly.passes hkept) hflushed (Nat.le_refl _)
    (Nat.le_add_right _ _)

end Service

end ObjectRelay
