import ObjectRelay.Proofs.Connection.Lifecycle
import ObjectRelay.Proofs.Hub.Balance
import ObjectRelay.Proofs.Inventory

namespace ObjectRelay

/-- The nodes differ in their addresses and requests at most. -/
structure Node.Resembles (left right : Node) : Prop where
  profile : left.profile = right.profile
  engine : left.engine = right.engine
  inventory : left.inventory = right.inventory

theorem Node.Resembles.trans {left middle right : Node}
    (hfirst : left.Resembles middle) (hsecond : middle.Resembles right) :
    left.Resembles right :=
  ⟨hfirst.profile.trans hsecond.profile, hfirst.engine.trans hsecond.engine,
    hfirst.inventory.trans hsecond.inventory⟩

namespace Link

variable {link : Link}

structure Dialed (link : Link) : Prop where
  mode : link.connection.mode ≠ .server
  phase : link.connection.phase = .connecting
  peer : link.connection.peer? = none

theorem perform_greeting (hdialed : link.Dialed) {greeting : Greeting}
    (hwelcome : Welcomes link.node.profile greeting) (moment : Moment) :
    (link.perform (.receive moment (.version greeting))).connection.phase =
        .active ∧
      (link.perform (.receive moment (.version greeting))).connection.known =
        link.connection.known := by
  simp only [perform, receive, hdialed.phase, receiveConnecting,
    receiveGreeting, hdialed.peer, hwelcome.nonce, hwelcome.version,
    Option.isSome_none, Bool.false_eq_true, if_false]
  cases hmode : link.connection.mode with
  | server => exact absurd hmode hdialed.mode
  | client => exact ⟨activate_phase moment, activate_known moment⟩
  | sync => exact ⟨activate_phase moment, activate_known moment⟩

theorem perform_announcement (hactive : link.connection.phase = .active)
    (moment : Moment) (offer : List InventoryVector) :
    (link.perform (.receive moment (.inv offer))).connection.phase = .active ∧
      (link.perform (.receive moment (.inv offer))).connection.known =
        link.connection.known.extend offer moment.instant := by
  simp only [perform, receive, hactive, receiveActive, receiveInventory,
    Connection.request]
  split
  · exact ⟨rfl, rfl⟩
  · exact ⟨rfl, rfl⟩

theorem stock_greeting (moment : Moment) (greeting : Greeting) :
    (link.perform (.receive moment (.version greeting))).stock =
      link.stock := by
  have heffect := effect_perform link (.receive moment (.version greeting))
  generalize link.perform (.receive moment (.version greeting)) =
    after at heffect
  cases heffect with
  | speech hspeech => exact hspeech.stock

theorem resembles_of_stock_eq (before after : Link)
    (h : after.stock = before.stock) :
    after.node.Resembles before.node :=
  ⟨congrArg Stock.profile h, congrArg Stock.engine h,
    congrArg Stock.inventory h⟩

theorem Asks.resembles {wanted : List InventoryVector} {now : Nat}
    {before after : Link} (h : Asks wanted now before after) :
    after.node.Resembles before.node :=
  ⟨congrArg Stock.profile h.stock, congrArg Stock.engine h.stock,
    congrArg Stock.inventory h.stock⟩

theorem Releases.resembles {before after : Link} (h : Releases before after) :
    after.node.Resembles before.node :=
  ⟨congrArg Stock.profile h.stock, congrArg Stock.engine h.stock,
    congrArg Stock.inventory h.stock⟩

theorem stock_disconnect (reason : DisconnectReason) :
    (link.perform (.disconnect reason)).stock = link.stock := by
  have hspeaks : Speaks (fun _ => True) link (link.disconnect reason) :=
    speaks_disconnect link reason
  exact hspeaks.stock

end Link

namespace Hub

/-- The first peer alone is asked for anything, and all of some vectors are
asked for; the second peer is known to have some vectors. -/
structure Shared (node : Node) (first second : PeerId) (now : Nat)
    (asked known : List InventoryVector) (hub : Hub) : Prop where
  balanced : hub.Balanced
  node : hub.node.Resembles node
  sole : ∀ vector peer, hub.node.requests.owner? vector = some peer →
    peer = first
  owner : ∀ vector ∈ asked, hub.node.requests.owner? vector = some first
  first : ∃ link, hub.link? first = some link ∧ link.connection.phase = .active
  second : ∃ link, hub.link? second = some link ∧
    link.connection.phase = .active ∧
    ∀ vector ∈ known, link.connection.known.seen[vector]? = some now

variable {node : Node} {first second : PeerId} {now : Nat} {hub : Hub}
  {asked known : List InventoryVector}

theorem shared_greetings (hdiffer : first ≠ second) (hfresh : hub.Fresh)
    {greeting : Greeting} (hwelcome : Link.Welcomes hub.node.profile greeting)
    {left right : Link} (hleft : hub.link? first = some left)
    (hright : hub.link? second = some right) (hleftDialed : left.Dialed)
    (hrightDialed : right.Dialed) (moment : Moment) :
    Shared hub.node first second now [] []
      (hub.run [.act first (.receive moment (.version greeting)),
        .act second (.receive moment (.version greeting))]) := by
  have hbalanced :=
    hfresh.balanced.run [.act first (.receive moment (.version greeting)),
    .act second (.receive moment (.version greeting))]
  have hleftNode : left.node = hub.node := (link?_eq_some_iff.mp hleft).1
  rw [← hleftNode] at hwelcome
  -- The first peer greets.
  have hfirstStock := left.stock_greeting moment greeting
  have hfirstPhase := (Link.perform_greeting hleftDialed hwelcome moment).1
  have hfirstId := left.id_perform (.receive moment (.version greeting))
  have hfirstStep := step_act hleft (.receive moment (.version greeting))
  generalize left.perform (.receive moment (.version greeting)) = greeted at *
  have hgreeted := link?_put_self hleft hfirstId
  have hwaiting := link?_put_other hleft hfirstId hright hdiffer.symm
  -- Then the second does.
  have hwaitingDialed : Link.Dialed ⟨greeted.node, right.connection⟩ :=
    ⟨hrightDialed.mode, hrightDialed.phase, hrightDialed.peer⟩
  have hfirstNode : greeted.node.Resembles left.node :=
    Link.resembles_of_stock_eq left greeted hfirstStock
  rw [← hfirstNode.profile] at hwelcome
  have hsecondStock : (Link.perform ⟨greeted.node, right.connection⟩
      (.receive moment (.version greeting))).stock =
        Link.stock ⟨greeted.node, right.connection⟩ :=
    Link.stock_greeting moment greeting
  have hsecondPhase := (Link.perform_greeting hwaitingDialed hwelcome moment).1
  have hsecondId := Link.id_perform ⟨greeted.node, right.connection⟩
    (.receive moment (.version greeting))
  have hsecondStep := step_act hwaiting (.receive moment (.version greeting))
  generalize Link.perform ⟨greeted.node, right.connection⟩
    (.receive moment (.version greeting)) = answered at *
  rw [run_cons, run_cons, run_nil, hfirstStep, hsecondStep] at hbalanced ⊢
  have hrequests : answered.node.requests = hub.node.requests :=
    (congrArg Stock.requests hsecondStock).trans
      ((congrArg Stock.requests hfirstStock).trans
        (congrArg Node.requests hleftNode))
  refine ⟨hbalanced, ?_, ?_, by simp, ?_, ?_⟩
  · have hsecondNode : answered.node.Resembles greeted.node :=
      Link.resembles_of_stock_eq ⟨greeted.node, right.connection⟩ answered
        hsecondStock
    rw [← hleftNode]
    exact hsecondNode.trans hfirstNode
  · intro vector peer howner
    change answered.node.requests.owner? vector = some peer at howner
    rw [hrequests, RequestLedger.owner?_eq_none_of_size_eq_zero
      hfresh.size_requests] at howner
    cases howner
  · exact ⟨_, link?_put_other hwaiting hsecondId hgreeted hdiffer, hfirstPhase⟩
  · exact ⟨answered, link?_put_self hwaiting hsecondId, hsecondPhase, by simp⟩

theorem Shared.act_first (h : Shared node first second now asked known hub)
    (hdiffer : first ≠ second) {link : Link}
    (hlink : hub.link? first = some link) (action : Action)
    (hnode : (link.perform action).node.Resembles link.node)
    (hactive : (link.perform action).connection.phase = .active)
    (hsole : ∀ vector peer,
      (link.perform action).node.requests.owner? vector = some peer →
      peer = first) {more : List InventoryVector}
    (howner : ∀ vector ∈ more,
      (link.perform action).node.requests.owner? vector = some first) :
    Shared node first second now more known (hub.step (.act first action)) := by
  have hbalanced := h.balanced.step (.act first action)
  obtain ⟨other, hother, hseen⟩ := h.second
  rw [(link?_eq_some_iff.mp hlink).1] at hnode
  rw [step_act hlink] at hbalanced ⊢
  have hid := link.id_perform action
  exact ⟨hbalanced, hnode.trans h.node, hsole, howner,
    ⟨_, link?_put_self hlink hid, hactive⟩,
    ⟨_, link?_put_other hlink hid hother hdiffer.symm, hseen⟩⟩

theorem Shared.act_second (h : Shared node first second now asked known hub)
    (hdiffer : first ≠ second) {link : Link}
    (hlink : hub.link? second = some link) (action : Action)
    (hnode : (link.perform action).node.Resembles link.node)
    (hactive : (link.perform action).connection.phase = .active)
    (howner : ∀ vector, (link.perform action).node.requests.owner? vector =
      hub.node.requests.owner? vector)
    {more : List InventoryVector}
    (hseen : ∀ vector ∈ more,
      (link.perform action).connection.known.seen[vector]? = some now) :
    Shared node first second now asked more
      (hub.step (.act second action)) := by
  have hbalanced := h.balanced.step (.act second action)
  obtain ⟨other, hother, hotherActive⟩ := h.first
  rw [(link?_eq_some_iff.mp hlink).1] at hnode
  rw [step_act hlink] at hbalanced ⊢
  have hid := link.id_perform action
  exact ⟨hbalanced, hnode.trans h.node,
    fun vector peer howned =>
      h.sole vector peer ((howner vector).symm.trans howned),
    fun vector hmem => (howner vector).trans (h.owner vector hmem),
    ⟨_, link?_put_other hlink hid hother hdiffer, hotherActive⟩,
    ⟨_, link?_put_self hlink hid, hactive, hseen⟩⟩

theorem Shared.hear_first (h : Shared node first second now asked known hub)
    (hdiffer : first ≠ second) (moment : Moment) {offer : List InventoryVector}
    (hmissing : ∀ vector ∈ offer,
      node.inventory.serves node.profile.streams vector = false) :
    Shared node first second now (offer ++ asked) known
      (hub.step (.act first (.receive moment (.inv offer)))) := by
  obtain ⟨link, hlink, hactive⟩ := h.first
  obtain ⟨hnode, -, hname⟩ := link?_eq_some_iff.mp hlink
  have hasks := Link.asks_announcement moment offer hactive
  have howner : ∀ vector,
      (link.perform (.receive moment (.inv offer))).node.requests.owner?
        vector =
        if vector ∈ link.asked
          (link.node.inventory.missing offer link.node.profile.streams)
        then some first else hub.node.requests.owner? vector := by
    rw [← hnode, ← hname]
    exact hasks.owner?
  apply h.act_first hdiffer hlink _ hasks.resembles
    (Link.perform_announcement hactive moment offer).1
  · intro vector peer howned
    rw [howner] at howned
    split at howned
    · exact (Option.some_inj.mp howned).symm
    · exact h.sole vector peer howned
  · intro vector hvector
    rw [howner]
    split
    · rfl
    · rename_i hfree
      rcases List.mem_append.mp hvector with hoffered | hasked
      · rw [Link.mem_asked, Inventory.mem_missing, hnode, h.node.inventory,
          h.node.profile] at hfree
        -- What is missing and was not free is the first peer's already.
        cases howned : hub.node.requests.owner? vector with
        | none =>
            exact absurd ⟨⟨hoffered, hmissing vector hoffered⟩, howned⟩ hfree
        | some peer => rw [h.sole vector peer howned]
      · exact h.owner vector hasked

theorem Shared.hear_second {moment : Moment}
    (h : Shared node first second moment.instant asked known hub)
    (hdiffer : first ≠ second) {offer : List InventoryVector}
    (hasked : offer ⊆ asked) :
    Shared node first second moment.instant asked (offer ++ known)
      (hub.step (.act second (.receive moment (.inv offer)))) := by
  obtain ⟨link, hlink, hactive, hknown⟩ := h.second
  have hnode := (link?_eq_some_iff.mp hlink).1
  have hasks := Link.asks_announcement moment offer hactive
  obtain ⟨hphase, hextended⟩ := Link.perform_announcement hactive moment offer
  apply h.act_second hdiffer hlink _ hasks.resembles hphase
  · intro vector
    rw [hasks.owner?, hnode]
    refine if_neg ?_
    rw [Link.mem_asked, Inventory.mem_missing, hnode]
    rintro ⟨⟨hoffered, -⟩, hfree⟩
    rw [h.owner vector (hasked hoffered)] at hfree
    cases hfree
  · intro vector hvector
    rw [hextended, KnownVectors.getElem?_extend]
    split
    · rfl
    · rename_i hnew
      exact hknown vector ((List.mem_append.mp hvector).resolve_left hnew)

theorem Shared.exists_released
    (h : Shared node first second now asked known hub)
    (reason : DisconnectReason) :
    ∃ leaver, hub.link? first = some leaver ∧
      ∀ vector ∈ asked, vector ∈ (leaver.disconnect reason).release.1 := by
  obtain ⟨leaver, hleaver, -⟩ := h.first
  obtain ⟨hnode, -, hname⟩ := link?_eq_some_iff.mp hleaver
  have hagrees := h.balanced.agrees hleaver
  have houtstanding : (leaver.disconnect reason).connection.outstanding =
      leaver.connection.outstanding :=
    congrArg Stock.outstanding (leaver.stock_disconnect reason)
  refine ⟨leaver, hleaver, fun vector hmem => Std.HashSet.mem_toList.mpr ?_⟩
  rw [houtstanding]
  refine (hagrees vector).mp ?_
  rw [hnode, hname]
  exact h.owner vector hmem

theorem Shared.depart (h : Shared node first second now asked known hub)
    (hdiffer : first ≠ second) (reason : DisconnectReason) :
    ∃ link, (hub.run [.act first (.disconnect reason),
      .act first .release]).link? second = some link ∧
      link.connection.phase = .active ∧ link.node.Resembles node ∧
      (∀ vector ∈ known, link.connection.known.seen[vector]? = some now) ∧
      ∀ vector, link.node.requests.owner? vector = none := by
  obtain ⟨leaver, hleaver, -⟩ := h.first
  obtain ⟨link, hlink, hactive, hknown⟩ := h.second
  have hbalanced := h.balanced.step (.act first (.disconnect reason))
  obtain ⟨hnode, -, hname⟩ := link?_eq_some_iff.mp hleaver
  have hstock := leaver.stock_disconnect reason
  have hid := leaver.id_perform (.disconnect reason)
  rw [run_cons, run_cons, run_nil, step_act hleaver]
  rw [step_act hleaver] at hbalanced
  generalize leaver.perform (.disconnect reason) = left at *
  have hleft := link?_put_self hleaver hid
  have hstays := link?_put_other hleaver hid hlink hdiffer.symm
  have hreleases := left.releases_release
  have hagrees := hbalanced.agrees hleft
  rw [step_act hleft]
  refine ⟨_, link?_put_other hleft (left.id_perform .release) hstays
    hdiffer.symm, hactive, ?_, hknown, ?_⟩
  · have hleftNode := Link.resembles_of_stock_eq leaver left hstock
    rw [hnode] at hleftNode
    exact hreleases.resembles.trans (hleftNode.trans h.node)
  · intro vector
    change left.release.2.node.requests.owner? vector = none
    rw [hreleases.owner?]
    split
    · rfl
    · rename_i hkept
      rw [Option.eq_none_iff_forall_ne_some]
      intro peer howner
      have hpeer : peer = left.connection.id := by
        rw [show left.node.requests = leaver.node.requests from
          congrArg Stock.requests hstock, hnode] at howner
        rw [h.sole vector peer howner, hid, hname]
      rw [hpeer] at howner
      exact hkept ⟨Std.HashSet.mem_toList.mpr ((hagrees vector).mp howner),
        howner⟩

def twoDialed (node : Node) (remote : SocketAddress) : Hub where
  node := node
  connections := [.opened 0 .client remote 0, .opened 1 .client remote 0]
  nodup_ids := by simp [Connection.opened]

theorem fresh_twoDialed {node : Node} (h : node.requests.size = 0)
    (remote : SocketAddress) :
    (twoDialed node remote).Fresh := by
  refine ⟨h, ?_⟩
  intro connection hmem
  rcases List.mem_pair.mp hmem with rfl | rfl
  · exact ⟨_, _, _, _, rfl⟩
  · exact ⟨_, _, _, _, rfl⟩

/-- Both peers greet, and announce the same. -/
def announcements (greeting : Greeting) (moment : Moment)
    (offers : List (List InventoryVector)) : List Step :=
  [.act 0 (.receive moment (.version greeting)),
    .act 1 (.receive moment (.version greeting))] ++
    offers.map (fun offer => .act 0 (.receive moment (.inv offer))) ++
    offers.map (fun offer => .act 1 (.receive moment (.inv offer)))

theorem Shared.mono (h : Shared node first second now asked known hub)
    {fewerAsked fewerKnown : List InventoryVector} (hasked : fewerAsked ⊆ asked)
    (hknown : fewerKnown ⊆ known) :
    Shared node first second now fewerAsked fewerKnown hub := by
  obtain ⟨link, hlink, hactive, hseen⟩ := h.second
  exact ⟨h.balanced, h.node, h.sole,
    fun vector hmem => h.owner vector (hasked hmem), h.first,
    link, hlink, hactive, fun vector hmem => hseen vector (hknown hmem)⟩

theorem Shared.work (h : Shared node first second now asked known hub)
    (chore : Chore) :
    Shared (hub.node.work chore) first second now asked known
      (hub.step (.work chore)) := by
  obtain ⟨link, hlink, hactive⟩ := h.first
  obtain ⟨other, hother, hotherActive, hseen⟩ := h.second
  have hrequests : (hub.step (.work chore)).node.requests = hub.node.requests :=
    hub.node.requests_work chore
  refine ⟨h.balanced.step (.work chore), ⟨rfl, rfl, rfl⟩, ?_, ?_, ?_, ?_⟩
  · rw [hrequests]
    exact h.sole
  · rw [hrequests]
    exact h.owner
  · exact ⟨_, link?_work hlink chore, hactive⟩
  · exact ⟨_, link?_work hother chore, hotherActive, hseen⟩

theorem Shared.hear_all_first (h : Shared node first second now asked known hub)
    (hdiffer : first ≠ second) (moment : Moment)
    {offers : List (List InventoryVector)}
    (hmissing : ∀ vector ∈ offers.flatten,
      node.inventory.serves node.profile.streams vector = false) :
    Shared node first second now (offers.flatten ++ asked) known
      (hub.run (offers.map fun offer =>
        .act first (.receive moment (.inv offer)))) := by
  induction offers generalizing asked hub with
  | nil => exact h
  | cons offer rest ih =>
      rw [List.flatten_cons] at hmissing ⊢
      have hoffer := h.hear_first hdiffer moment (fun vector hmem =>
        hmissing vector (List.mem_append_left _ hmem))
      have hrest := ih hoffer fun vector hmem =>
        hmissing vector (List.mem_append_right _ hmem)
      refine hrest.mono ?_ (List.Subset.refl known)
      intro vector hmem
      simp only [List.mem_append] at hmem ⊢
      tauto

theorem Shared.hear_all_second {moment : Moment}
    (h : Shared node first second moment.instant asked known hub)
    (hdiffer : first ≠ second) {offers : List (List InventoryVector)}
    (hasked : offers.flatten ⊆ asked) :
    Shared node first second moment.instant asked (offers.flatten ++ known)
      (hub.run (offers.map fun offer =>
        .act second (.receive moment (.inv offer)))) := by
  induction offers generalizing known hub with
  | nil => exact h
  | cons offer rest ih =>
      rw [List.flatten_cons] at hasked ⊢
      have hoffer := h.hear_second hdiffer (List.append_subset.mp hasked).1
      have hrest := ih hoffer (List.append_subset.mp hasked).2
      refine hrest.mono (List.Subset.refl asked) ?_
      intro vector hmem
      simp only [List.mem_append] at hmem ⊢
      tauto

theorem shared_announcements {node : Node} (hrequests : node.requests.size = 0)
    {greeting : Greeting} (hwelcome : Link.Welcomes node.profile greeting)
    (remote : SocketAddress) (moment : Moment)
    (offers : List (List InventoryVector))
    (hmissing : ∀ vector ∈ offers.flatten,
      node.inventory.serves node.profile.streams vector = false) :
    Shared node 0 1 moment.instant offers.flatten offers.flatten
      ((twoDialed node remote).run (announcements greeting moment offers)) := by
  have hgreeted : Shared node 0 1 moment.instant [] [] _ :=
    shared_greetings (by decide) (fresh_twoDialed hrequests remote)
      hwelcome rfl rfl ⟨by rintro ⟨⟩, rfl, rfl⟩ ⟨by rintro ⟨⟩, rfl, rfl⟩ moment
  have hfirst := hgreeted.hear_all_first (by decide) moment hmissing
  rw [List.append_nil] at hfirst
  have hsecond := hfirst.hear_all_second (by decide) (List.Subset.refl _)
  rw [List.append_nil] at hsecond
  rw [announcements, run_append, run_append]
  exact hsecond

def departure : List Step :=
  [.act 0 (.disconnect .closedByPeer), .act 0 .release]

/-- A node of one stream, whose hash meets every target. -/
def plainNode : Node where
  profile := ⟨1, [1], PeerRecord.relaysObjects, "", none, 0, 0⟩
  port := 0
  engine := ⟨⟨fun _ => .ofNat digestSize 0⟩, .network, ∅⟩

def plainRemote : SocketAddress :=
  .v4 (.ofNat 4 0) 0

def plainMoment : Moment :=
  ⟨0, 0, .none⟩

def plainGreeting : Greeting :=
  ⟨3, 0, 0, .ofSocket plainRemote 1 0 0, .ofSocket plainRemote 1 0 0, 2,
    "", [1]⟩

theorem welcomes_plainGreeting :
    Link.Welcomes plainNode.profile plainGreeting :=
  ⟨by decide, by decide⟩

theorem size_requests_plainNode : plainNode.requests.size = 0 :=
  Std.HashMap.size_empty

theorem plainNode_serves (streams : List UInt64) (vector : InventoryVector) :
    plainNode.inventory.serves streams vector = false := by
  simp [plainNode, Inventory.serves, Inventory.get?]

end Hub

end ObjectRelay
