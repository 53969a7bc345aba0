import ObjectRelay.Proofs.Connection.Handshake
import ObjectRelay.Proofs.Frame.Overlong
import ObjectRelay.Service.Launch

namespace ObjectRelay

/-! Settings that are accepted, and what a node that is made from them can
do. -/

namespace NodeSettings

theorem exists_listen_of_check {settings : NodeSettings}
    (h : settings.check = .ok ()) :
    ∃ address, settings.listen = .ok address := by
  unfold check at h
  split_ifs at h
  cases hlisten : settings.listen with
  | error failure =>
      rw [hlisten] at h
      cases h
  | ok address => exact ⟨address, rfl⟩

def userAgent (settings : NodeSettings) : String :=
  settings.network.userAgent?.getD ({} : ServiceSettings).userAgent

/-- The parts of the settings that a service is made of. -/
structure Yields (settings : NodeSettings) (service : ServiceSettings) :
    Prop where
  userAgent : service.userAgent = settings.userAgent
  streams : service.streams = settings.network.streams
  readTimeout : service.readTimeout = settings.network.readTimeout.toNat * 1000
  idleTimeout : service.idleTimeout = settings.network.idleTimeout.toNat * 1000

theorem exists_service_of_check {settings : NodeSettings}
    (h : settings.check = .ok ()) :
    ∃ service, settings.service = .ok service ∧ settings.Yields service := by
  obtain ⟨address, hlisten⟩ := exists_listen_of_check h
  unfold service
  rw [hlisten]
  exact ⟨_, rfl, rfl, rfl, rfl, rfl⟩

theorem Yields.isTimely_iff {settings : NodeSettings}
    {service : ServiceSettings} (h : settings.Yields service) :
    service.isTimely = true ↔ 2 * settings.network.readTimeout.toNat <
      UInt64.size := by
  rw [ServiceSettings.isTimely, decide_eq_true_iff, h.readTimeout]
  omega

end NodeSettings

namespace Service

theorem launch_eq {settings : NodeSettings} {service : ServiceSettings}
    (h : settings.service = .ok service) (hasher : Hasher)
    (resolver : Resolver) (nonce : UInt64) :
    launch settings hasher resolver nonce =
      if service.isTimely then
        .ok (ofSettings service
          { hasher := hasher, difficulty := settings.difficulty }
          (settings.addressBook resolver) nonce none)
      else .error .timeOverflow := by
  unfold launch
  rw [h]
  rfl

end Service

namespace Link

theorem greeting_of_queued {link : Link} {actions : List Action}
    {action : Action} {greeting : Greeting}
    (h : .version greeting ∈ (link.run actions).queued action) :
    greeting.userAgent = link.node.profile.userAgent ∧
      greeting.streams = link.node.profile.streams := by
  have hprofile := profile_run link actions
  rcases queued_cases h with hspoken | ⟨wanted, -, -, hasked⟩
  · generalize hmessage : Message.version greeting = message at hspoken
    cases hspoken with
    | greeting remote clock =>
        cases hmessage
        rw [← hprofile]
        exact ⟨rfl, rfl⟩
    | inventory hmem =>
        obtain ⟨part, rfl, -⟩ := Message.eq_inv_of_mem_announce hmem
        cases hmessage
    | _ => cases hmessage
  · cases hasked

theorem exists_queued_version (node : Node) (id : PeerId) (mode : Mode)
    (remote : SocketAddress) (now : Nat) :
    ∃ action greeting,
      .version greeting ∈
        Link.queued ⟨node, .opened id mode remote now⟩ action := by
  let moment : Moment := ⟨now, 0, .none⟩
  let own := node.greeting remote 0
  cases mode with
  | server =>
      -- A peer like this node, but for its nonce.
      have hnonce : node.profile.nonce + 1 ≠ node.profile.nonce := by simp
      have hversion : ¬ protocolVersion < leastProtocolVersion := by decide
      refine ⟨.receive moment
        (.version { own with nonce := node.profile.nonce + 1 }), own, ?_⟩
      simp [queued, perform, receive, receiveConnecting, receiveGreeting, greet,
        meet, send, Connection.send, Connection.opened, own, Node.greeting,
        moment, hnonce, hversion]
  | client =>
      refine ⟨.start moment, own, ?_⟩
      simp [queued, perform, start, greet, send, Connection.send,
        Connection.opened, own, moment]
  | sync =>
      refine ⟨.start moment, own, ?_⟩
      simp [queued, perform, start, greet, send, Connection.send,
        Connection.opened, own, moment]

theorem phase_tick_opened (node : Node) (id : PeerId) (mode : Mode)
    (remote : SocketAddress) (now : Nat) :
    (Link.tick ⟨node, .opened id mode remote now⟩ now).connection.phase =
      if node.profile.idleTimeout = 0 then .disconnected .handshakeTimeout
      else .connecting := by
  by_cases hidle : node.profile.idleTimeout = 0
  · simp [tick, overdue?, Connection.opened, hidle, disconnect,
      Connection.disconnect]
  · simp [tick, overdue?, Connection.opened, hidle]

end Link

namespace Service

/-- Accepted settings are those of a service, and its node can be made unless
two read timeouts are more seconds than a word holds.  A connection of such a
node is understood while the user agent and the streams are within the limits of
a version, and outlasts a first tick if it may be idle at all. -/
theorem accepted_settings_run_iff {settings : NodeSettings}
    (haccepted : settings.check = .ok ()) (hasher : Hasher)
    (resolver : Resolver) (nonce : UInt64) (magic : Frame.Magic) :
    ∃ service, settings.service = .ok service ∧
      ((∃ launched, launch settings hasher resolver nonce = .ok launched ∧
          launched.node.profile = service.profile nonce none) ↔
        2 * settings.network.readTimeout.toNat < UInt64.size) ∧
      ∀ answer? (node : Node), node.profile = service.profile nonce answer? →
        ∀ id mode remote now,
          (∃ actions action greeting, .version greeting ∈
            (Link.run ⟨node, .opened id mode remote now⟩ actions).queued
              action) ∧
          (∀ actions action greeting, .version greeting ∈
            (Link.run ⟨node, .opened id mode remote now⟩ actions).queued
              action →
              ((∃ frame read, Frame.encode hasher magic (.version greeting) =
                .ok frame ∧
                  Frame.decode hasher magic frame =
                    .message (.version read) []) ↔
                (Utf8.encode settings.userAgent).length ≤
                  Greeting.longestUserAgent ∧
                  settings.network.streams.length ≤ Greeting.mostStreams)) ∧
          (Link.tick ⟨node, .opened id mode remote now⟩ now).connection.phase =
            if settings.network.idleTimeout =
              0 then .disconnected .handshakeTimeout
            else .connecting := by
  obtain ⟨service, hservice, hyields⟩ :=
    NodeSettings.exists_service_of_check haccepted
  refine ⟨service, hservice, ?_, ?_⟩
  · rw [launch_eq hservice, ← hyields.isTimely_iff]
    split_ifs with htimely
    · exact iff_of_true ⟨_, rfl, rfl⟩ htimely
    · refine iff_of_false ?_ htimely
      rintro ⟨launched, hlaunched, -⟩
      cases hlaunched
  intro answer? node hprofile id mode remote now
  refine ⟨?_, ?_, ?_⟩
  · obtain ⟨action, greeting, hqueued⟩ :=
      Link.exists_queued_version node id mode remote now
    exact ⟨[], action, greeting, hqueued⟩
  · intro actions action greeting hqueued
    obtain ⟨huserAgent, hstreams⟩ := Link.greeting_of_queued hqueued
    rw [Frame.exists_decode_version_iff, huserAgent, hstreams, hprofile]
    rw [ServiceSettings.profile, hyields.userAgent, hyields.streams]
  · have hidle : (service.profile nonce answer?).idleTimeout = 0 ↔
        settings.network.idleTimeout = 0 := by
      rw [ServiceSettings.profile, hyields.idleTimeout, ← UInt64.toNat_inj]
      exact Nat.mul_eq_zero.trans (or_iff_left (by decide))
    rw [Link.phase_tick_opened, hprofile]
    simp only [hidle]

/-- Accepted, but no connection outlasts the instant at which it is opened. -/
def zeroIdleSettings : NodeSettings where
  network := { idleTimeout := 0 }

theorem zeroIdleSettings_time_out :
    zeroIdleSettings.check = .ok () ∧
      (∃ launched, launch zeroIdleSettings .sha512 .none 1 = .ok launched) ∧
      ∃ service, zeroIdleSettings.service = .ok service ∧
        ∀ node : Node, node.profile = service.profile 1 none →
          ∀ id mode remote now,
          (Link.tick ⟨node, .opened id mode remote now⟩ now).connection.phase =
            .disconnected .handshakeTimeout := by
  have haccepted : zeroIdleSettings.check = .ok () := rfl
  obtain ⟨service, hservice, hlaunch, hconnections⟩ :=
    accepted_settings_run_iff haccepted .sha512 .none 1 Frame.networkMagic
  obtain ⟨launched, hlaunched, -⟩ := hlaunch.mpr (by decide)
  refine ⟨haccepted, ⟨launched, hlaunched⟩, service, hservice, ?_⟩
  intro node hprofile id mode remote now
  exact (hconnections none node hprofile id mode remote now).2.2

end Service

end ObjectRelay
