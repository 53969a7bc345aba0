import ObjectRelay.Proofs.Connection.Clocks
import ObjectRelay.Proofs.Gossip.KnownVectors

namespace ObjectRelay

/-- A peer that says this has what is under the vector. -/
def Message.Names (hasher : Hasher) (vector : InventoryVector) : Message → Prop
  | inv vectors => vector ∈ vectors
  | object carried => carried.vector hasher = .ok vector
  | _ => False

namespace Link

open KnownVectors (Ages)

variable {link : Link} {moment : Moment} {vector : InventoryVector}
  {message : Message}

theorem known_disconnect (link : Link) (reason : DisconnectReason) :
    (link.disconnect reason).connection.known = link.connection.known := by
  cases hphase : link.connection.phase <;>
    simp [disconnect, Connection.disconnect, hphase]

theorem known_request (connection : Connection) (vectors : List InventoryVector)
    (now : Nat) :
    (connection.request vectors now).known = connection.known := by
  unfold Connection.request
  split <;> rfl

theorem known_receiveGreeting (link : Link) (moment : Moment)
    (greeting : Greeting) :
    (link.receiveGreeting moment greeting).1.connection.known =
      link.connection.known := by
  unfold receiveGreeting
  split
  · exact known_disconnect link _
  · split
    · exact known_disconnect link _
    · split
      · exact known_disconnect link _
      · dsimp only
        split
        · rfl
        · exact activate_known moment
        · exact activate_known moment

theorem known_receiveVerack (link : Link) (moment : Moment) :
    (link.receiveVerack moment).1.connection.known = link.connection.known := by
  unfold receiveVerack
  split
  · split
    · exact activate_known moment
    · exact known_disconnect link _
  · rfl
  · rfl

theorem known_receiveCustom (link : Link) (request : CustomMessage) :
    (link.receiveCustom request).connection.known = link.connection.known := by
  unfold receiveCustom
  split
  · dsimp only
    rw [known_disconnect]
    split <;> rfl
  · exact known_disconnect link _

theorem known_receiveConnecting (link : Link) (moment : Moment)
    (message : Message) :
    (link.receiveConnecting moment message).1.connection.known =
      link.connection.known := by
  cases message with
  | version greeting => exact known_receiveGreeting link moment greeting
  | verack => exact known_receiveVerack link moment
  | custom request => exact known_receiveCustom link request
  | _ => rfl

theorem ages_serve (moment : Moment) (link : Link) (vector : InventoryVector) :
    Ages moment.instant link.connection.known
      (serve moment link vector).connection.known := by
  unfold serve
  split
  · exact KnownVectors.ages_insert _ vector moment.instant
  · exact Ages.refl _ _

theorem ages_receiveRequest (link : Link) (moment : Moment)
    (vectors : List InventoryVector) :
    Ages moment.instant link.connection.known
      (link.receiveRequest moment vectors).connection.known := by
  unfold receiveRequest
  induction vectors generalizing link with
  | nil => exact Ages.refl _ _
  | cons vector rest ih => exact (ages_serve moment link vector).trans (ih _)

theorem known_receiveInventory (link : Link) (moment : Moment)
    (vectors : List InventoryVector) :
    (link.receiveInventory moment vectors).connection.known =
      link.connection.known.extend vectors moment.instant :=
  known_request _ _ _

theorem known_receiveObject {object : Object}
    (hvector : object.vector link.node.hasher = .ok vector) (moment : Moment) :
    (link.receiveObject moment object).1.connection.known =
      link.connection.known.insert vector moment.instant := by
  have hdeliver :
      ((link.remember vector moment.instant).deliver moment
        vector).connection.known =
      link.connection.known.insert vector moment.instant := by
    unfold deliver
    split <;> rfl
  simp only [receiveObject, hvector]
  split
  · exact hdeliver
  · exact hdeliver

theorem ages_receiveActive (link : Link) (moment : Moment) (message : Message) :
    Ages moment.instant link.connection.known
      (link.receiveActive moment message).1.connection.known := by
  cases message with
  | inv vectors =>
      rw [receiveActive, known_receiveInventory]
      exact KnownVectors.ages_extend _ vectors moment.instant
  | getdata vectors => exact ages_receiveRequest link moment vectors
  | object object =>
      cases hvector : object.vector link.node.hasher with
      | error failure =>
          simp only [receiveActive, receiveObject, hvector]
          exact Ages.refl _ _
      | ok vector =>
          rw [receiveActive, known_receiveObject hvector]
          exact KnownVectors.ages_insert _ vector moment.instant
  | addr records => exact Ages.refl _ _
  | unknown command payload => exact Ages.refl _ _
  | _ =>
      rw [receiveActive, known_disconnect]
      exact Ages.refl _ _

theorem ages_receive (link : Link) (moment : Moment) (message : Message) :
    Ages moment.instant link.connection.known
      (link.receive moment message).1.connection.known := by
  unfold receive
  dsimp only
  split
  · rw [known_receiveConnecting]
    exact Ages.refl _ _
  · exact ages_receiveActive (link.hear moment.instant) moment message
  · exact Ages.refl _ _

theorem ages_perform (link : Link) {action : Action} {now : Nat}
    (hinstant : ∀ instant, action.instant? = some instant → instant = now) :
    Ages now link.connection.known (link.perform action).connection.known := by
  cases action with
  | start moment =>
      rw [perform, start]
      split <;> exact Ages.refl _ _
  | receive moment message =>
      rw [← hinstant _ rfl]
      exact ages_receive link moment message
  | offer moment vector =>
      rw [← hinstant _ rfl, perform, offer]
      split
      · exact KnownVectors.ages_insert _ vector moment.instant
      · exact Ages.refl _ _
  | reassign moment vectors =>
      rw [← hinstant _ rfl, perform, reassign]
      split
      · rw [known_request]
        exact KnownVectors.ages_knownOf _ vectors moment.instant
      · exact Ages.refl _ _
  | tick instant =>
      rw [perform, tick]
      split
      · rw [known_disconnect]
        exact Ages.refl _ _
      · exact Ages.refl _ _
  | disconnect reason =>
      rw [perform, known_disconnect]
      exact Ages.refl _ _
  | release => exact Ages.refl _ _

theorem heardSince_receive (hactive : link.connection.phase = .active)
    (hnames : message.Names link.node.hasher vector) (moment : Moment) :
    (link.perform (.receive moment message)).connection.known.HeardSince vector
      moment.instant := by
  rw [perform_receive_of_active hactive]
  cases message with
  | inv vectors =>
      rw [receiveActive, known_receiveInventory]
      exact KnownVectors.heardSince_extend _ hnames moment.instant
  | object object =>
      let heard := link.hear moment.instant
      have hvector : object.vector heard.node.hasher = .ok vector := hnames
      have hknown := known_receiveObject hvector moment
      rw [receiveActive, hknown]
      exact KnownVectors.heardSince_insert _ vector moment.instant
  | _ => exact hnames.elim

end Link

end ObjectRelay
