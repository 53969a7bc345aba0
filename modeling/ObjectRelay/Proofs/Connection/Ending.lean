import ObjectRelay.Proofs.Connection.Effect

namespace ObjectRelay

/-- What the owner of a connection calls once it has started it, before it is
done with it. -/
def Action.IsCall : Action → Prop
  | receive _ _ | offer _ _ | reassign _ _ | tick _ | disconnect _ => True
  | start _ | release => False

structure Connection.Spent (connection : Connection) : Prop where
  disconnected : connection.isDisconnected = true
  outstanding : connection.outstanding.size = 0

theorem Connection.exists_reason_of_isDisconnected {connection : Connection}
    (h : connection.isDisconnected = true) :
    ∃ reason, connection.phase = .disconnected reason := by
  obtain ⟨reason, hreason⟩ := Option.isSome_iff_exists.mp h
  refine ⟨reason, ?_⟩
  rw [reason?] at hreason
  split at hreason
  · rename_i other hphase
    cases hreason
    exact hphase
  · cases hreason

theorem Connection.isDisconnected_disconnect (connection : Connection)
    (reason : DisconnectReason) :
    (connection.disconnect reason).isDisconnected = true := by
  cases hphase : connection.phase <;>
    simp [disconnect, isDisconnected, reason?, hphase]

namespace Link

variable {link : Link}

theorem perform_of_isDisconnected (h : link.connection.isDisconnected = true)
    {action : Action} (hcall : action.IsCall) : link.perform action = link := by
  obtain ⟨reason, hphase⟩ := Connection.exists_reason_of_isDisconnected h
  have hidle : link.connection.isActive =
      false := by simp [Connection.isActive, hphase]
  cases action with
  | start moment => cases hcall
  | receive moment message => simp [perform, receive, hphase]
  | offer moment vector => simp [perform, offer, hidle]
  | reassign moment vectors => simp [perform, reassign, hidle]
  | tick now => simp [perform, tick, overdue?, hphase]
  | disconnect reason =>
      simp [perform, Link.disconnect, Connection.disconnect, hphase]
  | release => cases hcall

theorem phase_perform_of_isDisconnected
    (h : link.connection.isDisconnected = true) (action : Action) :
    (link.perform action).connection.phase = link.connection.phase := by
  by_cases hcall : action.IsCall
  · rw [perform_of_isDisconnected h hcall]
  · cases action with
    | start moment =>
        rw [perform, start]
        split <;> rfl
    | release => rfl
    | _ => exact absurd trivial hcall

theorem spent_of_disconnected (h : link.connection.isDisconnected = true)
    {after : Link} (hphase : after.connection.phase = link.connection.phase)
    (hsize : after.connection.outstanding.size = 0) :
    after.connection.Spent := by
  refine ⟨?_, hsize⟩
  rw [Connection.isDisconnected, Connection.reason?, hphase]
  exact h

theorem spent_release (h : link.connection.isDisconnected = true) :
    (link.perform .release).connection.Spent :=
  spent_of_disconnected h rfl Std.HashSet.size_empty

theorem spent_perform (h : link.connection.Spent) (action : Action) :
    (link.perform action).connection.Spent := by
  have hphase := phase_perform_of_isDisconnected h.disconnected action
  obtain ⟨reason, hreason⟩ :=
    Connection.exists_reason_of_isDisconnected h.disconnected
  have hidle : link.connection.isActive =
      false := by simp [Connection.isActive, hreason]
  apply spent_of_disconnected h.disconnected hphase
  have heffect := effect_perform link action
  generalize link.perform action = after at heffect
  -- Nothing but a release reaches the requests of a connection that is not
  -- active.
  cases heffect with
  | speech hspeech =>
      rw [show after.connection.outstanding = link.connection.outstanding from
        congrArg Stock.outstanding hspeech.stock]
      exact h.outstanding
  | announced hactive hasks => simp [hidle] at hactive
  | takenOver hactive hasks => simp [hidle] at hactive
  | delivered hactive hvector hdelivers => simp [hidle] at hactive
  | released hreleases =>
      rw [hreleases.outstanding]
      exact Std.HashSet.size_empty

end Link

end ObjectRelay
