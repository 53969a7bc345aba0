import Mathlib.Data.List.Induction
import ObjectRelay.Proofs.Connection.Lifecycle

namespace ObjectRelay

/-! A connection from its start on, whatever is called and in whatever order.
Until it is active it gives nothing away and touches nothing; it becomes active
by one proper greeting; and once it has ended nothing moves it. -/

/-- All that is queued before a connection is active. -/
inductive FirstWords (node : Node) (remote : SocketAddress) :
    Mode → List Message → Prop where
  | silence : FirstWords node remote .server []
  | greeting {mode : Mode} (hmode : mode ≠ .server) (clock : Int64) :
      FirstWords node remote mode [.version (node.greeting remote clock)]
  | reply (clock : Int64) :
      FirstWords node remote .server [.verack,
        .version (node.greeting remote clock)]
  | answer {answer : CustomMessage → Option CustomMessage}
      {request response : CustomMessage}
      (hanswer : node.profile.answer? = some answer)
        (hresponse : answer request = some response) :
      FirstWords node remote .server [.custom response]

namespace Link

def run (link : Link) (actions : List Action) : Link :=
  actions.foldl perform link

@[simp] theorem run_nil (link : Link) : link.run [] = link := rfl

theorem run_append (link : Link) (first second : List Action) :
    link.run (first ++ second) = (link.run first).run second :=
  List.foldl_append

theorem run_concat (link : Link) (actions : List Action) (action : Action) :
    link.run (actions ++ [action]) = (link.run actions).perform action :=
  run_append link actions [action]

theorem profile_run (link : Link) (actions : List Action) :
    (link.run actions).node.profile = link.node.profile := by
  induction actions generalizing link with
  | nil => rfl
  | cons action actions ih =>
      exact (ih (link.perform action)).trans (profile_perform link action)

/-- A connection that was opened and started. -/
def launched (node : Node) (id : PeerId) (mode : Mode) (remote : SocketAddress)
    (now : Nat) (moment : Moment) : Link :=
  (⟨node, .opened id mode remote now⟩ : Link).start moment

/-- It was active after some of the actions. -/
def Activated (link : Link) (actions : List Action) : Prop :=
  ∃ early, early <+: actions ∧ (link.run early).connection.isActive = true

/-- The actions that made a connection active, up to the one that did. -/
structure Handshake (origin : Link) (actions : List Action)
    (greeting : Greeting) : Prop where
  waited : ∀ early, early <+: actions → early ≠ actions →
    (origin.run early).connection.phase = .connecting
  active : (origin.run actions).connection.isActive = true
  greetings : actions.filterMap Action.greeting? = [greeting]
  nonce : greeting.nonce ≠ origin.node.profile.nonce
  version : leastProtocolVersion ≤ greeting.version
  verack : origin.connection.mode = .server →
    ∃ before between greeted acknowledged,
    actions = before ++ .receive greeted (.version greeting) ::
      (between ++ [.receive acknowledged .verack])

variable {origin link : Link} {history : List Action}

theorem rank_le_run (link : Link) {actions : List Action}
    (hcalls : ∀ action ∈ actions, action.IsCall) :
    link.connection.phase.rank ≤ (link.run actions).connection.phase.rank := by
  induction actions generalizing link with
  | nil => exact Nat.le_refl _
  | cons action rest ih =>
      exact Nat.le_trans
        (rank_le_perform link (hcalls action List.mem_cons_self))
        (ih (link.perform action) fun later hmem =>
          hcalls later (List.mem_cons_of_mem _ hmem))

theorem rank_le_of_early (origin : Link) {early : List Action}
    (hcalls : ∀ action ∈ history, action.IsCall) (hearly : early <+: history) :
    (origin.run early).connection.phase.rank ≤
      (origin.run history).connection.phase.rank := by
  obtain ⟨later, rfl⟩ := hearly
  rw [run_append]
  exact rank_le_run _ fun action hmem =>
    hcalls action (List.mem_append_right early hmem)

theorem run_of_isDisconnected (h : link.connection.isDisconnected = true)
    {actions : List Action} (hcalls : ∀ action ∈ actions, action.IsCall) :
    link.run actions = link := by
  induction actions with
  | nil => rfl
  | cons action rest ih =>
      have hstill :=
        perform_of_isDisconnected h (hcalls action List.mem_cons_self)
      show (link.perform action).run rest = link
      rw [hstill]
      exact ih fun later hmem => hcalls later (List.mem_cons_of_mem _ hmem)

theorem rank_eq_zero_iff {phase : Phase} :
    phase.rank = 0 ↔ phase = .connecting := by
  cases phase <;> simp [Phase.rank]

theorem rank_of_isActive {connection : Connection}
    (h : connection.isActive = true) :
    connection.phase.rank = 1 := by
  have hphase : connection.phase =
      .active := by simpa [Connection.isActive] using h
  rw [hphase]
  rfl

theorem connecting_of_early {early : List Action}
    (hcalls : ∀ action ∈ history, action.IsCall)
    (hphase : (origin.run history).connection.phase = .connecting)
    (hearly : early <+: history) :
    (origin.run early).connection.phase = .connecting := by
  have hrank := rank_le_of_early origin hcalls hearly
  rw [hphase] at hrank
  exact rank_eq_zero_iff.mp (Nat.le_zero.mp hrank)

theorem not_activated_of_connecting (hcalls : ∀ action ∈ history, action.IsCall)
    (hphase : (origin.run history).connection.phase = .connecting) :
    ¬ origin.Activated history := by
  intro hactivated
  obtain ⟨early, hearly, hactive⟩ := hactivated
  simp [Connection.isActive, connecting_of_early hcalls hphase hearly]
    at hactive

theorem not_activated_concat {action : Action}
    (hnever : ¬ origin.Activated history)
    (hended : ((origin.run history).perform action).connection.isDisconnected =
      true) :
    ¬ origin.Activated (history ++ [action]) := by
  intro hactivated
  obtain ⟨early, hearly, hactive⟩ := hactivated
  rcases List.prefix_concat_iff.mp hearly with rfl | hbefore
  · rw [run_concat] at hactive
    have hrank := rank_of_isActive hactive
    rw [rank_of_isDisconnected hended] at hrank
    cases hrank
  · exact hnever ⟨early, hbefore, hactive⟩

/-- What is known of a connection when it starts. -/
structure Begins (origin : Link) : Prop where
  phase : origin.connection.phase = .connecting
  peer : origin.connection.peer? = none
  queue : FirstWords origin.node origin.connection.remote origin.connection.mode
    origin.connection.queue
  silent : origin.connection.mode = .server → origin.connection.queue = []

/-- Where the history has brought a connection: its peer has not greeted it, or
has and awaits being acknowledged; it has ended without having been active; or
it has been active. -/
inductive Stage (origin : Link) (history : List Action) (link : Link) :
    Prop where
  | stranger (hphase : link.connection.phase = .connecting)
      (hstanding : link.standing = origin.standing)
      (hgreetings : history.filterMap Action.greeting? = [])
  | met {before between : List Action} {moment : Moment} {greeting : Greeting}
      (hphase : link.connection.phase = .connecting)
      (hmode : origin.connection.mode = .server)
      (hwelcome : Welcomes origin.node.profile greeting)
      (hstanding : link.standing = { (origin.meet greeting).standing with
        queue := [.verack, .version
          (origin.node.greeting origin.connection.remote moment.clock)] })
      (hhistory : history =
        before ++ .receive moment (.version greeting) :: between)
      (hbefore : before.filterMap Action.greeting? = [])
      (hbetween : between.filterMap Action.greeting? = [])
  | refused (hended : link.connection.isDisconnected = true)
      (hnever : ¬ origin.Activated history) (hnode : link.node = origin.node)
      (hqueue : FirstWords origin.node origin.connection.remote
        origin.connection.mode link.connection.queue)
  | opened {handshake later : List Action} {greeting : Greeting}
      (hhistory : history = handshake ++ later)
        (hhandshake : Handshake origin handshake greeting)
      (hphase : link.connection.phase ≠ .connecting)
      (hstreams : link.connection.streams =
        origin.node.profile.streams.filter fun stream =>
          greeting.streams.contains stream)

variable {action : Action}

theorem handshake_concat {greeting : Greeting}
    (hcalls : ∀ action ∈ history, action.IsCall)
    (hphase : (origin.run history).connection.phase = .connecting)
    (hactive : ((origin.run history).perform action).connection.phase = .active)
    (hwelcome : Welcomes origin.node.profile greeting)
    (hgreetings : (history ++ [action]).filterMap Action.greeting? = [greeting])
    (hverack : origin.connection.mode = .server →
      ∃ before between greeted acknowledged,
      history ++ [action] = before ++ .receive greeted (.version greeting) ::
        (between ++ [.receive acknowledged .verack])) :
    Handshake origin (history ++ [action]) greeting where
  waited early hearly hbefore := by
    rcases List.prefix_concat_iff.mp hearly with hsame | hearlier
    · exact absurd hsame hbefore
    · exact connecting_of_early hcalls hphase hearlier
  active := by
    rw [run_concat]
    simp [Connection.isActive, hactive]
  greetings := hgreetings
  nonce := hwelcome.nonce
  version := Int32.not_lt.mp hwelcome.version
  verack := hverack

theorem stage_of_stranger (hbegins : Begins origin)
    (hcalls : ∀ action ∈ history, action.IsCall) (hcall : action.IsCall)
    (hphase : (origin.run history).connection.phase = .connecting)
    (hstanding : (origin.run history).standing = origin.standing)
    (hgreetings : history.filterMap Action.greeting? = []) :
    Stage origin (history ++ [action])
      ((origin.run history).perform action) := by
  have hnever := not_activated_of_connecting hcalls hphase
  have hadvance : Advance origin action ((origin.run history).perform action) :=
    (advance_perform hphase hcall).congr hstanding
  generalize hafter : (origin.run history).perform action = after at hadvance
  cases hadvance with
  | waits hgreeting hstill hsame =>
      refine .stranger hstill hsame ?_
      simp [hgreetings, hgreeting]
  | ends hended hsame =>
      refine .refused hended (not_activated_concat hnever (hafter ▸ hended))
        (congrArg Standing.node hsame) ?_
      have hqueue : after.connection.queue = origin.connection.queue :=
        congrArg Standing.queue hsame
      rw [hqueue]
      exact hbegins.queue
  | answers hmode hpeer hanswer hresponse hended hanswered =>
      refine .refused hended (not_activated_concat hnever (hafter ▸ hended))
        (congrArg Standing.node hanswered) ?_
      have hqueue := congrArg Standing.queue hanswered
      rw [hbegins.silent hmode] at hqueue
      rw [show after.connection.queue = _ from hqueue, hmode]
      exact .answer hanswer hresponse
  | meets hmode hpeer hwelcome hstill hmet =>
      rw [hbegins.silent hmode] at hmet
      exact .met hstill hmode hwelcome hmet rfl hgreetings rfl
  | connects hmode hpeer hwelcome hactive hstreams =>
      refine .opened (List.append_nil _).symm
        (handshake_concat hcalls hphase (hafter ▸ hactive) hwelcome ?_
          fun hserver => absurd hserver hmode) ?_ hstreams
      · simp [hgreetings, Action.greeting?]
      · simp [hactive]
  | confirms hmode hpeer hactive hstreams => simp [hbegins.peer] at hpeer

theorem stage_of_met {before between : List Action} {moment : Moment}
    {greeting : Greeting} (hcalls : ∀ action ∈ history, action.IsCall)
    (hcall : action.IsCall)
    (hphase : (origin.run history).connection.phase = .connecting)
    (hmode : origin.connection.mode = .server)
    (hwelcome : Welcomes origin.node.profile greeting)
    (hstanding : (origin.run history).standing =
      { (origin.meet greeting).standing with
      queue := [.verack, .version
        (origin.node.greeting origin.connection.remote moment.clock)] })
    (hhistory : history =
      before ++ .receive moment (.version greeting) :: between)
    (hbefore : before.filterMap Action.greeting? = [])
    (hbetween : between.filterMap Action.greeting? = []) :
    Stage origin (history ++ [action])
      ((origin.run history).perform action) := by
  have hnever := not_activated_of_connecting hcalls hphase
  have hadvance := advance_perform hphase hcall
  have hpeer : (origin.run history).connection.peer? ≠ none := by
    rw [show (origin.run history).connection.peer? = _ from
      congrArg Standing.peer? hstanding]
    exact Option.some_ne_none _
  generalize hafter : (origin.run history).perform action = after at hadvance
  cases hadvance with
  | waits hgreeting hstill hsame =>
      have hlonger : history ++ [action] =
          before ++ .receive moment (.version greeting) ::
            (between ++ [action]) := by
        rw [hhistory, List.append_assoc]
        rfl
      exact .met hstill hmode hwelcome (hsame.trans hstanding) hlonger hbefore
        (by simp [hbetween, hgreeting])
  | ends hended hsame =>
      refine .refused hended (not_activated_concat hnever (hafter ▸ hended))
        (congrArg Standing.node (hsame.trans hstanding)) ?_
      rw [show after.connection.queue = _ from
        congrArg Standing.queue (hsame.trans hstanding), hmode]
      exact .reply moment.clock
  | answers _ hstranger => exact absurd hstranger hpeer
  | meets _ hstranger => exact absurd hstranger hpeer
  | connects _ hstranger => exact absurd hstranger hpeer
  | confirms _ _ hactive hstreams =>
      refine .opened (List.append_nil _).symm
        (handshake_concat hcalls hphase (hafter ▸ hactive) hwelcome ?_
          fun _ => ⟨before, between, moment,
            _, by rw [hhistory, List.append_assoc]; rfl⟩) ?_ ?_
      · simp [hhistory, hbefore, hbetween, Action.greeting?]
      · simp [hactive]
      · exact hstreams.trans (congrArg Standing.streams hstanding)

theorem stage_of_refused (hcall : action.IsCall)
    (hended : (origin.run history).connection.isDisconnected = true)
    (hnever : ¬ origin.Activated history)
    (hnode : (origin.run history).node = origin.node)
    (hqueue : FirstWords origin.node origin.connection.remote
      origin.connection.mode (origin.run history).connection.queue) :
    Stage origin (history ++ [action])
      ((origin.run history).perform action) := by
  have hsame := perform_of_isDisconnected hended hcall
  have hstill : ((origin.run history).perform
      action).connection.isDisconnected = true := by
    rwa [hsame]
  rw [hsame]
  exact .refused hended (not_activated_concat hnever hstill) hnode hqueue

theorem stage_of_opened {handshake later : List Action} {greeting : Greeting}
    (hcall : action.IsCall) (hhistory : history = handshake ++ later)
    (hhandshake : Handshake origin handshake greeting)
    (hphase : (origin.run history).connection.phase ≠ .connecting)
    (hstreams : (origin.run history).connection.streams =
      origin.node.profile.streams.filter fun stream =>
        greeting.streams.contains stream) :
    Stage origin (history ++ [action])
      ((origin.run history).perform action) := by
  have hlonger : history ++ [action] = handshake ++ (later ++ [action]) := by
    rw [hhistory, List.append_assoc]
  have hrank := rank_le_perform (origin.run history) hcall
  have hstill : ((origin.run history).perform action).connection.phase ≠
      .connecting := by
    intro hback
    rw [hback] at hrank
    exact hphase (rank_eq_zero_iff.mp (Nat.le_zero.mp hrank))
  refine .opened hlonger hhandshake hstill ?_
  by_cases hactive : (origin.run history).connection.isActive = true
  · rw [(persists_perform hactive hcall).streams, hstreams]
  · have hended : (origin.run history).connection.isDisconnected = true := by
      cases hcase : (origin.run history).connection.phase with
      | connecting => exact absurd hcase hphase
      | active => simp [Connection.isActive, hcase] at hactive
      | disconnected reason =>
          simp [Connection.isDisconnected, Connection.reason?, hcase]
    rw [perform_of_isDisconnected hended hcall, hstreams]

theorem stage_run (hbegins : Begins origin)
    (hcalls : ∀ action ∈ history, action.IsCall) :
    Stage origin history (origin.run history) := by
  -- Every stage is told from the whole history, so the last call is taken off,
  -- not the first.
  induction history using List.reverseRecOn with
  | nil => exact .stranger hbegins.phase rfl rfl
  | append_singleton earlier action ih =>
      have hearlier : ∀ action ∈ earlier, action.IsCall :=
        fun action hmem => hcalls action (List.mem_append_left _ hmem)
      have hcall : action.IsCall := hcalls action (by simp)
      rw [run_concat]
      cases ih hearlier with
      | stranger hphase hstanding hgreetings =>
          exact stage_of_stranger hbegins hearlier hcall hphase hstanding
            hgreetings
      | met hphase hmode hwelcome hstanding hhistory hbefore hbetween =>
          exact stage_of_met hearlier hcall hphase hmode hwelcome hstanding
            hhistory hbefore hbetween
      | refused hended hnever hnode hqueue =>
          exact stage_of_refused hcall hended hnever hnode hqueue
      | opened hhistory hhandshake hphase hstreams =>
          exact stage_of_opened hcall hhistory hhandshake hphase hstreams

theorem begins_launched (node : Node) (id : PeerId) (mode : Mode)
    (remote : SocketAddress) (now : Nat) (moment : Moment) :
    Begins (launched node id mode remote now moment) := by
  cases mode with
  | server => exact ⟨rfl, rfl, .silence, fun _ => rfl⟩
  | client =>
      exact ⟨rfl, rfl, .greeting Mode.noConfusion moment.clock,
        fun h => by cases h⟩
  | sync =>
      exact ⟨rfl, rfl, .greeting Mode.noConfusion moment.clock,
        fun h => by cases h⟩

theorem reticent_of_not_activated (hbegins : Begins origin)
    (hcalls : ∀ action ∈ history, action.IsCall)
    (hnever : ¬ origin.Activated history) :
    (origin.run history).node = origin.node ∧
      FirstWords origin.node origin.connection.remote origin.connection.mode
        (origin.run history).connection.queue := by
  cases stage_run hbegins hcalls with
  | stranger hphase hstanding hgreetings =>
      refine ⟨congrArg Standing.node hstanding, ?_⟩
      rw [show (origin.run history).connection.queue = _ from
        congrArg Standing.queue hstanding]
      exact hbegins.queue
  | met hphase hmode hwelcome hstanding hhistory hbefore hbetween =>
      refine ⟨congrArg Standing.node hstanding, ?_⟩
      rw [show (origin.run history).connection.queue = _ from
        congrArg Standing.queue hstanding, hmode]
      exact .reply _
  | refused hended hnever hnode hqueue => exact ⟨hnode, hqueue⟩
  | opened hhistory hhandshake hphase hstreams =>
      refine absurd ⟨_, ?_, hhandshake.active⟩ hnever
      rw [hhistory]
      exact List.prefix_append _ _

theorem handshake_of_activated (hbegins : Begins origin)
    (hcalls : ∀ action ∈ history, action.IsCall)
    (hactivated : origin.Activated history) :
    ∃ handshake later greeting, history = handshake ++ later ∧
      Handshake origin handshake greeting ∧
      (origin.run history).connection.streams =
        origin.node.profile.streams.filter fun stream =>
          greeting.streams.contains stream := by
  cases stage_run hbegins hcalls with
  | stranger hphase hstanding hgreetings =>
      exact absurd hactivated (not_activated_of_connecting hcalls hphase)
  | met hphase hmode hwelcome hstanding hhistory hbefore hbetween =>
      exact absurd hactivated (not_activated_of_connecting hcalls hphase)
  | refused hended hnever hnode hqueue => exact absurd hactivated hnever
  | opened hhistory hhandshake hphase hstreams =>
      exact ⟨_, _, _, hhistory, hhandshake, hstreams⟩

theorem run_eq_of_early {early : List Action}
    (hcalls : ∀ action ∈ history, action.IsCall) (hearly : early <+: history)
    (hended : (origin.run early).connection.isDisconnected = true) :
    origin.run history = origin.run early := by
  obtain ⟨later, rfl⟩ := hearly
  rw [run_append]
  exact run_of_isDisconnected hended fun action hmem =>
    hcalls action (List.mem_append_right early hmem)

theorem launched_given (node : Node) (id : PeerId) (mode : Mode)
    (remote : SocketAddress) (now : Nat) (moment : Moment) :
    (launched node id mode remote now moment).node = node ∧
      (launched node id mode remote now moment).connection.mode = mode ∧
      (launched node id mode remote now moment).connection.remote = remote := by
  cases mode <;> exact ⟨rfl, rfl, rfl⟩

/-- A connection that was started keeps the node as it is and says next to
nothing until it is active; it is active only after one acceptable greeting,
acknowledged where it was accepted; and it goes from connecting to active to
disconnected and stays there. -/
theorem run_launched (node : Node) (id : PeerId) (mode : Mode)
    (remote : SocketAddress) (now : Nat) (moment : Moment)
    {actions : List Action} (hcalls : ∀ action ∈ actions, action.IsCall) :
    let origin := launched node id mode remote now moment
    (¬ origin.Activated actions →
      (origin.run actions).node = node ∧
        FirstWords node remote mode (origin.run actions).connection.queue) ∧
    (origin.Activated actions → ∃ handshake later greeting,
      actions = handshake ++ later ∧ Handshake origin handshake greeting ∧
        (origin.run actions).connection.streams =
          node.profile.streams.filter fun stream =>
            greeting.streams.contains stream) ∧
    ∀ early, early <+: actions →
      (origin.run early).connection.phase.rank ≤
        (origin.run actions).connection.phase.rank ∧
        ((origin.run early).connection.isDisconnected = true →
          origin.run actions = origin.run early) := by
  intro origin
  have hbegins : Begins origin := begins_launched node id mode remote now moment
  obtain ⟨hnode, hmode, hremote⟩ : origin.node = node ∧
    origin.connection.mode = mode ∧
      origin.connection.remote = remote :=
        launched_given node id mode remote now moment
  refine ⟨fun hnever => ?_, fun hactivated => ?_, fun early hearly => ?_⟩
  · have hreticent := reticent_of_not_activated hbegins hcalls hnever
    rwa [hnode, hmode, hremote] at hreticent
  · have hhandshake := handshake_of_activated hbegins hcalls hactivated
    rwa [hnode] at hhandshake
  · exact ⟨rank_le_of_early origin hcalls hearly, run_eq_of_early hcalls hearly⟩

/-- A peer that is met and confirmed, and named two of the three streams in its
own order. -/
theorem run_launched_server :
    let node : Node := {
      profile := ⟨1, [1, 2, 3], PeerRecord.relaysObjects, "", none, 1000, 1000⟩
      port := 8444
      engine := ⟨⟨fun _ => .ofNat digestSize 0⟩, .network, ∅⟩ }
    let remote : SocketAddress := .v4 (.ofNat 4 0) 0
    let moment : Moment := ⟨0, 0, .none⟩
    let greeting : Greeting :=
      ⟨4, 0, 0, .ofSocket remote 1 0 0, .ofSocket remote 1 0 0, 2, "", [3, 1]⟩
    let actions : List Action :=
      [.receive moment (.inv []), .receive moment (.version greeting),
        .receive moment .verack, .disconnect .shutdown]
    let origin := launched node 0 .server remote 0 moment
    (∀ action ∈ actions, action.IsCall) ∧ origin.Activated actions ∧
      (origin.run actions).connection.isDisconnected = true ∧
      (origin.run actions).connection.streams = [1, 3] := by
  intro node remote moment greeting actions origin
  have hcalls : ∀ action ∈ actions,
      action.IsCall := by simp [actions, Action.IsCall]
  have hactive : (origin.run (actions.take 3)).connection.phase = .active :=
    activate_phase moment
  have hactivated : origin.Activated actions :=
    ⟨actions.take 3,
      List.take_prefix 3 actions, by simp [Connection.isActive, hactive]⟩
  obtain ⟨handshake, later, heard, hsplit, hhandshake, hstreams⟩ :=
    (run_launched node 0 .server remote 0 moment hcalls).2.1 hactivated
  have hgreetings : actions.filterMap Action.greeting? = [greeting] := rfl
  rw [hsplit, List.filterMap_append, hhandshake.greetings] at hgreetings
  have hheard : heard = greeting := (List.cons.inj hgreetings).1
  rw [hheard] at hstreams
  exact ⟨hcalls, hactivated,
    (origin.run (actions.take 3)).connection.isDisconnected_disconnect
      .shutdown, hstreams⟩

end Link

end ObjectRelay
