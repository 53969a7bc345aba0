import Mathlib.Data.List.Induction
import Mathlib.Order.Bounds.Basic
import ObjectRelay.Proofs.Connection.Clocks
import ObjectRelay.Proofs.Hub.Storage

namespace ObjectRelay

namespace Hub

/-! When the connections of a node end by the clock, whatever came before: one
that waits for objects is measured from the last progress that it made, and
chatter is no progress. -/

/-- When something is done to one connection. -/
def Step.instantFor? (id : PeerId) : Step → Option Nat
  | act actor action => if actor = id then action.instant? else none
  | write _ | consult _ _ | work _ => none

/-- What is done to one connection is done in the order of its instants. -/
def Forward (id : PeerId) (steps : List Step) : Prop :=
  (steps.filterMap (Step.instantFor? id)).Pairwise (· ≤ ·)

/-- One of the steps was progress for the connection: it began to wait, or got
something that it waited for. -/
def ProgressedAt (hub : Hub) (id : PeerId) (steps : List Step)
    (now : Nat) : Prop :=
  ∃ early action later link, steps = early ++ .act id action :: later ∧
    (hub.run early).link? id = some link ∧ link.Progresses action now

/-- The last of these steps. -/
def LastProgressedAt (hub : Hub) (id : PeerId) (steps : List Step) :
    Nat → Prop :=
  IsGreatest { now | hub.ProgressedAt id steps now }

/-- The peer said something. -/
def HeardAt (id : PeerId) (steps : List Step) (now : Nat) : Prop :=
  ∃ moment message, .act id (.receive moment message) ∈ steps ∧
    moment.instant = now

variable {hub : Hub} {id : PeerId} {step : Step} {steps : List Step}
  {action : Action} {now : Nat} {link before after : Link}

theorem exists_link?_of_step (hafter : (hub.step step).link? id = some after) :
    ∃ before, hub.link? id = some before := by
  obtain ⟨-, hmem, hid⟩ := link?_eq_some_iff.mp hafter
  have hnamed : id ∈ hub.connections.map (·.id) := by
    rw [← ids_step hub step]
    exact List.mem_map.mpr ⟨after.connection, hmem, hid⟩
  obtain ⟨connection, hold, hsame⟩ := List.mem_map.mp hnamed
  exact ⟨_, link?_of_find? (find?_eq_some_iff.mpr ⟨hold, hsame⟩)⟩

theorem link?_step_act (hlink : hub.link? id = some link) (action : Action) :
    (hub.step (.act id action)).link? id = some (link.perform action) := by
  rw [step_act hlink]
  exact link?_put_self hlink (link.id_perform action)

theorem Forward.of_concat (h : Forward id (steps ++ [step])) :
    Forward id steps := by
  rw [Forward, List.filterMap_append, List.pairwise_append] at h
  exact h.1

theorem Forward.le (h : Forward id (steps ++ [.act id action]))
    (hinstant : action.instant? = some now) {earlier : Nat}
    (hearlier : earlier ∈ steps.filterMap (Step.instantFor? id)) :
    earlier ≤ now := by
  rw [Forward, List.filterMap_append, List.pairwise_append] at h
  refine h.2.2 earlier hearlier now ?_
  simp [Step.instantFor?, hinstant]

theorem ProgressedAt.mem_instants (h : hub.ProgressedAt id steps now) :
    now ∈ steps.filterMap (Step.instantFor? id) := by
  obtain ⟨early, action, later, link, rfl, -, hprogresses⟩ := h
  have hinstant : (Step.act id action).instantFor? id = some now :=
    (if_pos rfl).trans hprogresses.instant?_eq
  exact List.mem_filterMap.mpr ⟨_, by simp, hinstant⟩

theorem HeardAt.mem_instants (h : HeardAt id steps now) :
    now ∈ steps.filterMap (Step.instantFor? id) := by
  obtain ⟨moment, message, hmem, rfl⟩ := h
  exact List.mem_filterMap.mpr ⟨_, hmem, if_pos rfl⟩

theorem progressedAt_concat_iff : hub.ProgressedAt id (steps ++ [step]) now ↔
    hub.ProgressedAt id steps now ∨ ∃ action link, step = .act id action ∧
      (hub.run steps).link? id = some link ∧ link.Progresses action now := by
  constructor
  · intro hprogressed
    obtain ⟨early, action, later, link, hsteps, hlink, hprogresses⟩ :=
      hprogressed
    rcases List.eq_nil_or_concat later with rfl | ⟨between, last, rfl⟩
    · obtain ⟨hearly, hlast⟩ := List.append_inj' hsteps rfl
      exact .inr ⟨action, link, (List.cons.inj hlast).1, hearly ▸ hlink,
        hprogresses⟩
    · have hsplit : steps ++ [step] =
          (early ++ .act id action :: between) ++ [last] := by
        rw [hsteps, List.concat_eq_append, List.append_assoc, List.cons_append]
      exact .inl ⟨early, action, between, link,
        (List.append_inj' hsplit rfl).1, hlink, hprogresses⟩
  · intro hprogressed
    cases hprogressed with
    | inl hearlier =>
        obtain ⟨early, action, later, link, rfl, hlink, hprogresses⟩ := hearlier
        exact ⟨early, action, later ++ [step], link, by simp, hlink,
          hprogresses⟩
    | inr hlast =>
        obtain ⟨action, link, rfl, hlink, hprogresses⟩ := hlast
        exact ⟨steps, action, [], link, rfl, hlink, hprogresses⟩

theorem progressedAt_concat_of_not
    (hlink : (hub.run steps).link? id = some link)
    (hnone : ∀ action, step = .act id action → ∀ now,
      ¬ link.Progresses action now) :
    hub.ProgressedAt id (steps ++ [step]) now ↔
    hub.ProgressedAt id steps now := by
  rw [progressedAt_concat_iff]
  apply or_iff_left
  intro hlast
  obtain ⟨action, other, hstep, hother, hprogresses⟩ := hlast
  rw [hlink, Option.some_inj] at hother
  exact hnone action hstep now (hother ▸ hprogresses)

theorem lastProgressedAt_concat_of_not
    (hlink : (hub.run steps).link? id = some link)
    (hnone : ∀ action, step = .act id action → ∀ now,
      ¬ link.Progresses action now) :
    hub.LastProgressedAt id (steps ++ [step]) =
      hub.LastProgressedAt id steps := by
  have hsame : { now | hub.ProgressedAt id (steps ++ [step]) now } =
      { now | hub.ProgressedAt id steps now } := by
    ext now
    exact progressedAt_concat_of_not hlink hnone
  rw [LastProgressedAt, hsame, LastProgressedAt]

theorem lastProgressedAt_concat (hlink : (hub.run steps).link? id = some link)
    (hforward : Forward id (steps ++ [.act id action]))
    (hprogresses : link.Progresses action now) :
    hub.LastProgressedAt id (steps ++ [.act id action]) now := by
  refine ⟨progressedAt_concat_iff.mpr
    (.inr ⟨action, link, rfl, hlink, hprogresses⟩), ?_⟩
  intro earlier hearlier
  rcases progressedAt_concat_iff.mp hearlier with
    hbefore | ⟨_, other, hsame, hother, hagain⟩
  · exact hforward.le hprogresses.instant?_eq hbefore.mem_instants
  · cases hsame
    rw [hlink, Option.some_inj] at hother
    subst hother
    have hnow := hagain.instant?_eq.symm.trans hprogresses.instant?_eq
    exact Nat.le_of_eq (Option.some.inj hnow)

theorem heardAt_concat_iff : HeardAt id (steps ++ [step]) now ↔
    HeardAt id steps now ∨
      ∃ moment message, step = .act id (.receive moment message) ∧
        moment.instant = now := by
  simp only [HeardAt, List.mem_append, List.mem_singleton, or_and_right,
    exists_or, eq_comm]

structure Clocked (hub : Hub) (id : PeerId) (steps : List Step)
    (connection : Connection) : Prop where
  progressed : connection.outstanding.isEmpty = false →
    hub.LastProgressedAt id steps connection.lastObjectAt
  heard : connection.isDisconnected = false →
    ∀ now, HeardAt id steps now → now ≤ connection.lastActivity

theorem Fresh.clocked (h : hub.Fresh) (hlink : hub.link? id = some link) :
    Clocked hub id [] link.connection := by
  obtain ⟨-, hmem, -⟩ := link?_eq_some_iff.mp hlink
  obtain ⟨name, mode, remote, opened, hopened⟩ := h.opened _ hmem
  refine ⟨?_, ?_⟩
  · intro hwaits
    rw [hopened] at hwaits
    cases hwaits
  · intro _ now hheard
    obtain ⟨moment, message, hnever, -⟩ := hheard
    cases hnever

theorem Clocked.aside (h : Clocked hub id steps before.connection)
    (hbefore : (hub.run steps).link? id = some before)
    (hafter : ((hub.run steps).step step).link? id = some after)
    (haside : ∀ action, step ≠ .act id action) :
    Clocked hub id (steps ++ [step]) after.connection := by
  obtain ⟨known, queue, hfound⟩ :=
    exists_find?_aside (find?_of_link? hbefore) haside
  rw [Option.some.inj ((find?_of_link? hafter).symm.trans hfound)]
  refine ⟨?_, ?_⟩
  · rw [lastProgressedAt_concat_of_not hbefore fun action hstep =>
      absurd hstep (haside action)]
    exact h.progressed
  · intro hopen now hheard
    rcases heardAt_concat_iff.mp hheard with
      hearlier | ⟨moment, message, hstep, -⟩
    · exact h.heard hopen now hearlier
    · exact absurd hstep (haside _)

theorem Clocked.progressed_act (h : Clocked hub id steps link.connection)
    (hlink : (hub.run steps).link? id = some link)
    (hforward : Forward id (steps ++ [.act id action]))
    (hwaits : (link.perform action).connection.outstanding.isEmpty = false) :
    hub.LastProgressedAt id (steps ++ [.act id action])
      (link.perform action).connection.lastObjectAt := by
  by_cases hprogress : ∃ now, link.Progresses action now
  · obtain ⟨now, hprogresses⟩ := hprogress
    rw [hprogresses.lastObjectAt]
    exact lastProgressedAt_concat hlink hforward hprogresses
  · have hstands := (link.progresses_or_stands action).resolve_left hprogress
    rw [hstands.clock, lastProgressedAt_concat_of_not hlink]
    · exact h.progressed (hstands.waits hwaits)
    · intro other hstep now hprogresses
      cases hstep
      exact hprogress ⟨now, hprogresses⟩

theorem Clocked.heard_act (h : Clocked hub id steps link.connection)
    (hforward : Forward id (steps ++ [.act id action]))
    (hopen : (link.perform action).connection.isDisconnected = false)
    (hheard : HeardAt id (steps ++ [.act id action]) now) :
    now ≤ (link.perform action).connection.lastActivity := by
  have hbefore := Link.open_of_perform hopen
  rcases heardAt_concat_iff.mp hheard with
    hearlier | ⟨moment, message, hstep, rfl⟩
  · by_cases hreceives : ∃ moment message, action = .receive moment message
    · obtain ⟨moment, message, rfl⟩ := hreceives
      rw [(Link.heeds_receive hbefore moment message).lastActivity]
      exact hforward.le rfl hearlier.mem_instants
    · rw [link.lastActivity_perform fun moment message hsame =>
        hreceives ⟨moment, message, hsame⟩]
      exact h.heard hbefore now hearlier
  · cases hstep
    exact Nat.le_of_eq
      (Link.heeds_receive hbefore moment message).lastActivity.symm

theorem Clocked.act (h : Clocked hub id steps link.connection)
    (hlink : (hub.run steps).link? id = some link)
    (hforward : Forward id (steps ++ [.act id action])) :
    Clocked hub id (steps ++ [.act id action])
      (link.perform action).connection where
  progressed := h.progressed_act hlink hforward
  heard hopen _ hheard := h.heard_act hforward hopen hheard

theorem clocked_run (hfresh : hub.Fresh) (hforward : Forward id steps)
    (hlink : (hub.run steps).link? id = some link) :
    Clocked hub id steps link.connection := by
  induction steps using List.reverseRecOn generalizing link with
  | nil => exact hfresh.clocked hlink
  | append_singleton steps step ih =>
      rw [run_append] at hlink
      obtain ⟨before, hbefore⟩ := exists_link?_of_step hlink
      have hclocked := ih hforward.of_concat hbefore
      by_cases hacts : ∃ action, step = .act id action
      · obtain ⟨action, rfl⟩ := hacts
        have hperformed := hlink.symm.trans (link?_step_act hbefore action)
        rw [Option.some.inj hperformed]
        exact hclocked.act hbefore hforward
      · exact hclocked.aside hbefore hlink fun action hstep =>
          hacts ⟨action, hstep⟩

/-- An active connection ends for want of objects just when it has waited too
long since the last progress; whatever is not progress never puts this off.  A
connection ends as one that is synchronized only where it synchronizes, waits
for nothing, and has heard nothing for long enough. -/
theorem idleTimeout_iff_no_progress (hfresh : hub.Fresh)
    (hforward : Forward id steps)
    (hlink : (hub.run steps).link? id = some link) :
    (link.connection.isActive = true → ∀ now,
      ((link.perform (.tick now)).connection.phase =
          .disconnected .idleTimeout ↔
        link.connection.outstanding.isEmpty = false ∧
          ∃ since, hub.LastProgressedAt id steps since ∧
            link.node.profile.idleTimeout ≤ now - since)) ∧
      (∀ step, (∀ action, step = .act id action → link.Chatters action) →
        ∀ since, hub.LastProgressedAt id (steps ++ [step]) since ↔
          hub.LastProgressedAt id steps since) ∧
      (link.connection.isDisconnected = false → ∀ action,
        action ≠ .disconnect .syncComplete →
        (link.perform action).connection.phase = .disconnected .syncComplete →
          link.connection.mode = .sync ∧
            link.connection.outstanding.isEmpty = true ∧
            ∃ now, action = .tick now ∧ ∀ instant, HeardAt id steps instant →
              link.node.profile.quietPeriod ≤ now - instant) := by
  have hclocked := clocked_run hfresh hforward hlink
  refine ⟨?_, ?_, ?_⟩
  · intro hactive now
    rw [Link.idleTimeout_tick_iff hactive]
    refine and_congr_right fun hwaits => ?_
    have hlast := hclocked.progressed hwaits
    constructor
    · intro hstarved
      exact ⟨_, hlast, hstarved⟩
    · intro hlate
      obtain ⟨since, hsince, hstarved⟩ := hlate
      rw [hlast.unique hsince]
      exact hstarved
  · intro step hchatters since
    rw [lastProgressedAt_concat_of_not hlink fun action hstep now =>
      Link.not_progresses_of_chatters (hchatters action hstep)]
  · intro hopen action haction hended
    obtain ⟨now, rfl, hsynchronized⟩ :=
      Link.synchronized_of_syncComplete hopen haction hended
    refine ⟨hsynchronized.mode, hsynchronized.idle, now, rfl, ?_⟩
    intro instant hheard
    have hlater := hclocked.heard hopen instant hheard
    exact hsynchronized.quiet.trans (Nat.sub_le_sub_left hlater now)

def patientNode : Node :=
  { plainNode with profile :=
    { plainNode.profile with
      idleTimeout := 1000
      quietPeriod := 500 } }

def patientMoment (now : Nat) : Moment :=
  { plainMoment with instant := now }

def chatter (now : Nat) : Step :=
  .act 0 (.receive (patientMoment now) (.unknown "" []))

def chatteringRun : List Step :=
  [.act 0 (.receive (patientMoment 5) (.version plainGreeting)),
    .act 0 (.receive (patientMoment 10) (.inv [.ofNat 32 0])),
    chatter 700]

theorem forward_chatteringRun : Forward 0 chatteringRun := by
  simp [Forward, chatteringRun, chatter, Step.instantFor?, Action.instant?,
    patientMoment]

theorem exists_link?_chatteringRun :
    ∃ link, ((twoDialed patientNode plainRemote).run chatteringRun).link? 0 =
      some link ∧
      link.connection.isActive = true ∧
      link.connection.outstanding.isEmpty = false ∧
      link.connection.lastObjectAt = 10 ∧
      link.node.profile.idleTimeout = 1000 := by
  let opened : Link := ⟨patientNode, .opened 0 .client plainRemote 0⟩
  have hopened : (twoDialed patientNode plainRemote).link? 0 =
      some opened := rfl
  have hdialed : opened.Dialed := ⟨by rintro ⟨⟩, rfl, rfl⟩
  have hwelcome : Link.Welcomes opened.node.profile plainGreeting :=
    ⟨by decide, by decide⟩
  -- The greeting makes the connection active, and changes nothing of what it
  -- awaits.
  have hgreeted :=
    link?_step_act hopened (.receive (patientMoment 5) (.version plainGreeting))
  have hphase := (Link.perform_greeting hdialed hwelcome (patientMoment 5)).1
  have hstock : (opened.perform
      (.receive (patientMoment 5) (.version plainGreeting))).stock =
      opened.stock := Link.stock_greeting _ _
  generalize opened.perform
    (.receive (patientMoment 5) (.version plainGreeting)) = greeted at *
  have hrequests : greeted.node.requests = patientNode.requests :=
    congrArg Stock.requests hstock
  have hinventory : greeted.node.inventory = patientNode.inventory :=
    congrArg Stock.inventory hstock
  have hidle : greeted.connection.outstanding.isEmpty = true := by
    rw [show greeted.connection.outstanding = ∅ from
      congrArg Stock.outstanding hstock]
    exact Std.HashSet.isEmpty_empty
  -- The announcement makes it wait.
  have hasked : .ofNat 32 0 ∈ greeted.asked
      (greeted.node.inventory.missing [.ofNat 32 0]
        greeted.node.profile.streams) := by
    rw [Link.mem_asked, Inventory.mem_missing, hinventory, hrequests]
    exact ⟨⟨List.mem_singleton_self _, plainNode_serves _ _⟩,
      RequestLedger.owner?_eq_none_of_size_eq_zero size_requests_plainNode _⟩
  have hwaiting :=
    link?_step_act hgreeted (.receive (patientMoment 10) (.inv [.ofNat 32 0]))
  have hactive :=
    (Link.perform_announcement hphase (patientMoment 10) [.ofNat 32 0]).1
  have hwaits := Link.waits_of_announcement hphase (patientMoment 10) hasked
  have hclock : _ = 10 := (Link.Progresses.begins rfl hidle hwaits).lastObjectAt
  have hprofile := Link.profile_perform greeted
    (.receive (patientMoment 10) (.inv [.ofNat 32 0]))
  rw [show greeted.node.profile = patientNode.profile from
    congrArg Stock.profile hstock] at hprofile
  generalize greeted.perform
    (.receive (patientMoment 10) (.inv [.ofNat 32 0])) = waiting at *
  -- The rest is heard, and that is all.
  have hchattered :=
    link?_step_act hwaiting (.receive (patientMoment 700) (.unknown "" []))
  rw [Link.perform_receive_of_active hactive] at hchattered
  refine ⟨_, hchattered, ?_, hwaits, hclock, ?_⟩
  · exact decide_eq_true hactive
  · exact congrArg Profile.idleTimeout hprofile

def loneSync : Hub where
  node := patientNode
  connections := [.opened 0 .sync plainRemote 0]
  nodup_ids := List.nodup_singleton _

def greetedOnce : List Step :=
  [.act 0 (.receive (patientMoment 5) (.version plainGreeting))]

theorem exists_link?_greetedOnce :
    ∃ link, (loneSync.run greetedOnce).link? 0 = some link ∧
      link.connection.isDisconnected = false ∧
      (link.perform (.tick 505)).connection.phase =
        .disconnected .syncComplete ∧
      link.node.profile.quietPeriod = 500 := by
  let opened : Link := ⟨patientNode, .opened 0 .sync plainRemote 0⟩
  have hopened : loneSync.link? 0 = some opened := rfl
  have hwelcome : Link.Welcomes opened.node.profile plainGreeting :=
    ⟨by decide, by decide⟩
  have hgreeted := link?_step_act hopened
    (.receive (patientMoment 5) (.version plainGreeting))
  have hphase := (Link.perform_greeting ⟨by rintro ⟨⟩, rfl, rfl⟩ hwelcome
    (patientMoment 5)).1
  have hstock := opened.stock_greeting (patientMoment 5) plainGreeting
  have hheard : (opened.perform (.receive (patientMoment 5)
      (.version plainGreeting))).connection.lastActivity = 5 :=
    (Link.heeds_receive rfl (patientMoment 5)
      (.version plainGreeting)).lastActivity
  generalize opened.perform (.receive (patientMoment 5)
    (.version plainGreeting)) = greeted at *
  have hmode : greeted.connection.mode = .sync := congrArg Stock.mode hstock
  have hquiet : greeted.node.profile.quietPeriod = 500 :=
    congrArg (·.profile.quietPeriod) hstock
  have hidle : greeted.connection.outstanding.isEmpty = true := by
    rw [show greeted.connection.outstanding = ∅ from
      congrArg Stock.outstanding hstock]
    exact Std.HashSet.isEmpty_empty
  refine ⟨greeted, hgreeted, ?_, ?_, hquiet⟩
  · simp [Connection.isDisconnected, Connection.reason?, hphase]
  · have hoverdue : greeted.overdue? 505 = some .syncComplete := by
      simp [Link.overdue?, hphase, hidle, hmode, hquiet, hheard]
    rw [Link.phase_tick_of_isActive (decide_eq_true hphase), hoverdue]
    rfl

/-- An announced object is waited for neither shorter nor longer than a thousand
milliseconds, however much more is said; and a synchronization ends once there
were five hundred milliseconds of silence. -/
theorem patientNode_ends_in_time :
    (∃ link, ((twoDialed patientNode plainRemote).run chatteringRun).link? 0 =
        some link ∧
      (link.perform (.tick 1009)).connection.phase ≠
        .disconnected .idleTimeout ∧
      (link.perform (.tick 1010)).connection.phase =
        .disconnected .idleTimeout ∧
      (twoDialed patientNode plainRemote).LastProgressedAt 0
        (chatteringRun ++ [chatter 900]) 10) ∧
    ∃ link, (loneSync.run greetedOnce).link? 0 = some link ∧
      (link.perform (.tick 505)).connection.phase =
        .disconnected .syncComplete ∧
      link.connection.outstanding.isEmpty = true ∧
      ∀ instant, HeardAt 0 greetedOnce instant → 500 ≤ 505 - instant := by
  refine ⟨?_, ?_⟩
  · have hrequests : patientNode.requests.size = 0 := size_requests_plainNode
    have hfresh := fresh_twoDialed hrequests plainRemote
    obtain ⟨link, hlink, hactive, hwaits, hclock, htimeout⟩ :=
      exists_link?_chatteringRun
    have hlast :=
      (clocked_run hfresh forward_chatteringRun hlink).progressed hwaits
    rw [hclock] at hlast
    obtain ⟨hends, hstays, -⟩ :=
      idleTimeout_iff_no_progress hfresh forward_chatteringRun hlink
    refine ⟨link, hlink, ?_, ?_, ?_⟩
    · intro hearly
      obtain ⟨-, since, hsince, hstarved⟩ := (hends hactive 1009).mp hearly
      rw [hsince.unique hlast, htimeout] at hstarved
      exact absurd hstarved (by decide)
    · refine (hends hactive 1010).mpr ⟨hwaits, 10, hlast, ?_⟩
      rw [htimeout]
    · refine (hstays (chatter 900) ?_ 10).mpr hlast
      intro action hchatter
      cases hchatter
      trivial
  · have hfresh : loneSync.Fresh := by
      refine ⟨size_requests_plainNode, ?_⟩
      intro connection hmem
      exact ⟨_, _, _, _, List.mem_singleton.mp hmem⟩
    have hforward : Forward 0 greetedOnce := List.pairwise_singleton _ _
    obtain ⟨link, hlink, hopen, hended, hquiet⟩ := exists_link?_greetedOnce
    obtain ⟨-, -, hdone⟩ :=
      idleTimeout_iff_no_progress hfresh hforward hlink
    obtain ⟨-, hidle, now, htick, hsilence⟩ :=
      hdone hopen (.tick 505) nofun hended
    cases htick
    rw [hquiet] at hsilence
    exact ⟨link, hlink, hended, hidle, hsilence⟩

end Hub

end ObjectRelay
