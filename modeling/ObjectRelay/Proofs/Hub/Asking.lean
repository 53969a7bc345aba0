import ObjectRelay.Proofs.Hub.Balance

namespace ObjectRelay

namespace Message

def asksFor (message : Message) (vector : InventoryVector) : Bool :=
  match message with
  | getdata vectors => vectors.contains vector
  | _ => false

end Message

namespace Link

variable {vectors : List InventoryVector} {vector : InventoryVector}

theorem asksFor_of_mem_requestFor {message : Message}
    (h : message ∈ requestFor vectors) :
    message.asksFor vector = vectors.contains vector := by
  obtain ⟨-, rfl⟩ := mem_requestFor.mp h
  rfl

theorem requestFor_of_mem (h : vector ∈ vectors) :
    requestFor vectors = [.getdata vectors] := by
  cases vectors with
  | nil => cases h
  | cons first rest => rfl

end Link

namespace Hub

/-- The messages that a step queues, each beside the connection whose queue it
joins. -/
def spoken (hub : Hub) : Step → List (PeerId × Message)
  | .act id action => (hub.queued id action).map (id, ·)
  | .write _ | .consult _ _ | .work _ => []

def said (hub : Hub) : List Step → List (PeerId × Message)
  | [] => []
  | step :: rest => hub.spoken step ++ (hub.step step).said rest

/-- All requests of a run that name the vector. -/
def requestsFor (hub : Hub) (steps : List Step) (vector : InventoryVector) :
    List (PeerId × Message) :=
  (hub.said steps).filter fun entry => entry.2.asksFor vector

/-- In each step a connection asks for those of the vectors it wants that are
free. -/
inductive Asking (wants : PeerId → Action → InventoryVector → Prop) :
    Hub → List Step → Prop where
  | nil {hub : Hub} : Asking wants hub []
  | cons {hub : Hub} {id : PeerId} {link : Link} {action : Action}
      {wanted : List InventoryVector} {now : Nat} {rest : List Step}
      (hlink : hub.link? id = some link)
      (hasks : Link.Asks wanted now link (link.perform action))
      (hwants : ∀ vector, vector ∈ wanted ↔ wants id action vector)
      (hrest : Asking wants (hub.step (.act id action)) rest) :
      Asking wants hub (.act id action :: rest)

variable {hub : Hub} {id : PeerId} {link : Link} {action : Action}
  {wanted : List InventoryVector} {now : Nat} {rest steps : List Step}
  {vector : InventoryVector}

theorem requestsFor_cons (step : Step) :
    hub.requestsFor (step :: rest) vector =
      ((hub.spoken step).filter fun entry => entry.2.asksFor vector) ++
        (hub.step step).requestsFor rest vector := by
  rw [requestsFor, said, List.filter_append]
  rfl

theorem queued_of_link? (hlink : hub.link? id = some link) (action : Action) :
    hub.queued id action = link.queued action := by
  rw [queued, hlink]

theorem requests_of_asks (hlink : hub.link? id = some link)
    (hasks : Link.Asks wanted now link (link.perform action)) :
    ((hub.spoken (.act id action)).filter fun entry => entry.2.asksFor vector) =
      if vector ∈ link.asked wanted then [(id, .getdata (link.asked wanted))]
      else [] := by
  rw [spoken, queued_of_link? hlink, Link.queued_eq hasks.queue]
  split
  · rename_i hasked
    rw [Link.requestFor_of_mem hasked]
    simp [Message.asksFor, hasked]
  · rename_i hpassed
    rw [List.filter_eq_nil_iff]
    intro entry hentry
    obtain ⟨message, hmessage, rfl⟩ := List.mem_map.mp hentry
    rw [Link.asksFor_of_mem_requestFor hmessage, List.contains_iff_mem]
    exact hpassed

theorem owner?_step_of_asks (hlink : hub.link? id = some link)
    (hasks : Link.Asks wanted now link (link.perform action))
    (vector : InventoryVector) :
    (hub.step (.act id action)).node.requests.owner? vector =
      if vector ∈ link.asked wanted then some id
      else hub.node.requests.owner? vector := by
  obtain ⟨hnode, -, hname⟩ := link?_eq_some_iff.mp hlink
  rw [step_act hlink, ← hnode, ← hname]
  exact hasks.owner? vector

theorem mem_asked_iff (hlink : hub.link? id = some link) :
    vector ∈ link.asked wanted ↔ vector ∈ wanted ∧
    hub.node.requests.owner? vector = none := by
  rw [Link.mem_asked, (link?_eq_some_iff.mp hlink).1]

variable {wants : PeerId → Action → InventoryVector → Prop}

/-- A vector that is taken, or that nobody wants, is left as it is. -/
theorem Asking.pass (h : Asking wants hub steps)
    (hpassed : (hub.node.requests.owner? vector).isSome = true ∨
      ∀ id action, .act id action ∈ steps → ¬ wants id action vector) :
    hub.requestsFor steps vector = [] ∧
      (hub.run steps).node.requests.owner? vector =
        hub.node.requests.owner? vector := by
  induction h with
  | nil => exact ⟨rfl, rfl⟩
  | @cons hub id link action wanted now rest hlink hasks hwants hrest ih =>
      have hunasked : vector ∉ link.asked wanted := by
        rw [mem_asked_iff hlink, hwants]
        rintro ⟨hwanted, hfree⟩
        rcases hpassed with htaken | hunwanted
        · rw [hfree] at htaken
          cases htaken
        · exact hunwanted _ _ List.mem_cons_self hwanted
      have howner := owner?_step_of_asks hlink hasks vector
      rw [if_neg hunasked] at howner
      have hlater := ih (hpassed.imp (fun htaken => howner ▸ htaken)
        fun hunwanted id action hmem =>
          hunwanted id action (List.mem_cons_of_mem _ hmem))
      rw [howner] at hlater
      rw [requestsFor_cons, requests_of_asks hlink hasks, if_neg hunasked]
      exact hlater

/-- A free vector that somebody wants is asked for in one request, once, and
belongs to the connection that asks. -/
theorem Asking.settle (h : Asking wants hub steps)
    (hfree : hub.node.requests.owner? vector = none)
    (hwanted : ∃ id action, .act id action ∈ steps ∧ wants id action vector) :
    ∃ id action vectors, .act id action ∈ steps ∧ wants id action vector ∧
      hub.requestsFor steps vector = [(id, .getdata vectors)] ∧
      vectors.count vector = 1 ∧
      (hub.run steps).node.requests.owner? vector = some id := by
  induction h with
  | nil =>
      obtain ⟨id, action, hmem, -⟩ := hwanted
      cases hmem
  | @cons hub id link action wanted now rest hlink hasks hwants hrest ih =>
      have howner := owner?_step_of_asks hlink hasks vector
      rw [requestsFor_cons, requests_of_asks hlink hasks, run_cons]
      by_cases hfirst : wants id action vector
      · have hasked : vector ∈ link.asked wanted :=
          (mem_asked_iff hlink).mpr ⟨(hwants vector).mpr hfirst, hfree⟩
        rw [if_pos hasked] at howner ⊢
        -- From here on the vector is taken.
        obtain ⟨hrequests, hkept⟩ := hrest.pass (.inl (by rw [howner]; rfl))
        refine ⟨id, action, link.asked wanted, List.mem_cons_self,
          hfirst, ?_, ?_, hkept.trans howner⟩
        · rw [hrequests, List.append_nil]
        · exact List.count_eq_one_of_mem (link.nodup_asked wanted) hasked
      · have hunasked : vector ∉ link.asked wanted := by
          rw [mem_asked_iff hlink, hwants]
          exact fun hasked => hfirst hasked.1
        rw [if_neg hunasked] at howner ⊢
        obtain ⟨other, otherAction, hmem, hother⟩ := hwanted
        have hlater : .act other otherAction ∈ rest := by
          rcases List.mem_cons.mp hmem with hsame | hlater
          · cases hsame
            exact absurd hother hfirst
          · exact hlater
        obtain ⟨taker, takerAction, vectors, htaker, htakerWants, hrest⟩ :=
          ih (howner.trans hfree) ⟨other, otherAction, hlater, hother⟩
        exact ⟨taker, takerAction, vectors, List.mem_cons_of_mem _ htaker,
          htakerWants, hrest⟩

theorem Asking.owner?_eq_none_iff (h : Asking wants hub steps) :
    (hub.run steps).node.requests.owner? vector = none ↔
      hub.node.requests.owner? vector = none ∧
        ∀ id action, .act id action ∈ steps → ¬ wants id action vector := by
  constructor
  · intro hfree
    have hwasFree : hub.node.requests.owner? vector = none := by
      by_contra htaken
      rw [(h.pass (.inl (Option.isSome_iff_ne_none.mpr htaken))).2] at hfree
      exact htaken hfree
    refine ⟨hwasFree, fun id action hmem hwanted => ?_⟩
    obtain ⟨taker, _, _, -, -, -, -, howner⟩ :=
      h.settle hwasFree ⟨id, action, hmem, hwanted⟩
    rw [hfree] at howner
    cases howner
  · rintro ⟨hfree, hunwanted⟩
    exact (h.pass (.inr hunwanted)).2.trans hfree

/-- What is asked for does not depend on the order in which the connections
ask. -/
theorem Asking.requestsFor_eq_nil_iff (h : Asking wants hub steps) :
    hub.requestsFor steps vector = [] ↔
      ¬ (hub.node.requests.owner? vector = none ∧
        ∃ id action, .act id action ∈ steps ∧ wants id action vector) := by
  constructor
  · rintro hnone ⟨hfree, hwanted⟩
    obtain ⟨id, action, vectors, -, -, hone, -⟩ := h.settle hfree hwanted
    rw [hnone] at hone
    cases hone
  · intro hpassed
    refine (h.pass ?_).1
    by_cases hfree : hub.node.requests.owner? vector = none
    · exact .inr fun id action hmem hwanted =>
        hpassed ⟨hfree, id, action, hmem, hwanted⟩
    · exact .inl (Option.isSome_iff_ne_none.mpr hfree)

end Hub

end ObjectRelay
