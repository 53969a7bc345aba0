import Mathlib.Data.List.Basic
import ObjectRelay.Proofs.Work.Race

namespace ObjectRelay.Search

/-- The first nonce of a worker's progression that meets the target. -/
structure Wins (meets : UInt64 → Bool) (count id : Nat) (nonce : UInt64) :
    Prop where
  id_lt : id < count
  mem : nonce ∈ progression count id
  hits : meets nonce = true
  failed : ∀ earlier ∈ progression count id, earlier < nonce →
    meets earlier = false

def Worker.report? : Worker → Option UInt64
  | reporting nonce => some nonce
  | _ => none

inductive Caller.Holds (nonce : UInt64) : Caller → Prop where
  | receiving : Holds nonce .receiving
  | closing : Holds nonce (.closing (some nonce))
  | joining : Holds nonce (.joining (some nonce))
  | done : Holds nonce (.done (.ok nonce))

inductive Caller.Misses (cancelled hopeless : Prop) : Caller → Prop where
  | closing : Misses cancelled hopeless (.closing none)
  | joining : Misses cancelled hopeless (.joining none)
  | judging : Misses cancelled hopeless .judging
  | cancelled (h : cancelled) :
      Misses cancelled hopeless (.done (.error .cancelled))
  | exhausted (h : hopeless) :
      Misses cancelled hopeless (.done (.error .exhausted))

namespace Race

variable {meets : UInt64 → Bool} {race after : Race} {early : List Deed}
  {sent : List (Nat × UInt64)} {id other : Nat} {nonce : UInt64}
  {worker next : Worker}

/-- The nonce that a worker is about to report. -/
def reporter? (race : Race) (id : Nat) : Option UInt64 :=
  race.workers[id]?.bind Worker.report?

/-- How far the race is, given what was reported. -/
inductive Stage (meets : UInt64 → Bool) (race : Race) :
    List (Nat × UInt64) → Prop where
  | searching (hfound : race.found = false) (hcaller : race.caller = .receiving)
      (hreports : race.reports = []) (hnone : ∀ id, race.reporter? id = none) :
      Stage meets race []
  | claimed {id : Nat} {nonce : UInt64} (hfound : race.found = true)
      (hcaller : race.caller = .receiving) (hreports : race.reports = [])
      (hone : ∀ other, race.reporter? other = if other = id then some nonce
        else none) :
      Stage meets race []
  | reported {id : Nat} {nonce : UInt64} (hfound : race.found = true)
      (hcaller : race.caller.Holds nonce) (hreports : race.reports = [nonce])
      (hnone : ∀ id, race.reporter? id = none)
      (hwins : Wins meets race.workers.length id nonce) :
      Stage meets race [(id, nonce)]
  | lost (hover : race.isOver = true)
      (hcaller : race.caller.Misses (race.cancelled = true)
        (∀ nonce, meets nonce = false))
      (hreports : race.reports = [])
      (hreason : race.cancelled = true ∨ ∀ nonce, meets nonce = false) :
      Stage meets race []

theorem isOver_iff :
    race.isOver = true ↔
      ∀ (id : Nat) (worker : Worker), race.workers[id]? = some worker →
        worker = .stopped := by
  simp only [isOver, List.all_eq_true, decide_eq_true_eq, List.mem_iff_getElem?]
  exact ⟨fun h id worker hworker => h worker ⟨id, hworker⟩,
    fun h worker hworker => h hworker.choose worker hworker.choose_spec⟩

theorem reporter?_of_isOver (h : race.isOver = true) (id : Nat) :
    race.reporter? id = none := by
  rw [reporter?]
  cases hworker : race.workers[id]? with
  | none => rfl
  | some worker => rw [isOver_iff.mp h id worker hworker]; rfl

theorem reporter?_become (hworkers : after.workers = race.workers.set id next)
    (hworker : race.workers[id]? = some worker) (other : Nat) :
    after.reporter? other = if other = id then next.report?
      else race.reporter? other := by
  obtain ⟨hlength, -⟩ := List.getElem?_eq_some_iff.mp hworker
  rw [reporter?, hworkers]
  split_ifs with hsame
  · rw [hsame, List.getElem?_set_self hlength]
    rfl
  · rw [List.getElem?_set_ne (Ne.symm hsame)]
    rfl

/-- Without a report and with nobody left to make one, the search was cancelled
or there is nothing to find. -/
theorem Walks.cancelled_or_failed (h : race.Walks meets early)
    (hcount : 0 < race.workers.length)
    (hsize : race.workers.length ≤ UInt64.size) (hfound : race.found = false)
    (hover : race.isOver = true) :
    race.cancelled = true ∨ ∀ nonce, meets nonce = false := by
  by_cases hcancelled : race.cancelled = true
  · exact .inl hcancelled
  refine .inr fun nonce => ?_
  have hid : nonce.toNat % race.workers.length < race.workers.length :=
    Nat.mod_lt _ hcount
  have hworker := List.getElem?_eq_getElem hid
  have hstands := h _ _ hworker
  rw [isOver_iff.mp hover _ _ hworker] at hstands
  generalize early.filterMap _ = tried at hstands
  cases hstands with
  | coming hnext _ => cases hnext
  | stopped hsteps hreason =>
      rcases hreason with htold | ⟨-, hfailed⟩
      · rcases htold with hfound' | hcancelled'
        · rw [hfound] at hfound'
          cases hfound'
        · exact absurd hcancelled' hcancelled
      · exact hfailed nonce ((mem_progression hid hsize).mpr rfl)

theorem Walks.wins (h : race.Walks meets early)
    (hcount : 0 < race.workers.length)
    (hworker : race.workers[id]? = some (.reporting nonce)) :
    Wins meets race.workers.length id nonce := by
  have hstands := h id _ hworker
  obtain ⟨hid, -⟩ := List.getElem?_eq_some_iff.mp hworker
  generalize early.filterMap _ = tried at hstands
  cases hstands with
  | coming hnext _ => cases hnext
  | reporting hreaches hmeets htold =>
      exact ⟨hid, hreaches.mem_progression hcount, hmeets,
        fun _ hearlier hlt => hreaches.failed_of_lt hcount hearlier hlt⟩

theorem stage_proceed (h : race.Stage meets sent)
    (hwalks : race.Walks meets early) (hcount : 0 < race.workers.length)
    (hsize : race.workers.length ≤ UInt64.size) :
    race.proceed.Stage meets sent := by
  cases h with
  | searching hfound hcaller hreports hnone =>
      simp only [proceed, hcaller, hreports]
      split_ifs with hover
      · have hreason := hwalks.cancelled_or_failed hcount hsize hfound hover
        exact .lost hover .closing rfl hreason
      · exact .searching hfound hcaller hreports hnone
  | @claimed id nonce hfound hcaller hreports hone =>
      have hover : ¬ race.isOver = true := fun hover => by
        have hreporter := hone id
        rw [reporter?_of_isOver hover, if_pos rfl] at hreporter
        cases hreporter
      simp only [proceed, hcaller, hreports, if_neg hover]
      exact .claimed hfound hcaller hreports hone
  | @reported id nonce hfound hcaller hreports hnone hwins =>
      generalize hphase : race.caller = phase at hcaller
      cases hcaller with
      | receiving =>
          simp only [proceed, hphase, hreports]
          exact .reported hfound .closing rfl hnone hwins
      | closing =>
          simp only [proceed, hphase]
          exact .reported rfl .joining hreports hnone hwins
      | joining =>
          simp only [proceed, hphase]
          split_ifs with hover
          · exact .reported hfound .done hreports hnone hwins
          · exact .reported hfound (hphase ▸ .joining) hreports hnone hwins
      | done =>
          simp only [proceed, hphase]
          exact .reported hfound (hphase ▸ .done) hreports hnone hwins
  | lost hover hcaller hreports hreason =>
      generalize hphase : race.caller = phase at hcaller
      cases hcaller with
      | closing =>
          simp only [proceed, hphase]
          exact .lost hover .joining hreports hreason
      | joining =>
          simp only [proceed, hphase, if_pos hover]
          exact .lost hover .judging hreports hreason
      | judging =>
          simp only [proceed, hphase]
          refine .lost hover ?_ hreports hreason
          split_ifs with hcancelled
          · exact .cancelled hcancelled
          · exact .exhausted (hreason.resolve_left hcancelled)
      | cancelled hcancelled =>
          simp only [proceed, hphase]
          exact .lost hover (hphase ▸ .cancelled hcancelled) hreports hreason
      | exhausted hfailed =>
          simp only [proceed, hphase]
          exact .lost hover (hphase ▸ .exhausted hfailed) hreports hreason

theorem stage_quiet (h : race.Stage meets sent)
    (hworker : race.workers[id]? = some worker) (hgoes : worker ≠ .stopped)
    (hbefore : worker.report? = none) (hafter : next.report? = none) :
    (race.become id next).Stage meets sent := by
  have hreporter : ∀ other, (race.become id next).reporter? other =
      race.reporter? other := by
    intro other
    rw [reporter?_become rfl hworker]
    split_ifs with hsame
    · rw [hafter, hsame, reporter?, hworker, Option.bind_some, hbefore]
    · rfl
  cases h with
  | searching hfound hcaller hreports hnone =>
      exact .searching hfound hcaller hreports fun other =>
        (hreporter other).trans (hnone other)
  | claimed hfound hcaller hreports hone =>
      exact .claimed hfound hcaller hreports fun other =>
        (hreporter other).trans (hone other)
  | reported hfound hcaller hreports hnone hwins =>
      refine .reported hfound hcaller hreports (fun other => ?_) ?_
      · exact (hreporter other).trans (hnone other)
      · simpa [Race.become] using hwins
  | lost hover hcaller hreports hreason =>
      exact absurd (isOver_iff.mp hover id worker hworker) hgoes

theorem stage_claim (h : race.Stage meets sent)
    (hworker : race.workers[id]? = some (.claiming nonce)) :
    (race.move meets id (.claiming nonce)).Stage meets sent := by
  have hquiet : (race.become id .stopped).Stage meets sent :=
    stage_quiet h hworker (by simp) rfl rfl
  by_cases hfound : race.found = true
  · have hmove : race.move meets id (.claiming nonce) =
        race.become id .stopped := by
      simp [move, Race.become, hfound]
    rw [hmove]
    exact hquiet
  cases h with
  | searching _ hcaller hreports hnone =>
      have hone : ∀ other,
          (race.move meets id (.claiming nonce)).reporter? other =
          if other = id then some nonce else none := by
        intro other
        rw [reporter?_become rfl hworker, if_neg hfound, hnone other]
        rfl
      exact .claimed rfl hcaller hreports hone
  | claimed hfound' _ _ _ => exact absurd hfound' hfound
  | reported hfound' _ _ _ _ => exact absurd hfound' hfound
  | lost hover _ _ _ => cases isOver_iff.mp hover id _ hworker

theorem stage_report (h : race.Stage meets sent)
    (hwalks : race.Walks meets early) (hcount : 0 < race.workers.length)
    (hworker : race.workers[id]? = some (.reporting nonce)) :
    (race.move meets id (.reporting nonce)).Stage meets
      (sent ++ [(id, nonce)]) := by
  have hreporter : race.reporter? id = some nonce := by
    rw [reporter?, hworker]
    rfl
  have hwins := hwalks.wins hcount hworker
  cases h with
  | searching hfound hcaller hreports hnone =>
      rw [hnone id] at hreporter; cases hreporter
  | @claimed first claimed hfound hcaller hreports hone =>
      rw [hone id] at hreporter
      split_ifs at hreporter with hsame
      subst hsame
      obtain rfl := Option.some_inj.mp hreporter
      refine .reported hfound ?_ ?_ (fun other => ?_) ?_
      · simp only [move, Race.become, hcaller]
        exact .receiving
      · simp [move, hreports]
      · rw [reporter?_become rfl hworker, hone other]
        split_ifs <;> rfl
      · simpa [move, Race.become] using hwins
  | reported hfound hcaller hreports hnone _ =>
      rw [hnone id] at hreporter; cases hreporter
  | lost hover hcaller hreports hreason =>
      cases isOver_iff.mp hover id _ hworker

theorem stage_move (h : race.Stage meets sent) (hwalks : race.Walks meets early)
    (hcount : 0 < race.workers.length)
    (hworker : race.workers[id]? = some worker) :
    (race.move meets id worker).Stage meets
      (sent ++ ((race.deed? (.worker id)).bind Deed.report?).toList) := by
  cases worker with
  | looking nonce =>
      simp only [deed?, hworker, Option.bind_none, Option.toList_none,
        List.append_nil]
      exact stage_quiet h hworker (by simp) rfl (by split_ifs <;> rfl)
  | asking nonce =>
      simp only [deed?, hworker, Option.bind_none, Option.toList_none,
        List.append_nil]
      exact stage_quiet h hworker (by simp) rfl (by split_ifs <;> rfl)
  | trying nonce left =>
      simp only [deed?, hworker, Option.bind_some, Deed.report?,
        Option.toList_none, List.append_nil]
      refine stage_quiet h hworker (by simp) rfl ?_
      split_ifs
      · rfl
      · unfold Worker.onward
        split <;> rfl
  | claiming nonce =>
      simp only [deed?, hworker, Option.bind_none, Option.toList_none,
        List.append_nil]
      exact stage_claim h hworker
  | reporting nonce =>
      simp only [deed?, hworker, Option.bind_some, Deed.report?,
        Option.toList_some]
      exact stage_report h hwalks hcount hworker
  | stopped =>
      simp only [deed?, hworker, Option.bind_none, Option.toList_none,
        List.append_nil]
      exact h

theorem stage_turn (h : race.Stage meets sent) (hwalks : race.Walks meets early)
    (hcount : 0 < race.workers.length)
    (hsize : race.workers.length ≤ UInt64.size) (turn : Turn) :
    (race.turn meets turn).Stage meets
      (sent ++ ((race.deed? turn).bind Deed.report?).toList) := by
  cases turn with
  | worker id =>
      rw [Race.turn]
      split
      · rename_i hworker
        exact stage_move h hwalks hcount hworker
      · rename_i hworker
        simpa [deed?, hworker] using h
  | caller =>
      simp only [deed?, Option.bind_none, Option.toList_none, List.append_nil]
      exact stage_proceed h hwalks hcount hsize
  | cancel =>
      simp only [deed?, Option.bind_none, Option.toList_none, List.append_nil]
      cases h with
      | searching hfound hcaller hreports hnone =>
          exact .searching hfound hcaller hreports hnone
      | claimed hfound hcaller hreports hone =>
          exact .claimed hfound hcaller hreports hone
      | reported hfound hcaller hreports hnone hwins =>
          exact .reported hfound hcaller hreports hnone hwins
      | lost hover hcaller hreports hreason =>
          refine .lost hover ?_ hreports (.inl rfl)
          generalize hphase : race.caller = phase at hcaller
          simp only [Race.turn, hphase]
          cases hcaller with
          | closing => exact .closing
          | joining => exact .joining
          | judging => exact .judging
          | cancelled _ => exact .cancelled trivial
          | exhausted hfailed => exact .exhausted hfailed

theorem stage_start (meets : UInt64 → Bool) (count : Nat) (cancelled : Bool) :
    (start count cancelled).Stage meets [] := by
  refine .searching rfl rfl rfl fun id => ?_
  simp only [reporter?, start, List.getElem?_map]
  cases (List.range count)[id]? <;> rfl

/-- What is known of a race once so much was done. -/
structure Sound (meets : UInt64 → Bool) (count : Nat) (early : List Deed)
    (race : Race) : Prop where
  length_eq : race.workers.length = count
  walks : race.Walks meets early
  stage : race.Stage meets (early.filterMap Deed.report?)

theorem sound_turn {count : Nat} (h : race.Sound meets count early)
    (hpos : 0 < count) (hcount : count ≤ UInt64.size) (turn : Turn) :
    (race.turn meets turn).Sound meets count
      (early ++ (race.deed? turn).toList) := by
  obtain ⟨rfl, hwalks, hstage⟩ := h
  refine ⟨length_turn meets race turn, walks_turn hwalks hpos turn, ?_⟩
  rw [filterMap_append_toList]
  exact stage_turn hstage hwalks hpos hcount turn

theorem sound_run {count : Nat} (h : race.Sound meets count early)
    (hpos : 0 < count) (hcount : count ≤ UInt64.size) (turns : List Turn) :
    (race.run meets turns).Sound meets count
      (early ++ race.deeds meets turns) := by
  induction turns generalizing race early with
  | nil => rwa [deeds, List.append_nil]
  | cons turn turns ih =>
      rw [deeds, ← List.append_assoc]
      exact ih (sound_turn h hpos hcount turn)

theorem sound_start (meets : UInt64 → Bool) {count : Nat} (hpos : 0 < count)
    (hcount : count ≤ UInt64.size) (cancelled : Bool) (turns : List Turn) :
    ((start count cancelled).run meets turns).Sound meets count
      ((start count cancelled).deeds meets turns) := by
  have hstart : (start count cancelled).Sound meets count [] :=
    ⟨length_start count cancelled, walks_start meets hcount cancelled,
      stage_start meets count cancelled⟩
  simpa using sound_run hstart hpos hcount turns

theorem caller_of_result? {result : Except WorkError UInt64}
    (h : race.result? = some result) : race.caller = .done result := by
  unfold result? at h
  split at h
  · rename_i hphase
    rw [hphase, Option.some_inj.mp h]
  · cases h

theorem Sound.result {count : Nat} (h : race.Sound meets count early)
    {result : Except WorkError UInt64} (hresult : race.result? = some result) :
    (∃ id nonce, result = .ok nonce ∧
      early.filterMap Deed.report? = [(id, nonce)] ∧
        Wins meets count id nonce) ∨
      early.filterMap Deed.report? = [] ∧
        (result = .error .cancelled ∧ race.cancelled = true ∨
          result = .error .exhausted ∧ ∀ nonce, meets nonce = false) := by
  have hdone := caller_of_result? hresult
  have hstage := h.stage
  generalize early.filterMap Deed.report? = sent at hstage ⊢
  cases hstage with
  | searching hfound hcaller hreports hnone => cases hcaller.symm.trans hdone
  | claimed hfound hcaller hreports hone => cases hcaller.symm.trans hdone
  | reported hfound hcaller hreports hnone hwins =>
      rw [hdone] at hcaller
      cases hcaller
      exact .inl ⟨_, _, rfl, rfl, h.length_eq ▸ hwins⟩
  | lost hover hcaller hreports hreason =>
      rw [hdone] at hcaller
      refine .inr ⟨rfl, ?_⟩
      cases hcaller with
      | cancelled hcancelled => exact .inl ⟨rfl, hcancelled⟩
      | exhausted hfailed => exact .inr ⟨rfl, hfailed⟩

theorem cancelled_turn (meets : UInt64 → Bool) (race : Race) (turn : Turn) :
    (race.turn meets turn).cancelled = true ↔ race.cancelled = true ∨
    turn = .cancel := by
  cases turn with
  | worker id =>
      rw [Race.turn]
      split
      · rename_i worker _
        cases worker <;> simp [move, Race.become]
      · simp
  | caller => simp [Race.turn]
  | cancel => simp [Race.turn]

theorem cancelled_run (meets : UInt64 → Bool) (race : Race)
    (turns : List Turn) :
    (race.run meets turns).cancelled = true ↔ race.cancelled = true ∨
    .cancel ∈ turns := by
  induction turns generalizing race with
  | nil => simp [Race.run]
  | cons turn turns ih =>
      rw [Race.run, List.foldl_cons, ← Race.run, ih, cancelled_turn,
        List.mem_cons, or_assoc, eq_comm (a := turn)]

end Race

end ObjectRelay.Search
