import Mathlib.Data.List.Basic
import ObjectRelay.Proofs.Work.Progression

namespace ObjectRelay.Search

/-- What a turn shows to the outside. -/
inductive Deed where
  | tries (id : Nat) (nonce : UInt64)
  | reports (id : Nat) (nonce : UInt64)
deriving DecidableEq

namespace Deed

def tried? (id : Nat) : Deed → Option UInt64
  | tries other nonce => if other = id then some nonce else none
  | reports _ _ => none

def report? : Deed → Option (Nat × UInt64)
  | tries _ _ => none
  | reports id nonce => some (id, nonce)

end Deed

namespace Race

def deed? (race : Race) : Turn → Option Deed
  | .worker id =>
      match race.workers[id]? with
      | some (.trying nonce _) => some (.tries id nonce)
      | some (.reporting nonce) => some (.reports id nonce)
      | _ => none
  | _ => none

def deeds (meets : UInt64 → Bool) (race : Race) : List Turn → List Deed
  | [] => []
  | turn :: turns =>
    (race.deed? turn).toList ++ (race.turn meets turn).deeds meets turns

/-- The nonces that a worker tries in a run, in order. -/
def tried (meets : UInt64 → Bool) (race : Race) (turns : List Turn) (id : Nat) :
    List UInt64 :=
  (race.deeds meets turns).filterMap (Deed.tried? id)

/-- The nonces that are reported in a run, each by its worker. -/
def reported (meets : UInt64 → Bool) (race : Race) (turns : List Turn) :
    List (Nat × UInt64) :=
  (race.deeds meets turns).filterMap Deed.report?

theorem filterMap_append_toList {α : Type} (view : Deed → Option α)
    (early : List Deed) (deed? : Option Deed) :
    (early ++ deed?.toList).filterMap view =
      early.filterMap view ++ (deed?.bind view).toList := by
  rw [List.filterMap_append]
  cases deed? with
  | none => rfl
  | some deed => cases hdeed : view deed <;> simp [hdeed]

end Race

/-- The nonce comes after so many others of the progression, none of which meets
the target. -/
structure Reaches (meets : UInt64 → Bool) (count id step : Nat)
    (nonce : UInt64) : Prop where
  toNat_eq : nonce.toNat = id + step * count
  failed : ∀ earlier ∈ firstSteps count id step, meets earlier = false

/-- The nonce that a worker comes to next. -/
def Worker.next? : Worker → Option UInt64
  | looking nonce | asking nonce | trying nonce _ => some nonce
  | claiming _ | reporting _ | stopped => none

/-- What a worker has tried, seen from where it is now. -/
inductive Worker.Stands (meets : UInt64 → Bool) (count id : Nat) (told : Prop) :
    List UInt64 → Worker → Prop where
  | coming {step : Nat} {nonce : UInt64} {worker : Worker}
      (hnext : worker.next? = some nonce)
      (h : Reaches meets count id step nonce) :
      Stands meets count id told (firstSteps count id step) worker
  | claiming {step : Nat} {nonce : UInt64}
      (h : Reaches meets count id step nonce) (hmeets : meets nonce = true) :
      Stands meets count id told (firstSteps count id (step + 1))
        (.claiming nonce)
  | reporting {step : Nat} {nonce : UInt64}
      (h : Reaches meets count id step nonce)
      (hmeets : meets nonce = true) (htold : told) :
      Stands meets count id told (firstSteps count id (step + 1))
        (.reporting nonce)
  | stopped {steps : Nat} (hsteps : steps ≤ stepsOf count id)
      (hreason : told ∨ steps = stepsOf count id ∧
        ∀ nonce ∈ progression count id, meets nonce = false) :
      Stands meets count id told (firstSteps count id steps) .stopped

variable {meets : UInt64 → Bool} {count id step left : Nat} {nonce : UInt64}
  {worker : Worker} {told later : Prop} {tried : List UInt64}

namespace Reaches

theorem ofNat_eq (h : Reaches meets count id step nonce) :
    UInt64.ofNat (id + step * count) = nonce := by
  rw [← h.toNat_eq, UInt64.ofNat_toNat]

theorem tried_eq (h : Reaches meets count id step nonce) :
    firstSteps count id step ++ [nonce] = firstSteps count id (step + 1) := by
  rw [firstSteps_succ, h.ofNat_eq]

theorem lt_stepsOf (h : Reaches meets count id step nonce)
    (hcount : 0 < count) :
    step < stepsOf count id := by
  have hword := nonce.toNat_lt_size
  have htoNat := h.toNat_eq
  exact (lt_stepsOf_iff hcount (by omega)).mpr (by omega)

theorem mem_progression (h : Reaches meets count id step nonce)
    (hcount : 0 < count) :
    nonce ∈ progression count id := by
  have hprefix : firstSteps count id (step + 1) <+: progression count id :=
    prefix_firstSteps (h.lt_stepsOf hcount)
  refine hprefix.subset ?_
  rw [← h.tried_eq]
  simp

theorem failed_of_lt (h : Reaches meets count id step nonce)
    (hcount : 0 < count) {earlier : UInt64}
    (hearlier : earlier ∈ progression count id) (hlt : earlier < nonce) :
    meets earlier = false := by
  have hstep := h.lt_stepsOf hcount
  have hword := nonce.toNat_lt_size
  have htoNat := h.toNat_eq
  have hid : id < UInt64.size := by omega
  obtain ⟨before, -, hbefore⟩ :=
    (mem_firstSteps hcount hid (Nat.le_refl _)).mp hearlier
  have hless : before * count < step * count := by
    rw [UInt64.lt_iff_toNat_lt] at hlt
    omega
  exact h.failed earlier ((mem_firstSteps hcount hid (Nat.le_of_lt hstep)).mpr
    ⟨before, Nat.lt_of_mul_lt_mul_right hless, hbefore⟩)

theorem failed_succ (h : Reaches meets count id step nonce)
    (hfails : meets nonce = false) :
    ∀ earlier ∈ firstSteps count id (step + 1), meets earlier = false := by
  rw [← h.tried_eq]
  intro earlier hmem
  rcases List.mem_append.mp hmem with hbefore | hlast
  · exact h.failed earlier hbefore
  · rw [List.mem_singleton.mp hlast]
    exact hfails

end Reaches

namespace Worker.Stands

theorem mono (h : worker.Stands meets count id told tried)
    (hlater : told → later) :
    worker.Stands meets count id later tried := by
  cases h with
  | coming hnext h => exact .coming hnext h
  | claiming h hmeets => exact .claiming h hmeets
  | reporting h hmeets htold => exact .reporting h hmeets (hlater htold)
  | stopped hsteps hreason => exact .stopped hsteps (hreason.imp_left hlater)

theorem prefix_progression (h : worker.Stands meets count id told tried)
    (hcount : 0 < count) :
    tried <+: progression count id := by
  cases h with
  | coming hnext h =>
      exact prefix_firstSteps (Nat.le_of_lt (h.lt_stepsOf hcount))
  | claiming h hmeets => exact prefix_firstSteps (h.lt_stepsOf hcount)
  | reporting h hmeets htold => exact prefix_firstSteps (h.lt_stepsOf hcount)
  | stopped hsteps hreason => exact prefix_firstSteps hsteps

theorem exists_reaches_of_next? (h : worker.Stands meets count id told tried)
    (hnext : worker.next? = some nonce) :
    ∃ step, tried = firstSteps count id step ∧
      Reaches meets count id step nonce := by
  cases h with
  | coming hother h =>
      rw [hnext] at hother
      exact ⟨_, rfl, Option.some_inj.mp hother ▸ h⟩
  | claiming h hmeets => cases hnext
  | reporting h hmeets htold => cases hnext
  | stopped hsteps hreason => cases hnext

/-- A worker that came to a nonce may stop before it once it is told to. -/
theorem stop (h : worker.Stands meets count id told tried) (hcount : 0 < count)
    (hnext : worker.next? = some nonce) (htold : told) :
    Worker.stopped.Stands meets count id told tried := by
  obtain ⟨step, rfl, hreaches⟩ := h.exists_reaches_of_next? hnext
  exact .stopped (Nat.le_of_lt (hreaches.lt_stepsOf hcount)) (.inl htold)

theorem come (h : worker.Stands meets count id told tried) {after : Worker}
    (hnext : worker.next? = some nonce) (hafter : after.next? = some nonce) :
    after.Stands meets count id told tried := by
  obtain ⟨step, rfl, hreaches⟩ := h.exists_reaches_of_next? hnext
  exact .coming hafter hreaches

theorem claim (h : worker.Stands meets count id told tried)
    (hnext : worker.next? = some nonce) (hmeets : meets nonce = true) :
    (Worker.claiming nonce).Stands meets count id told (tried ++ [nonce]) := by
  obtain ⟨step, rfl, hreaches⟩ := h.exists_reaches_of_next? hnext
  rw [hreaches.tried_eq]
  exact .claiming hreaches hmeets

theorem onward (h : worker.Stands meets count id told tried)
    (hcount : 0 < count) (hnext : worker.next? = some nonce)
    (hfails : meets nonce = false) (left : Nat) :
    (Worker.onward count nonce left).Stands meets count id told
      (tried ++ [nonce]) := by
  obtain ⟨step, rfl, hreaches⟩ := h.exists_reaches_of_next? hnext
  have hstep := hreaches.lt_stepsOf hcount
  have hfailed := hreaches.failed_succ hfails
  have htoNat := hreaches.toNat_eq
  have hword := nonce.toNat_lt_size
  rw [hreaches.tried_eq]
  unfold Worker.onward Search.next?
  split_ifs with hsize
  · have hfollowing : Reaches meets count id (step + 1)
        (UInt64.ofNat (nonce.toNat + count)) := by
      refine ⟨?_, hfailed⟩
      rw [UInt64.toNat_ofNat_of_lt' hsize, Nat.succ_mul]
      omega
    cases left with
    | zero => exact .coming rfl hfollowing
    | succ left => exact .coming rfl hfollowing
  · -- The last word is passed, so this was the last step of the progression.
    have hlast : ¬ step + 1 < stepsOf count id := by
      rw [lt_stepsOf_iff hcount (by omega), Nat.succ_mul]
      omega
    have hsteps : step + 1 = stepsOf count id := by omega
    refine .stopped (Nat.le_of_eq hsteps) (.inr ⟨hsteps, ?_⟩)
    rw [progression, ← hsteps]
    exact hfailed

end Worker.Stands

namespace Race

variable {race after : Race} {early : List Deed} {deed? : Option Deed}
  {turn : Turn} {next : Worker}

/-- A worker is told to stop by either flag. -/
def Tells (race : Race) : Prop :=
  race.found = true ∨ race.cancelled = true

/-- Every worker stands where what has been done so far has brought it. -/
def Walks (meets : UInt64 → Bool) (early : List Deed) (race : Race) : Prop :=
  ∀ (id : Nat) (worker : Worker), race.workers[id]? = some worker →
    worker.Stands meets race.workers.length id race.Tells
      (early.filterMap (Deed.tried? id))

theorem Walks.congr (h : race.Walks meets early)
    (hworkers : after.workers = race.workers)
    (htells : race.Tells → after.Tells) : after.Walks meets early := by
  intro id worker hworker
  rw [hworkers] at hworker ⊢
  exact (h id worker hworker).mono htells

theorem Walks.become (h : race.Walks meets early)
    (hworkers : after.workers = race.workers.set id next)
    (htells : race.Tells → after.Tells)
    (hothers : ∀ other, other ≠ id → deed?.bind (Deed.tried? other) = none)
    (hnext : next.Stands meets race.workers.length id after.Tells
      (early.filterMap (Deed.tried? id) ++
        (deed?.bind (Deed.tried? id)).toList)) :
    after.Walks meets (early ++ deed?.toList) := by
  intro other worker hworker
  rw [hworkers, List.getElem?_set] at hworker
  rw [hworkers, List.length_set, filterMap_append_toList]
  split_ifs at hworker with hsame hlength
  · subst hsame
    rw [← Option.some_inj.mp hworker]
    exact hnext
  · rw [hothers other (Ne.symm hsame), Option.toList_none, List.append_nil]
    exact (h other worker hworker).mono htells

/-- The caller leaves the workers and the reports alone, and never takes a mark
back. -/
theorem proceed_eq (race : Race) :
    ∃ found caller,
      race.proceed = { race with found := found, caller := caller } ∧
      (race.found = true → found = true) := by
  have hwaits : ∃ found caller,
      race = { race with found := found, caller := caller } ∧
      (race.found = true → found = true) :=
        ⟨race.found, race.caller, rfl, fun h => h⟩
  unfold proceed
  split
  · split
    · exact ⟨_, _, rfl, fun h => h⟩
    · split_ifs
      · exact ⟨_, _, rfl, fun h => h⟩
      · exact hwaits
  · exact ⟨_, _, rfl, fun _ => rfl⟩
  · split_ifs
    · exact ⟨_, _, rfl, fun h => h⟩
    · exact hwaits
  · exact ⟨_, _, rfl, fun h => h⟩
  · exact hwaits

@[simp] theorem workers_proceed (race : Race) :
    race.proceed.workers = race.workers := by
  obtain ⟨found, caller, hproceed, -⟩ := proceed_eq race
  rw [hproceed]

@[simp] theorem cancelled_proceed (race : Race) :
    race.proceed.cancelled = race.cancelled := by
  obtain ⟨found, caller, hproceed, -⟩ := proceed_eq race
  rw [hproceed]

theorem tells_proceed (h : race.Tells) : race.proceed.Tells := by
  obtain ⟨found, caller, hproceed, hfound⟩ := proceed_eq race
  rw [hproceed]
  exact h.imp_left hfound

theorem length_turn (meets : UInt64 → Bool) (race : Race) (turn : Turn) :
    (race.turn meets turn).workers.length = race.workers.length := by
  cases turn with
  | worker id =>
      rw [Race.turn]
      split
      · rename_i worker _
        cases worker <;> simp [move, Race.become]
      · rfl
  | caller => rw [Race.turn, workers_proceed]
  | cancel => rfl

theorem walks_worker (h : race.Walks meets early)
    (hcount : 0 < race.workers.length)
    (hworker : race.workers[id]? = some worker) :
    (race.move meets id worker).Walks meets
      (early ++ (race.deed? (.worker id)).toList) := by
  have hstands := h id worker hworker
  cases worker with
  | looking nonce =>
      simp only [deed?, hworker]
      refine h.become rfl (fun htells => htells) (fun _ _ => rfl) ?_
      rw [Option.bind_none, Option.toList_none, List.append_nil]
      split_ifs with hfound
      · exact hstands.stop hcount rfl (.inl hfound)
      · exact hstands.come rfl rfl
  | asking nonce =>
      simp only [deed?, hworker]
      refine h.become rfl (fun htells => htells) (fun _ _ => rfl) ?_
      rw [Option.bind_none, Option.toList_none, List.append_nil]
      split_ifs with hcancelled
      · exact hstands.stop hcount rfl (.inr hcancelled)
      · exact hstands.come rfl rfl
  | trying nonce left =>
      simp only [deed?, hworker]
      refine h.become rfl (fun htells => htells)
        (fun other hne => by simp [Deed.tried?, Ne.symm hne]) ?_
      have hdeed : ((some (Deed.tries id nonce)).bind (Deed.tried? id)).toList =
          [nonce] := by
        simp [Deed.tried?]
      rw [hdeed]
      split_ifs with hmeets
      · exact hstands.claim rfl hmeets
      · exact hstands.onward hcount rfl (Bool.not_eq_true _ ▸ hmeets) left
  | claiming nonce =>
      simp only [deed?, hworker]
      refine h.become rfl (fun _ => .inl rfl) (fun _ _ => rfl) ?_
      rw [Option.bind_none, Option.toList_none, List.append_nil]
      generalize early.filterMap (Deed.tried? id) = tried at hstands ⊢
      cases hstands with
      | coming hnext _ => cases hnext
      | claiming hreaches hmeets =>
          split_ifs with hfound
          · exact .stopped (hreaches.lt_stepsOf hcount) (.inl (.inl rfl))
          · exact .reporting hreaches hmeets (.inl rfl)
  | reporting nonce =>
      simp only [deed?, hworker]
      refine h.become rfl (fun htells => htells) (fun _ _ => rfl) ?_
      rw [show ((some (Deed.reports id nonce)).bind (Deed.tried? id)).toList =
        [] from rfl, List.append_nil]
      generalize early.filterMap (Deed.tried? id) = tried at hstands ⊢
      cases hstands with
      | coming hnext _ => cases hnext
      | reporting hreaches hmeets htold =>
          exact .stopped (hreaches.lt_stepsOf hcount) (.inl htold)
  | stopped =>
      simp only [deed?, hworker, Option.toList_none, List.append_nil]
      exact h

theorem walks_turn (h : race.Walks meets early)
    (hcount : 0 < race.workers.length) (turn : Turn) :
    (race.turn meets turn).Walks meets (early ++ (race.deed? turn).toList) := by
  cases turn with
  | worker id =>
      rw [Race.turn]
      split
      · rename_i hworker
        exact walks_worker h hcount hworker
      · rename_i hworker
        simpa [deed?, hworker] using h
  | caller =>
      rw [show race.deed? .caller = none from rfl, Option.toList_none,
        List.append_nil]
      exact h.congr (workers_proceed race) tells_proceed
  | cancel =>
      rw [show race.deed? .cancel = none from rfl, Option.toList_none,
        List.append_nil]
      exact h.congr rfl fun _ => .inr rfl

@[simp] theorem length_start (count : Nat) (cancelled : Bool) :
    (start count cancelled).workers.length = count := by
  simp [start]

theorem walks_start (meets : UInt64 → Bool) {count : Nat}
    (hcount : count ≤ UInt64.size) (cancelled : Bool) :
    (start count cancelled).Walks meets [] := by
  intro id worker hworker
  simp only [start, List.getElem?_map, Option.map_eq_some_iff] at hworker
  obtain ⟨place, hplace, rfl⟩ := hworker
  obtain ⟨hid, rfl⟩ := List.getElem?_eq_some_iff.mp hplace
  rw [List.length_range] at hid
  have hword : id < UInt64.size := Nat.lt_of_lt_of_le hid hcount
  have hreaches : Reaches meets count id 0 (UInt64.ofNat id) := by
    refine ⟨?_, by simp [firstSteps]⟩
    rw [UInt64.toNat_ofNat_of_lt' hword]
    omega
  rw [length_start, List.getElem_range]
  exact .coming rfl hreaches

end Race

end ObjectRelay.Search
