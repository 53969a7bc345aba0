import Mathlib.Data.List.Basic
import ObjectRelay.Proofs.Work.Progress

namespace ObjectRelay.Search

variable {meets : UInt64 → Bool}

theorem least?_failed {start : Nat} {nonce : UInt64}
    (h : least? meets start = some nonce) :
    ∀ earlier : UInt64, start ≤ earlier.toNat → earlier < nonce →
      meets earlier = false := by
  fun_induction least? meets start with
  | case1 start hstart hmeets =>
      intro earlier hle hlt
      rw [← Option.some_inj.mp h, UInt64.lt_iff_toNat_lt,
        UInt64.toNat_ofNat_of_lt' hstart] at hlt
      omega
  | case2 start hstart hmeets ih =>
      intro earlier hle hlt
      rcases Nat.eq_or_lt_of_le hle with rfl | hless
      · simpa using hmeets
      · exact ih h earlier hless hlt
  | case3 start hstart => cases h

theorem failed_of_least?_eq_none {start : Nat} (h : least? meets start = none) :
    ∀ nonce : UInt64, start ≤ nonce.toNat → meets nonce = false := by
  fun_induction least? meets start with
  | case1 start hstart hmeets => cases h
  | case2 start hstart hmeets ih =>
      intro nonce hle
      rcases Nat.eq_or_lt_of_le hle with rfl | hless
      · simpa using hmeets
      · exact ih h nonce hless
  | case3 start hstart =>
      intro nonce hle
      exact absurd (Nat.lt_of_le_of_lt hle nonce.toNat_lt_size) hstart

namespace Race

variable {race : Race} {id : Nat} {nonce : UInt64} {worker : Worker}

theorem run_append (meets : UInt64 → Bool) (race : Race)
    (first second : List Turn) :
    race.run meets (first ++ second) =
      (race.run meets first).run meets second :=
  List.foldl_append

theorem reported_append (meets : UInt64 → Bool) (race : Race)
    (first second : List Turn) :
    race.reported meets (first ++ second) =
      race.reported meets first ++
        (race.run meets first).reported meets second := by
  induction first generalizing race with
  | nil => rfl
  | cons turn first ih =>
      have hrest := ih (race.turn meets turn)
      simp only [reported] at hrest
      simp only [reported, List.cons_append, deeds,
        List.filterMap_append, hrest, List.append_assoc]
      rfl

theorem move_of_next? (meets : UInt64 → Bool) (id : Nat)
    (hfound : race.found = false) (hcancelled : race.cancelled = false)
    (hcount : 0 < race.workers.length) (hnext : worker.next? = some nonce) :
    ∃ next, race.move meets id worker = race.become id next ∧
      next.rank < worker.rank ∧
      next.report? = none := by
  cases worker with
  | looking nonce =>
      exact ⟨.asking nonce, by simp [move, hfound], by simp [Worker.rank], rfl⟩
  | asking nonce =>
      exact ⟨.trying nonce (batchSize - 1), by simp [move, hcancelled], by
        simp [Worker.rank], rfl⟩
  | trying nonce left =>
      refine ⟨_, rfl, ?_, ?_⟩
      · split_ifs
        · have hword := nonce.toNat_lt_size
          simp only [Worker.rank]
          omega
        · exact rank_onward hcount nonce left
      · split_ifs
        · rfl
        · unfold Worker.onward
          split <;> rfl
  | claiming nonce => cases hnext
  | reporting nonce => cases hnext
  | stopped => cases hnext

theorem exists_settled (meets : UInt64 → Bool) (hfound : race.found = false)
    (hcancelled : race.cancelled = false)
    (hworker : race.workers[id]? = some worker)
    (hnext : worker.next? = some nonce) :
    ∃ turns settled, .cancel ∉ turns ∧
      race.run meets turns = race.become id settled ∧
      settled.next? = none ∧ settled.report? = none := by
  induction hrank : worker.rank using Nat.strongRecOn
    generalizing race worker nonce with
  | ind rank ih =>
      obtain ⟨hid, -⟩ := List.getElem?_eq_some_iff.mp hworker
      obtain ⟨next, hmove, hless, hreport⟩ :=
        move_of_next? meets id hfound hcancelled (Nat.zero_lt_of_lt hid) hnext
      have hturn : race.turn meets (.worker id) = race.become id next := by
        simp only [turn, hworker, hmove]
      cases hafter : next.next? with
      | none => exact ⟨[.worker id], next, by simp, hturn, hafter, hreport⟩
      | some following =>
          have hfound' : (race.become id next).found = false := hfound
          have hcancelled' : (race.become id next).cancelled = false :=
            hcancelled
          have hworker' : (race.become id next).workers[id]? = some next :=
            List.getElem?_set_self hid
          obtain ⟨turns, settled, hturns, hrun, hsettled⟩ :=
            ih next.rank (hrank ▸ hless) hfound' hcancelled' hworker' hafter rfl
          refine ⟨.worker id :: turns, settled, by simpa using hturns, ?_,
            hsettled⟩
          rw [run, List.foldl_cons, ← run, hturn, hrun]
          simp [Race.become]

/-- The least nonce that meets the target is the one that its worker comes
to. -/
theorem eq_claimed {count : Nat} {tried : List UInt64} {least : UInt64}
    {told : Prop} (hpos : 0 < count) (hcount : count ≤ UInt64.size)
    (htold : ¬ told) (hleast : least? meets 0 = some least)
    (hnext : worker.next? = none) (hreport : worker.report? = none)
    (h : worker.Stands meets count (least.toNat % count) told tried) :
    worker = .claiming least := by
  have hmem : least ∈ progression count (least.toNat % count) :=
    (mem_progression (Nat.mod_lt _ hpos) hcount).mpr rfl
  have hmeets := least?_meets hleast
  cases h with
  | coming hcoming _ => rw [hnext] at hcoming; cases hcoming
  | @claiming step claimed hreaches hclaimed =>
      have hle : least ≤ claimed := UInt64.not_lt.mp fun hlt => by
        rw [least?_failed hleast claimed (Nat.zero_le _) hlt] at hclaimed
        cases hclaimed
      have hge : claimed ≤ least := UInt64.not_lt.mp fun hlt => by
        rw [hreaches.failed_of_lt hpos hmem hlt] at hmeets
        cases hmeets
      rw [UInt64.le_antisymm hge hle]
  | reporting _ _ htold' => exact absurd htold' htold
  | stopped _ hreason =>
      obtain ⟨-, hfailed⟩ := hreason.resolve_left htold
      rw [hfailed least hmem] at hmeets
      cases hmeets

theorem exists_reported {count : Nat} {least : UInt64} (hpos : 0 < count)
    (hcount : count ≤ UInt64.size) (hleast : least? meets 0 = some least) :
    ∃ turns, .cancel ∉ turns ∧
      (least.toNat % count, least) ∈
        (start count false).reported meets turns := by
  have hid : least.toNat % count < (start count false).workers.length := by
    rw [length_start]
    exact Nat.mod_lt _ hpos
  generalize hname : least.toNat % count = id at hid
  have hworker : (start count false).workers[id]? =
      some (.looking (UInt64.ofNat id)) := by
    rw [length_start] at hid
    simp [start, hid]
  obtain ⟨turns, settled, hturns, hrun, hnext, hreport⟩ :=
    exists_settled meets rfl rfl hworker rfl
  have hsettled : ((start count false).become id settled).workers[id]? =
      some settled :=
    List.getElem?_set_self hid
  obtain ⟨hlength, hwalks, -⟩ := sound_start meets hpos hcount false turns
  rw [hrun] at hlength hwalks
  have hstands := hwalks id settled hsettled
  have htold : ¬ ((start count false).become id settled).Tells := by
    simp [Tells, Race.become, start]
  rw [hlength, ← hname] at hstands
  obtain rfl := eq_claimed hpos hcount htold hleast hnext hreport hstands
  -- Two more turns: it claims, and it reports.
  refine ⟨turns ++ [.worker id, .worker id], by simp [hturns], ?_⟩
  rw [reported_append, hrun]
  refine List.mem_append_right _ ?_
  have hlt : id < count := by rwa [length_start] at hid
  simp [reported, deeds, deed?, turn, move, Race.become, start, hlt,
    Deed.report?]

structure Barred (race : Race) : Prop where
  cancelled : race.cancelled = true
  waits : ∀ (id : Nat) (worker : Worker), race.workers[id]? = some worker →
    worker = .stopped ∨ ∃ nonce, worker = .looking nonce ∨
      worker = .asking nonce
  caller : race.caller ≠ .done (.error .exhausted)

theorem barred_start (count : Nat) : (start count true).Barred := by
  refine ⟨rfl, fun id worker hworker => ?_, by simp [start]⟩
  simp only [start, List.getElem?_map, Option.map_eq_some_iff] at hworker
  obtain ⟨place, -, rfl⟩ := hworker
  exact .inr ⟨_, .inl rfl⟩

theorem barred_become (h : race.Barred) {next : Worker}
    (hnext : next = .stopped ∨ ∃ nonce, next = .looking nonce ∨
      next = .asking nonce) (id : Nat) :
    (race.become id next).Barred := by
  refine ⟨h.cancelled, fun other worker hworker => ?_, h.caller⟩
  simp only [Race.become, List.getElem?_set] at hworker
  split_ifs at hworker
  · rw [← Option.some_inj.mp hworker]
    exact hnext
  · exact h.waits other worker hworker

theorem caller_proceed_ne (hcancelled : race.cancelled = true)
    (hcaller : race.caller ≠ .done (.error .exhausted)) :
    race.proceed.caller ≠ .done (.error .exhausted) := by
  cases hphase : race.caller with
  | receiving =>
      simp only [proceed, hphase]
      split
      · simp
      · split_ifs <;> simp [hphase]
  | closing received? => simp [proceed, hphase]
  | joining received? =>
      simp only [proceed, hphase]
      split_ifs
      · cases received? <;> simp
      · simp [hphase]
  | judging => simp [proceed, hphase, hcancelled]
  | done result =>
      rw [hphase] at hcaller
      simpa [proceed, hphase] using hcaller

theorem barred_turn (h : race.Barred) (meets : UInt64 → Bool) (turn : Turn) :
    race.deed? turn = none ∧ (race.turn meets turn).Barred := by
  cases turn with
  | worker id =>
      rw [deed?, Race.turn]
      cases hworker : race.workers[id]? with
      | none => exact ⟨rfl, h⟩
      | some worker =>
          rcases h.waits id worker hworker with rfl | ⟨nonce, rfl | rfl⟩
          · exact ⟨rfl, h⟩
          · refine ⟨rfl, barred_become h ?_ id⟩
            split_ifs
            · exact .inl rfl
            · exact .inr ⟨nonce, .inr rfl⟩
          · refine ⟨rfl, barred_become h ?_ id⟩
            exact .inl (if_pos h.cancelled)
  | caller =>
      refine ⟨rfl, ?_, ?_, ?_⟩
      · exact (cancelled_turn meets race .caller).mpr (.inl h.cancelled)
      · rw [Race.turn, workers_proceed]
        exact h.waits
      · exact caller_proceed_ne h.cancelled h.caller
  | cancel => exact ⟨rfl, rfl, h.waits, h.caller⟩

theorem barred_run (h : race.Barred) (meets : UInt64 → Bool)
    (turns : List Turn) :
    race.deeds meets turns = [] ∧ (race.run meets turns).Barred := by
  induction turns generalizing race with
  | nil => exact ⟨rfl, h⟩
  | cons turn turns ih =>
      obtain ⟨hdeed, hturn⟩ := barred_turn h meets turn
      rw [deeds, hdeed]
      exact ih hturn

theorem cancelled_of_start {count : Nat} (hpos : 0 < count)
    (hcount : count ≤ UInt64.size) {turns : List Turn}
    {result : Except WorkError UInt64}
    (hresult : ((start count true).run meets turns).result? = some result) :
    result = .error .cancelled := by
  have hsound := sound_start meets hpos hcount true turns
  obtain ⟨hdeeds, hbarred⟩ := barred_run (barred_start count) meets turns
  rcases hsound.result hresult with ⟨id, nonce, -, hreported, -⟩ | ⟨-, hreason⟩
  · rw [hdeeds] at hreported
    cases hreported
  · rcases hreason with ⟨hcancelled, -⟩ | ⟨rfl, -⟩
    · exact hcancelled
    · exact absurd (caller_of_result? hresult) hbarred.caller

theorem exists_result_of_least {count : Nat} (hpos : 0 < count)
    (hcount : count ≤ UInt64.size) {least : UInt64}
    (hleast : least? meets 0 = some least) :
    ∃ turns, ((start count false).run meets turns).result? =
      some (.ok least) := by
  obtain ⟨turns, -, hreported⟩ := exists_reported hpos hcount hleast
  have hworkers := (sound_start meets hpos hcount false turns).length_eq
  obtain ⟨more, -, hdone⟩ := exists_done meets (hworkers ▸ hpos)
  obtain ⟨result, hresult⟩ := Option.isSome_iff_exists.mp hdone
  rw [← run_append] at hresult
  have hall : (least.toNat % count, least) ∈
      (start count false).reported meets (turns ++ more) := by
    rw [reported_append]
    exact List.mem_append_left _ hreported
  refine ⟨turns ++ more, ?_⟩
  rcases (sound_start meets hpos hcount false _).result hresult with
    ⟨id, nonce, rfl, hsent, -⟩ | ⟨hnone, -⟩
  · rw [reported, hsent, List.mem_singleton] at hall
    rw [hresult, (Prod.mk.inj hall).2]
  · rw [reported, hnone] at hall
    cases hall

theorem exists_result_of_failed {count : Nat} (hpos : 0 < count)
    (hcount : count ≤ UInt64.size) (hfailed : ∀ nonce, meets nonce = false) :
    ∃ turns, ((start count false).run meets turns).result? =
      some (.error .exhausted) := by
  have hworkers :
      0 < (start count false).workers.length := by rwa [length_start]
  obtain ⟨turns, hturns, hdone⟩ := exists_done meets hworkers
  obtain ⟨result, hresult⟩ := Option.isSome_iff_exists.mp hdone
  refine ⟨turns, ?_⟩
  rcases (sound_start meets hpos hcount false turns).result hresult with
    ⟨id, nonce, rfl, -, hwins⟩ | ⟨-, ⟨-, hcancelled⟩ | ⟨rfl, -⟩⟩
  · exact absurd hwins.hits (by simp [hfailed])
  · exact absurd ((cancelled_run meets _ turns).mp hcancelled)
      (by simp [start, hturns])
  · exact hresult

theorem exists_result_of_cancelled (meets : UInt64 → Bool) {count : Nat}
    (hpos : 0 < count) (hcount : count ≤ UInt64.size) :
    ∃ turns, ((start count true).run meets turns).result? =
      some (.error .cancelled) := by
  have hworkers : 0 < (start count true).workers.length := by rwa [length_start]
  obtain ⟨turns, -, hdone⟩ := exists_done meets hworkers
  obtain ⟨result, hresult⟩ := Option.isSome_iff_exists.mp hdone
  exact ⟨turns, cancelled_of_start hpos hcount hresult ▸ hresult⟩

end Race

theorem exists_race_of_run {count : Nat} (hpos : 0 < count)
    (hmost : count ≤ mostWorkers) (hasher : Hasher) (cancelled : Bool)
    (initialHash : Digest) (target : UInt64) :
    ∃ turns, ((Race.start count cancelled).run
      (meetsTarget hasher · initialHash target) turns).result? =
        some (run hasher count cancelled initialHash target) := by
  have hcount : count ≤ UInt64.size := Nat.le_trans hmost (by decide)
  have hused : workersUsed count ≠ 0 := by
    rw [workersUsed, Nat.min_eq_left hmost]
    exact Nat.ne_of_gt hpos
  cases cancelled with
  | true =>
      rw [run, if_neg hused, if_pos rfl]
      exact Race.exists_result_of_cancelled _ hpos hcount
  | false =>
      rw [run, if_neg hused, if_neg Bool.false_ne_true]
      cases hleast : least? (meetsTarget hasher · initialHash target) 0 with
      | some least => exact Race.exists_result_of_least hpos hcount hleast
      | none =>
          refine Race.exists_result_of_failed hpos hcount fun nonce => ?_
          exact failed_of_least?_eq_none hleast nonce (Nat.zero_le _)

theorem meetsTarget_iff {hasher : Hasher} {nonce target : UInt64}
    {initialHash : Digest} :
    meetsTarget hasher nonce initialHash target = true ↔
      trialValue hasher nonce initialHash ≤ target := by
  rw [meetsTarget, decide_eq_true_iff]

theorem meetsTarget_eq_false_iff {hasher : Hasher} {nonce target : UInt64}
    {initialHash : Digest} :
    meetsTarget hasher nonce initialHash target = false ↔
      target < trialValue hasher nonce initialHash := by
  rw [meetsTarget, decide_eq_false_iff_not, UInt64.not_le]

/-- The workers share out all nonces, each to one of them.  Whatever turns their
race takes, it can be brought to its end, and its result is the nonce that was
reported, by the worker whose it is and once, or tells why there is none. -/
theorem race_sound {count : Nat} (hpos : 0 < count)
    (hmost : count ≤ mostWorkers) (hasher : Hasher) (initialHash : Digest)
    (target : UInt64) :
    ((List.range count).Pairwise fun id other =>
      (progression count id).Disjoint (progression count other)) ∧
    (∀ nonce, ((List.range count).flatMap (progression count)).count nonce =
      1) ∧
    (∀ (cancelled : Bool) (turns : List Turn),
      let meets : UInt64 → Bool :=
        fun nonce => meetsTarget hasher nonce initialHash target
      let race := Race.start count cancelled
      (∀ id < count, race.tried meets turns id <+: progression count id) ∧
      (∀ nonce, (race.run meets turns).result? = some (.ok nonce) →
        trialValue hasher nonce initialHash ≤ target ∧
        (∃ id < count, race.reported meets turns = [(id, nonce)] ∧
          nonce ∈ progression count id) ∧
        (count = 1 → ∀ smaller < nonce,
          target < trialValue hasher smaller initialHash)) ∧
      (∀ failure, (race.run meets turns).result? = some (.error failure) →
        race.reported meets turns = [] ∧
        (failure = .cancelled ∧ (cancelled = true ∨ .cancel ∈ turns) ∨
          failure = .exhausted ∧
            ∀ nonce, target < trialValue hasher nonce initialHash)) ∧
      ∃ more, .cancel ∉ more ∧
        ((race.run meets (turns ++ more)).result?).isSome = true) ∧
    ∀ cancelled, ∃ turns, ((Race.start count cancelled).run
      (meetsTarget hasher · initialHash target) turns).result? =
        some (run hasher count cancelled initialHash target) := by
  have hcount : count ≤ UInt64.size := Nat.le_trans hmost (by decide)
  refine ⟨pairwise_disjoint_progression hcount,
    count_progressions hpos hcount, ?_, fun cancelled =>
      exists_race_of_run hpos hmost hasher cancelled initialHash target⟩
  intro cancelled turns meets race
  have hsound : (race.run meets turns).Sound meets count
      (race.deeds meets turns) :=
    Race.sound_start meets hpos hcount cancelled turns
  refine ⟨fun id hid => ?_, fun nonce hresult => ?_,
    fun failure hresult => ?_, ?_⟩
  · obtain ⟨hlength, hwalks, -⟩ := hsound
    have hworker := List.getElem?_eq_getElem (hlength.symm ▸ hid)
    exact hlength ▸ (hwalks id _ hworker).prefix_progression
      (hlength.symm ▸ hpos)
  · rcases hsound.result hresult with
      ⟨id, won, hnonce, hreported, hwins⟩ | ⟨-, hreason⟩
    · obtain rfl := Except.ok.inj hnonce
      refine ⟨meetsTarget_iff.mp hwins.hits,
        ⟨id, hwins.id_lt, hreported, hwins.mem⟩, ?_⟩
      rintro rfl smaller hlt
      refine meetsTarget_eq_false_iff.mp (hwins.failed smaller ?_ hlt)
      rw [mem_progression hwins.id_lt hcount, Nat.mod_one]
      exact (Nat.lt_one_iff.mp hwins.id_lt).symm
    · rcases hreason with ⟨hnonce, -⟩ | ⟨hnonce, -⟩ <;> cases hnonce
  · rcases hsound.result hresult with
      ⟨id, won, hnonce, -, -⟩ | ⟨hreported, hreason⟩
    · cases hnonce
    · refine ⟨hreported, hreason.imp ?_ ?_⟩
      · rintro ⟨hfailure, hcancelled⟩
        exact ⟨Except.error.inj hfailure,
          (Race.cancelled_run meets race turns).mp hcancelled⟩
      · rintro ⟨hfailure, hfailed⟩
        exact ⟨Except.error.inj hfailure,
          fun nonce => meetsTarget_eq_false_iff.mp (hfailed nonce)⟩
  · obtain ⟨more, hmore, hdone⟩ :=
      Race.exists_done meets (hsound.length_eq.symm ▸ hpos)
    exact ⟨more, hmore, by rwa [Race.run_append]⟩

/-- A hash that meets every target. -/
def zeroHasher : Hasher where
  digest _ := .ofNat digestSize 0

/-- The second worker finds a nonce before the first has looked. -/
def secondFindsFirst : List Turn :=
  List.replicate 5 (.worker 1) ++ [.worker 0, .caller, .caller, .caller]

theorem result_secondFindsFirst (meets : UInt64 → Bool) (h : meets 1 = true) :
    ((Race.start 2 false).run meets secondFindsFirst).result? =
      some (.ok 1) := by
  simp [Race.run, secondFindsFirst, List.replicate, Race.start, List.range_succ,
    Race.turn, Race.move, Race.become, Race.proceed, Race.isOver,
    Race.result?, h]

theorem race_sound_secondFindsFirst :
    0 < 2 ∧ 2 ≤ mostWorkers ∧
      ((Race.start 2 false).run
        (meetsTarget zeroHasher · (.ofNat digestSize 0) 0)
        secondFindsFirst).result? = some (.ok 1) ∧
      trialValue zeroHasher 1 (.ofNat digestSize 0) ≤ 0 ∧
      ∃ id < 2, (Race.start 2 false).reported
        (meetsTarget zeroHasher · (.ofNat digestSize 0) 0)
        secondFindsFirst = [(id, 1)] ∧ 1 ∈ progression 2 id := by
  have hpos : 0 < 2 := by decide
  have hmost : 2 ≤ mostWorkers := by decide
  have hmeets : meetsTarget zeroHasher 1 (.ofNat digestSize 0) 0 =
      true := by decide
  have hresult := result_secondFindsFirst
    (meetsTarget zeroHasher · (.ofNat digestSize 0) 0) hmeets
  obtain ⟨-, -, hraces, -⟩ :=
    race_sound hpos hmost zeroHasher (.ofNat digestSize 0) 0
  obtain ⟨-, hfound, -, -⟩ := hraces false secondFindsFirst
  obtain ⟨hvalue, hreported, -⟩ := hfound 1 hresult
  exact ⟨hpos, hmost, hresult, hvalue, hreported⟩

end ObjectRelay.Search
