import ObjectRelay.Proofs.Bytes.BigEndian
import ObjectRelay.Proofs.HashMap
import ObjectRelay.Proofs.Node.Window
import ObjectRelay.Proofs.Work.Search

namespace ObjectRelay

/-! What a work engine hands out and what it remembers, whatever it was called
for before: nonces that do, and no more of them than there is room for. -/

theorem UInt64.ofNat_toNat_octets (nonce : UInt64) :
    UInt64.ofNat (Octets.ofNat 8 nonce.toNat).toNat = nonce := by
  have hfits : nonce.toNat < 256 ^ 8 := nonce.toNat_lt
  rw [Octets.toNat, Octets.ofNat, Bytes.toNat_bigEndian, Nat.mod_eq_of_lt hfits,
    UInt64.ofNat_toNat]

namespace Search

/-- What a search can come to: there is nobody to search, or a race of the
workers is over. -/
inductive Yields (hasher : Hasher) (workers : Nat) (initialHash : Digest)
    (target : UInt64) : Except WorkError UInt64 → Prop where
  | idle (hnobody : workersUsed workers = 0) :
      Yields hasher workers initialHash target (.error .noWorkers)
  | raced {result : Except WorkError UInt64} (hpos : 0 < workersUsed workers)
      (cancelled : Bool) (turns : List Turn)
      (hresult : ((Race.start (workersUsed workers) cancelled).run
        (meetsTarget hasher · initialHash target) turns).result? =
          some result) :
      Yields hasher workers initialHash target result

variable {hasher : Hasher} {workers : Nat} {initialHash : Digest}
  {target nonce : UInt64}

theorem workersUsed_le (workers : Nat) : workersUsed workers ≤ mostWorkers :=
  Nat.min_le_right _ _

theorem Yields.meetsTarget
    (h : Yields hasher workers initialHash target (.ok nonce)) :
    meetsTarget hasher nonce initialHash target = true := by
  cases h with
  | raced hpos cancelled turns hresult =>
      have hcount : workersUsed workers ≤ UInt64.size :=
        Nat.le_trans (workersUsed_le workers) (by decide)
      rcases (Race.sound_start _ hpos hcount cancelled turns).result hresult
        with
        ⟨id, found, hsame, -, hwins⟩ | ⟨-, ⟨hfailed, -⟩ | ⟨hfailed, -⟩⟩
      · rw [Except.ok.inj hsame]
        exact hwins.hits
      · cases hfailed
      · cases hfailed

/-- Workers that keep pace come to a result that the search can have. -/
theorem yields_run (hasher : Hasher) (workers : Nat) (cancelled : Bool)
    (initialHash : Digest) (target : UInt64) :
    Yields hasher workers initialHash target
      (run hasher workers cancelled initialHash target) := by
  have hsame : workersUsed (workersUsed workers) = workersUsed workers :=
    Nat.min_eq_left (workersUsed_le workers)
  cases hused : workersUsed workers with
  | zero =>
      rw [run, if_pos hused]
      exact .idle hused
  | succ others =>
      have hpos : 0 < workersUsed workers := hused ▸ Nat.succ_pos others
      obtain ⟨turns, hresult⟩ :=
        exists_race_of_run hpos (workersUsed_le workers) hasher cancelled
        initialHash target
      refine .raced hpos cancelled turns (hresult.trans ?_)
      rw [run, run, hsame]

end Search

/-- So many workers, and what each search of theirs comes to. -/
structure Crew (hasher : Hasher) where
  workers : Nat
  search : Digest → UInt64 → Except WorkError UInt64
  yields : ∀ initialHash target,
    Search.Yields hasher workers initialHash target (search initialHash target)

/-- A crew whose workers keep pace. -/
def Crew.inStep (hasher : Hasher) (workers : Nat) (cancelled : Bool) :
    Crew hasher where
  workers := workers
  search := Search.run hasher workers cancelled
  yields := Search.yields_run hasher workers cancelled

namespace WorkEngine

/-- What an engine is asked to do.  The work is done by a crew at some clock,
and a shuffle picks what is evicted. -/
inductive Call (hasher : Hasher) where
  | work (crew : Crew hasher) (shuffle : Shuffle) (now : Int64)
      (object : Object)
  | forget (object : Object)
  | clear

variable {hasher : Hasher}

def perform (engine : WorkEngine) : Call hasher → WorkEngine
  | .work crew shuffle now object =>
    (engine.work shuffle crew.search now object).2
  | .forget object => engine.forget object
  | .clear => engine.clear

def run (engine : WorkEngine) (calls : List (Call hasher)) : WorkEngine :=
  calls.foldl perform engine

variable {engine : WorkEngine} {shuffle : Shuffle} {now : Int64}
  {object done : Object} {search : Digest → UInt64 → Except WorkError UInt64}
  {initialHash : Digest} {target nonce : UInt64}
  {result : Except WorkError Object × WorkEngine}

theorem remembered?_eq_some_iff :
    engine.remembered? initialHash target = some nonce ↔
      engine.nonces[initialHash]? = some nonce ∧
        meetsTarget engine.hasher nonce initialHash target = true :=
  Option.filter_eq_some_iff

/-- Work is recalled, or it is searched for, in vain or not. -/
inductive Works (engine : WorkEngine) (shuffle : Shuffle)
    (search : Digest → UInt64 → Except WorkError UInt64) (now : Int64)
    (object : Object) : Except WorkError Object × WorkEngine → Prop where
  | recalls {nonce : UInt64}
      (hheld : engine.nonces[object.initialHash engine.hasher]? = some nonce)
      (hmeets : meetsTarget engine.hasher nonce
        (object.initialHash engine.hasher)
        (engine.difficulty.objectTarget object now) = true) :
      Works engine shuffle search now object
        (.ok (object.withNonce (.ofNat 8 nonce.toNat)), engine)
  | fails {failure : WorkError}
      (hsearch : search (object.initialHash engine.hasher)
        (engine.difficulty.objectTarget object now) = .error failure) :
      Works engine shuffle search now object (.error failure, engine)
  | finds {nonce : UInt64}
      (hsearch : search (object.initialHash engine.hasher)
        (engine.difficulty.objectTarget object now) = .ok nonce) :
      Works engine shuffle search now object
        (.ok (object.withNonce (.ofNat 8 nonce.toNat)),
          engine.remember shuffle (object.initialHash engine.hasher) nonce)

theorem works_work (engine : WorkEngine) (shuffle : Shuffle)
    (search : Digest → UInt64 → Except WorkError UInt64) (now : Int64)
    (object : Object) :
    Works engine shuffle search now object
      (engine.work shuffle search now object) := by
  unfold work
  dsimp only
  split
  · rename_i nonce hremembered
    obtain ⟨hheld, hmeets⟩ := remembered?_eq_some_iff.mp hremembered
    exact .recalls hheld hmeets
  · split
    · rename_i hsearch
      exact .fails hsearch
    · rename_i hsearch
      exact .finds hsearch

/-- The victim makes room, so that there is always room for one more. -/
theorem size_remember_le (h : engine.nonces.size ≤ mostNonces)
    (shuffle : Shuffle) (initialHash : Digest) (nonce : UInt64) :
    (engine.remember shuffle initialHash nonce).nonces.size ≤ mostNonces := by
  have hinsert : ∀ kept : Std.HashMap Digest UInt64, kept.size < mostNonces →
      (kept.insert initialHash nonce).size ≤ mostNonces :=
    fun kept hroom => Nat.le_trans Std.HashMap.size_insert_le hroom
  unfold remember
  dsimp only
  split
  · rename_i hfull
    have hkeys : engine.nonces.keys.length = engine.nonces.size :=
      Std.HashMap.length_keys
    split
    · rename_i victim hvictim
      have hmem : victim ∈ engine.nonces :=
        Std.HashMap.mem_keys.mp
          (shuffle.mem_order.mp (List.mem_of_mem_head? hvictim))
      apply hinsert
      rw [Std.HashMap.size_erase, if_pos hmem]
      have hpos : 0 < mostNonces := by decide
      exact Nat.lt_of_lt_of_le
        (Nat.sub_one_lt_of_lt (Nat.lt_of_lt_of_le hpos hfull)) h
    · rename_i hnobody
      have hlength := shuffle.length_order engine.nonces.keys
      rw [List.head?_eq_none_iff.mp hnobody, hkeys] at hlength
      rw [← hlength] at hfull
      exact absurd hfull (by decide)
  · rename_i hroom
    exact hinsert _ (Nat.not_le.mp hroom)

theorem size_work_le (h : engine.nonces.size ≤ mostNonces) (shuffle : Shuffle)
    (search : Digest → UInt64 → Except WorkError UInt64) (now : Int64)
    (object : Object) :
    (engine.work shuffle search now object).2.nonces.size ≤ mostNonces := by
  have hworks := works_work engine shuffle search now object
  generalize engine.work shuffle search now object = result at hworks
  cases hworks with
  | recalls hheld hmeets => exact h
  | fails hsearch => exact h
  | finds hsearch => exact size_remember_le h shuffle _ _

theorem size_perform_le (h : engine.nonces.size ≤ mostNonces)
    (call : Call hasher) :
    (engine.perform call).nonces.size ≤ mostNonces := by
  cases call with
  | work crew shuffle now object =>
      exact size_work_le h shuffle crew.search now object
  | forget object => exact Nat.le_trans Std.HashMap.size_erase_le h
  | clear => exact Nat.zero_le _

theorem size_run_le (h : engine.nonces.size ≤ mostNonces)
    (calls : List (Call hasher)) :
    (engine.run calls).nonces.size ≤ mostNonces := by
  induction calls generalizing engine with
  | nil => exact h
  | cons call calls ih => exact ih (size_perform_le h call)

/-- The hash function and the difficulty are settled when an engine is made. -/
theorem settled_perform (engine : WorkEngine) (call : Call hasher) :
    (engine.perform call).hasher = engine.hasher ∧
      (engine.perform call).difficulty = engine.difficulty := by
  cases call with
  | work crew shuffle now object =>
      have hworks := works_work engine shuffle crew.search now object
      rw [perform]
      generalize engine.work shuffle crew.search now object = result at hworks
      cases hworks with
      | recalls hheld hmeets => exact ⟨rfl, rfl⟩
      | fails hsearch => exact ⟨rfl, rfl⟩
      | finds hsearch => exact ⟨rfl, rfl⟩
  | forget object => exact ⟨rfl, rfl⟩
  | clear => exact ⟨rfl, rfl⟩

theorem settled_run (engine : WorkEngine) (calls : List (Call hasher)) :
    (engine.run calls).hasher = engine.hasher ∧
      (engine.run calls).difficulty = engine.difficulty := by
  induction calls generalizing engine with
  | nil => exact ⟨rfl, rfl⟩
  | cons call calls ih =>
      obtain ⟨hhasher, hdifficulty⟩ := engine.settled_perform call
      obtain ⟨hrunHasher, hrunDifficulty⟩ := ih (engine.perform call)
      exact ⟨hrunHasher.trans hhasher, hrunDifficulty.trans hdifficulty⟩

theorem checkWork_withNonce {difficulty : Difficulty}
    (hmeets : meetsTarget hasher nonce (object.initialHash hasher)
      (difficulty.objectTarget object now) = true) :
    (object.withNonce (.ofNat 8 nonce.toNat)).checkWork hasher difficulty now =
      .ok () := by
  refine Object.checkWork_eq_ok_iff.mpr ⟨_, rfl, ?_⟩
  rw [UInt64.ofNat_toNat_octets]
  exact Search.meetsTarget_iff.mp hmeets

theorem exists_nonce_of_work (crew : Crew engine.hasher)
    (h : (engine.work shuffle crew.search now object).1 = .ok done) :
    ∃ nonce : UInt64, done = object.withNonce (.ofNat 8 nonce.toNat) ∧
      meetsTarget engine.hasher nonce (object.initialHash engine.hasher)
        (engine.difficulty.objectTarget object now) = true := by
  have hworks := works_work engine shuffle crew.search now object
  generalize engine.work shuffle crew.search now object = result at h hworks
  cases hworks with
  | recalls hheld hmeets => exact ⟨_, (Except.ok.inj h).symm, hmeets⟩
  | fails hsearch => cases h
  | finds hsearch =>
      have hyields := crew.yields (object.initialHash engine.hasher)
        (engine.difficulty.objectTarget object now)
      rw [hsearch] at hyields
      exact ⟨_, (Except.ok.inj h).symm, hyields.meetsTarget⟩

theorem work_of_error {failure : WorkError}
    (h : (engine.work shuffle search now object).1 = .error failure) :
    (engine.work shuffle search now object).2 = engine := by
  have hworks := works_work engine shuffle search now object
  generalize engine.work shuffle search now object = result at h hworks
  cases hworks with
  | recalls hheld hmeets => rfl
  | fails hsearch => rfl
  | finds hsearch => cases h

theorem work_of_remembered
    (hheld : engine.nonces[object.initialHash engine.hasher]? = some nonce)
    (hmeets : meetsTarget engine.hasher nonce (object.initialHash engine.hasher)
      (engine.difficulty.objectTarget object now) = true) :
    engine.work shuffle search now object =
      (.ok (object.withNonce (.ofNat 8 nonce.toNat)), engine) := by
  have hremembered := remembered?_eq_some_iff.mpr ⟨hheld, hmeets⟩
  simp only [work, hremembered]

theorem getElem?_forget (engine : WorkEngine) (object : Object)
    (initialHash : Digest) :
    (engine.forget object).nonces[initialHash]? =
      if object.initialHash engine.hasher = initialHash then none
      else engine.nonces[initialHash]? := by
  simp [forget, Std.HashMap.getElem?_erase]

theorem forget_of_forgotten
    (h : engine.nonces[object.initialHash engine.hasher]? = none) :
    engine.forget object = engine := by
  have habsent : engine.nonces.contains (object.initialHash engine.hasher) =
      false := by
    rw [Std.HashMap.contains_eq_isSome_getElem?, h]
    rfl
  rw [forget, erase_eq_self habsent]

/-- Whatever an engine was called for before, it remembers no more nonces than
there is room for.  Work that it hands out is enough then and at every later
clock, and a failure leaves no trace.  A nonce that is remembered and still does
is the one handed out, whoever would search.  What is forgotten is so for each
nonce that the object may carry. -/
theorem nonces_bounded_and_sound (hasher : Hasher) (difficulty : Difficulty)
    (calls : List (Call hasher)) :
    let engine := run { hasher := hasher, difficulty := difficulty } calls
    engine.nonces.size ≤ mostNonces ∧
    (∀ (crew : Crew hasher) (shuffle : Shuffle) (now : Int64) (object : Object),
      let worked := engine.work shuffle crew.search now object
      (∀ done, worked.1 = .ok done →
        (∃ nonce, done = object.withNonce nonce) ∧
        ∀ later, now ≤ later →
          done.checkWork hasher difficulty later = .ok ()) ∧
      (∀ failure, worked.1 = .error failure → worked.2 = engine) ∧
      ∀ nonce, engine.nonces[object.initialHash hasher]? = some nonce →
        trialValue hasher nonce (object.initialHash hasher) ≤
          difficulty.objectTarget object now →
        worked = (.ok (object.withNonce (.ofNat 8 nonce.toNat)), engine)) ∧
    ∀ (object : Object) (nonce? : Option (Octets 8)),
      (engine.forget { object with nonce? := nonce? }).nonces[object.initialHash
        hasher]? = none := by
  intro engine
  obtain ⟨hhasher, hdifficulty⟩ : engine.hasher = hasher ∧
    engine.difficulty = difficulty :=
    settled_run { hasher := hasher, difficulty := difficulty } calls
  have hsize : engine.nonces.size ≤ mostNonces :=
    size_run_le (Nat.zero_le _) calls
  generalize engine = engine at *
  subst hhasher hdifficulty
  refine ⟨hsize, ?_, ?_⟩
  · intro crew shuffle now object worked
    refine ⟨?_, fun failure => work_of_error, ?_⟩
    · intro done hdone
      obtain ⟨nonce, rfl, hmeets⟩ := exists_nonce_of_work crew hdone
      exact ⟨⟨_, rfl⟩, fun later hlater =>
        Object.checkWork_later hlater (checkWork_withNonce hmeets)⟩
    · intro nonce hheld hvalue
      exact work_of_remembered hheld (Search.meetsTarget_iff.mpr hvalue)
  · intro object nonce?
    rw [getElem?_forget]
    exact if_pos rfl

def unsolvedObject : Object :=
  ⟨none, 0, 2, 1, 1, .letter []⟩

def oneSolved : List (Call Search.zeroHasher) :=
  [.work (.inStep Search.zeroHasher 1 false) .none 0 unsolvedObject]

theorem search_zeroHasher (initialHash : Digest) (target : UInt64) :
    Search.run Search.zeroHasher 1 false initialHash target = .ok 0 := by
  have hmeets : meetsTarget Search.zeroHasher 0 initialHash target = true :=
    Search.meetsTarget_iff.mpr UInt64.zero_le
  have hused : Search.workersUsed 1 ≠ 0 := by decide
  rw [Search.run, if_neg hused, if_neg Bool.false_ne_true, Search.least?,
    if_pos (by decide)]
  simp [hmeets]

theorem getElem?_oneSolved :
    (run { hasher := Search.zeroHasher, difficulty := .network }
      oneSolved).nonces[unsolvedObject.initialHash Search.zeroHasher]? =
        some 0 := by
  have hempty : ¬ mostNonces ≤ 0 := by decide
  simp [oneSolved, run, perform, work, remembered?, Crew.inStep,
    search_zeroHasher, remember, hempty]

theorem nonces_bounded_and_sound_oneSolved :
    let engine :=
      run { hasher := Search.zeroHasher, difficulty := .network } oneSolved
    engine.nonces.size ≤ mostNonces ∧
      engine.work .none (Crew.inStep Search.zeroHasher 0 true).search 10800
        unsolvedObject = (.ok (unsolvedObject.withNonce (.ofNat 8 0)), engine) ∧
      (unsolvedObject.withNonce (.ofNat 8 0)).checkWork Search.zeroHasher
        .network 10801 = .ok () ∧
      (engine.forget (unsolvedObject.withNonce (.ofNat 8 7))).nonces[
        unsolvedObject.initialHash Search.zeroHasher]? = none := by
  intro engine
  obtain ⟨hsize, hworks, hforgets⟩ :=
    nonces_bounded_and_sound Search.zeroHasher .network oneSolved
  obtain ⟨hsound, -, hrecalls⟩ :=
    hworks (.inStep Search.zeroHasher 0 true) .none 10800 unsolvedObject
  have hworked := hrecalls 0 getElem?_oneSolved UInt64.zero_le
  obtain ⟨-, hchecks⟩ := hsound _ (congrArg Prod.fst hworked)
  exact ⟨hsize, hworked, hchecks 10801 (by decide),
    hforgets unsolvedObject (some (.ofNat 8 7))⟩

end WorkEngine

end ObjectRelay
