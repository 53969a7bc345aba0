import Mathlib.Data.Set.Card
import Mathlib.Order.Bounds.Basic
import ObjectRelay.Proofs.Gossip.KnownVectors
import ObjectRelay.Proofs.HashMap

namespace ObjectRelay.KnownVectors

inductive Call where
  | insert (vector : InventoryVector) (now : Nat)
  | extend (vectors : List InventoryVector) (now : Nat)
  | lookUp (vector : InventoryVector) (now : Nat)
  | lookUpAll (vectors : List InventoryVector) (now : Nat)
  | purge (now : Nat)

def Call.instant : Call → Nat
  | insert _ now | extend _ now | lookUp _ now | lookUpAll _ now | purge now =>
    now

/-- The vectors that the peer turns out to have. -/
def Call.told : Call → List InventoryVector
  | insert vector _ => [vector]
  | extend vectors _ => vectors
  | lookUp _ _ | lookUpAll _ _ | purge _ => []

def perform (known : KnownVectors) : Call → KnownVectors
  | .insert vector now => known.insert vector now
  | .extend vectors now => known.extend vectors now
  | .lookUp vector now => (known.knowsOf vector now).2
  | .lookUpAll vectors now => (known.knownOf vectors now).2
  | .purge now => known.purge now

def run (known : KnownVectors) (calls : List Call) : KnownVectors :=
  calls.foldl perform known

/-- No call goes back in time, nor does what comes after them all at the given
instant. -/
def InOrder (calls : List Call) (now : Nat) : Prop :=
  (calls.map Call.instant ++ [now]).Pairwise (· ≤ ·)

def ToldAt (calls : List Call) (vector : InventoryVector)
    (instant : Nat) : Prop :=
  ∃ call ∈ calls, vector ∈ call.told ∧ call.instant = instant

/-- The vector was told of, and the last time was not too long ago. -/
def Recent (lifetime : Nat) (calls : List Call) (now : Nat)
    (vector : InventoryVector) : Prop :=
  ∃ instant, IsGreatest {instant | ToldAt calls vector instant} instant ∧
    now - instant ≤ lifetime

variable {known : KnownVectors} {call : Call} {calls : List Call}
  {vector : InventoryVector} {lifetime now instant : Nat}

theorem run_concat (known : KnownVectors) (calls : List Call) (call : Call) :
    known.run (calls ++ [call]) = (known.run calls).perform call :=
  List.foldl_concat ..

theorem InOrder.le (h : InOrder calls now) (hmem : call ∈ calls) :
    call.instant ≤ now :=
  (List.pairwise_append.mp h).2.2 _ (List.mem_map_of_mem hmem) now
    (List.mem_singleton_self now)

theorem InOrder.of_concat (h : InOrder (calls ++ [call]) now) :
    InOrder calls call.instant := by
  rw [InOrder, List.map_append] at h
  exact (List.pairwise_append.mp h).1

theorem toldAt_concat_iff :
    ToldAt (calls ++ [call]) vector instant ↔
      ToldAt calls vector instant ∨ vector ∈ call.told ∧
      call.instant = instant := by
  simp [ToldAt, or_and_right, exists_or]

theorem latest_concat_of_told (horder : InOrder calls call.instant)
    (htold : vector ∈ call.told) :
    IsGreatest {instant | ToldAt (calls ++ [call]) vector instant}
      call.instant := by
  refine ⟨toldAt_concat_iff.mpr (.inr ⟨htold, rfl⟩), ?_⟩
  intro instant htoldAt
  rcases toldAt_concat_iff.mp htoldAt with
    ⟨earlier, hearlier, -, rfl⟩ | ⟨-, rfl⟩
  · exact horder.le hearlier
  · exact Nat.le_refl _

theorem toldAt_concat_of_not_told (huntold : vector ∉ call.told) :
    ToldAt (calls ++ [call]) vector = ToldAt calls vector := by
  funext instant
  rw [toldAt_concat_iff]
  simp [huntold]

theorem perform_cases (known : KnownVectors) (call : Call) :
    known.perform call = known.extend call.told call.instant ∨
      call.told = [] ∧ known.perform call = known.purge call.instant := by
  cases call with
  | insert vector now => exact .inl rfl
  | extend vectors now => exact .inl rfl
  | lookUp vector now => exact .inr ⟨rfl, rfl⟩
  | lookUpAll vectors now =>
      cases vectors with
      | nil => exact .inl rfl
      | cons first rest => exact .inr ⟨rfl, rfl⟩
  | purge now => exact .inr ⟨rfl, rfl⟩

theorem lifetime_perform (known : KnownVectors) (call : Call) :
    (known.perform call).lifetime = known.lifetime := by
  rcases known.perform_cases call with hextend | ⟨-, hpurge⟩
  · rw [hextend]
    exact lifetime_extend known call.told call.instant
  · rw [hpurge]
    rfl

theorem getElem?_perform_of_told (known : KnownVectors)
    (htold : vector ∈ call.told) :
    (known.perform call).seen[vector]? = some call.instant := by
  rcases known.perform_cases call with hextend | ⟨hnone, -⟩
  · rw [hextend, getElem?_extend, if_pos htold]
  · rw [hnone] at htold
    cases htold

theorem getElem?_purge_eq_some_iff :
    (known.purge now).seen[vector]? = some instant ↔
      known.seen[vector]? = some instant ∧ now - instant ≤ known.lifetime := by
  rw [purge, Std.HashMap.getElem?_filter', Option.filter_eq_some_iff,
    decide_eq_true_iff]

theorem getElem?_of_perform (huntold : vector ∉ call.told)
    (h : (known.perform call).seen[vector]? = some instant) :
    known.seen[vector]? = some instant := by
  rcases known.perform_cases call with hextend | ⟨-, hpurge⟩
  · rwa [hextend, getElem?_extend, if_neg huntold] at h
  · rw [hpurge] at h
    exact (getElem?_purge_eq_some_iff.mp h).1

theorem getElem?_perform_of_young (huntold : vector ∉ call.told)
    (h : known.seen[vector]? = some instant)
    (hyoung : call.instant - instant ≤ known.lifetime) :
    (known.perform call).seen[vector]? = some instant := by
  rcases known.perform_cases call with hextend | ⟨-, hpurge⟩
  · rwa [hextend, getElem?_extend, if_neg huntold]
  · rw [hpurge]
    exact getElem?_purge_eq_some_iff.mpr ⟨h, hyoung⟩

/-- What is held is when the vector was last told of.  What is not held is too
old for good, since time only goes on. -/
structure Tracks (calls : List Call) (now : Nat) (known : KnownVectors) :
    Prop where
  latest : ∀ vector instant, known.seen[vector]? = some instant →
    IsGreatest {instant | ToldAt calls vector instant} instant
  held : ∀ vector instant,
    IsGreatest {instant | ToldAt calls vector instant} instant →
    now - instant ≤ known.lifetime → known.seen[vector]? = some instant

theorem Tracks.mono {later : Nat} (h : Tracks calls now known)
    (hle : now ≤ later) :
    Tracks calls later known := by
  refine ⟨h.latest, ?_⟩
  intro vector instant hlatest hyoung
  exact h.held vector instant hlatest (by omega)

theorem Tracks.perform (h : Tracks calls call.instant known)
    (horder : InOrder calls call.instant) :
    Tracks (calls ++ [call]) call.instant (known.perform call) := by
  refine ⟨?_, ?_⟩
  · intro vector instant hheld
    by_cases htold : vector ∈ call.told
    · rw [getElem?_perform_of_told known htold, Option.some_inj] at hheld
      subst hheld
      exact latest_concat_of_told horder htold
    · rw [toldAt_concat_of_not_told htold]
      exact h.latest vector instant (getElem?_of_perform htold hheld)
  · intro vector instant hlatest hyoung
    by_cases htold : vector ∈ call.told
    · rw [hlatest.unique (latest_concat_of_told horder htold)]
      exact getElem?_perform_of_told known htold
    · rw [toldAt_concat_of_not_told htold] at hlatest
      rw [lifetime_perform] at hyoung
      exact getElem?_perform_of_young htold
        (h.held vector instant hlatest hyoung) hyoung

theorem lifetime_run (known : KnownVectors) (calls : List Call) :
    (known.run calls).lifetime = known.lifetime := by
  induction calls generalizing known with
  | nil => rfl
  | cons call calls ih =>
      exact (ih (known.perform call)).trans (lifetime_perform known call)

theorem tracks_run (lifetime : Nat) (horder : InOrder calls now) :
    Tracks calls now (run { lifetime := lifetime } calls) := by
  induction calls using List.reverseRecOn generalizing now with
  | nil =>
      refine ⟨?_, ?_⟩
      · intro vector instant hheld
        simp [run] at hheld
      · rintro vector instant ⟨⟨call, hmem, -⟩, -⟩
        cases hmem
  | append_singleton calls call ih =>
      rw [run_concat]
      have hcall : call.instant ≤ now := horder.le (List.mem_concat_self)
      exact ((ih horder.of_concat).perform horder.of_concat).mono hcall

theorem recent_iff (horder : InOrder calls now) :
    Recent lifetime calls now vector ↔
      ∃ instant, (run { lifetime := lifetime } calls).seen[vector]? =
        some instant ∧
        now - instant ≤ lifetime := by
  have htracks := tracks_run lifetime horder
  have hlifetime := lifetime_run { lifetime := lifetime } calls
  constructor
  · rintro ⟨instant, hlatest, hyoung⟩
    exact ⟨instant,
      htracks.held vector instant hlatest (by rwa [hlifetime]), hyoung⟩
  · rintro ⟨instant, hheld, hyoung⟩
    exact ⟨instant, htracks.latest vector instant hheld, hyoung⟩

theorem size_purge_run (horder : InOrder calls now) :
    ((run { lifetime := lifetime } calls).purge now).size =
      {vector | Recent lifetime calls now vector}.ncard := by
  have hlifetime := lifetime_run { lifetime := lifetime } calls
  have hkeys : {vector | Recent lifetime calls now vector} =
      (((run { lifetime := lifetime } calls).purge now).seen.keys.toFinset :
        Set _) := by
    ext vector
    rw [Set.mem_ofPred_eq, recent_iff horder, Finset.mem_coe, List.mem_toFinset,
      mem_keys_iff]
    simp only [getElem?_purge_eq_some_iff, hlifetime]
  rw [hkeys, Set.ncard_coe_finset,
    List.toFinset_card_of_nodup Std.HashMap.nodup_keys, Std.HashMap.length_keys]
  rfl

/-- After any calls in the order of time, a vector is known just when it was
told of and the last time is within the lifetime, and a look-up or a purge
leaves just these vectors. -/
theorem known_iff_recent (lifetime : Nat) {calls : List Call} {now : Nat}
    (horder : InOrder calls now) :
    let known := run { lifetime := lifetime } calls
    (∀ vector, (known.knowsOf vector now).1 = true ↔
      Recent lifetime calls now vector) ∧
    (∀ vectors vector, vector ∈ (known.knownOf vectors now).1 ↔
      vector ∈ vectors ∧ Recent lifetime calls now vector) ∧
    (∀ vector, (known.knowsOf vector now).2.size =
      {vector | Recent lifetime calls now vector}.ncard) ∧
    (known.purge now).size =
      {vector | Recent lifetime calls now vector}.ncard := by
  intro known
  have hlifetime : known.lifetime = lifetime :=
    lifetime_run { lifetime := lifetime } calls
  refine ⟨?_, ?_, fun _ => size_purge_run horder, size_purge_run horder⟩
  · intro vector
    rw [recent_iff horder, knowsOf, contains_purge_iff, hlifetime]
  · intro vectors vector
    rw [recent_iff horder, mem_knownOf, hlifetime]

def toldTwice : List Call :=
  [.insert (.ofNat 32 1) 0, .extend [.ofNat 32 2, .ofNat 32 1] 4,
    .lookUp (.ofNat 32 2) 12, .insert (.ofNat 32 2) 13]

theorem latest_toldTwice :
    IsGreatest {instant | ToldAt toldTwice (.ofNat 32 1) instant} 4 := by
  refine ⟨⟨.extend [.ofNat 32 2, .ofNat 32 1] 4, by simp [toldTwice], by decide,
    rfl⟩, ?_⟩
  rintro instant ⟨call, hmem, htold, rfl⟩
  simp only [toldTwice, List.mem_cons, List.not_mem_nil, or_false] at hmem
  rcases hmem with rfl | rfl | rfl | rfl
  · decide
  · exact Nat.le_refl 4
  · cases htold
  · exact absurd htold (by decide)

/-- It is known up to the end of the lifetime since then, and no longer. -/
theorem toldTwice_known_to_the_end :
    InOrder toldTwice 14 ∧
      ((run { lifetime := 10 } toldTwice).knowsOf (.ofNat 32 1) 14).1 = true ∧
      InOrder toldTwice 15 ∧
      ((run { lifetime := 10 } toldTwice).knowsOf (.ofNat 32 1) 15).1 =
        false := by
  have horder (now : Nat) (h : 13 ≤ now) : InOrder toldTwice now := by
    simp [InOrder, toldTwice, Call.instant]
    omega
  refine ⟨horder 14 (by decide), ?_, horder 15 (by decide), ?_⟩
  · exact ((known_iff_recent 10 (horder 14 (by decide))).1 _).mpr ⟨4,
      latest_toldTwice, by decide⟩
  · rw [Bool.eq_false_iff]
    intro hknown
    obtain ⟨instant, hlatest, hyoung⟩ :=
      ((known_iff_recent 10 (horder 15 (by decide))).1 _).mp hknown
    rw [hlatest.unique latest_toldTwice] at hyoung
    exact absurd hyoung (by decide)

end ObjectRelay.KnownVectors
