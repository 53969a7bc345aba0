import Mathlib.Data.List.Nodup
import ObjectRelay.Work.Search

namespace ObjectRelay.Search

def firstSteps (count id steps : Nat) : List UInt64 :=
  (List.range steps).map fun step => UInt64.ofNat (id + step * count)

/-- How many steps lead to a word. -/
def stepsOf (count id : Nat) : Nat :=
  (UInt64.size - 1 - id) / count + 1

def progression (count id : Nat) : List UInt64 :=
  firstSteps count id (stepsOf count id)

variable {count id other step steps : Nat} {nonce : UInt64}

theorem firstSteps_succ (count id steps : Nat) :
    firstSteps count id (steps + 1) =
      firstSteps count id steps ++ [UInt64.ofNat (id + steps * count)] := by
  simp [firstSteps, List.range_succ]

theorem prefix_firstSteps {first second : Nat} (h : first ≤ second) :
    firstSteps count id first <+: firstSteps count id second := by
  obtain ⟨more, rfl⟩ := Nat.exists_eq_add_of_le h
  rw [firstSteps, firstSteps, List.range_add, List.map_append]
  exact List.prefix_append _ _

theorem lt_stepsOf_iff (hcount : 0 < count) (hid : id < UInt64.size) :
    step < stepsOf count id ↔ id + step * count < UInt64.size := by
  rw [stepsOf, Nat.lt_succ_iff, Nat.le_div_iff_mul_le hcount]
  omega

theorem toNat_step (hcount : 0 < count) (hid : id < UInt64.size)
    (h : step < stepsOf count id) :
    (UInt64.ofNat (id + step * count)).toNat = id + step * count :=
  UInt64.toNat_ofNat_of_lt' ((lt_stepsOf_iff hcount hid).mp h)

theorem mem_firstSteps (hcount : 0 < count) (hid : id < UInt64.size)
    (hsteps : steps ≤ stepsOf count id) :
    nonce ∈ firstSteps count id steps ↔ ∃ step < steps,
      nonce.toNat = id + step * count := by
  simp only [firstSteps, List.mem_map, List.mem_range]
  constructor
  · rintro ⟨step, hstep, rfl⟩
    exact ⟨step, hstep, toNat_step hcount hid (Nat.lt_of_lt_of_le hstep hsteps)⟩
  · rintro ⟨step, hstep, hnonce⟩
    exact ⟨step, hstep, by rw [← hnonce, UInt64.ofNat_toNat]⟩

theorem mem_progression (hid : id < count) (hcount : count ≤ UInt64.size) :
    nonce ∈ progression count id ↔ nonce.toNat % count = id := by
  have hpos : 0 < count := Nat.zero_lt_of_lt hid
  have hsize : id < UInt64.size := Nat.lt_of_lt_of_le hid hcount
  rw [progression, mem_firstSteps hpos hsize (Nat.le_refl _)]
  constructor
  · rintro ⟨step, -, hnonce⟩
    rw [hnonce, Nat.add_mul_mod_self_right, Nat.mod_eq_of_lt hid]
  · intro hmod
    have hnonce : id + nonce.toNat / count * count = nonce.toNat := by
      rw [← hmod]
      exact Nat.mod_add_div' _ _
    refine ⟨nonce.toNat / count, (lt_stepsOf_iff hpos hsize).mpr ?_,
      hnonce.symm⟩
    rw [hnonce]
    exact nonce.toNat_lt

theorem nodup_firstSteps (hcount : 0 < count) (hid : id < UInt64.size)
    (hsteps : steps ≤ stepsOf count id) :
    (firstSteps count id steps).Nodup := by
  refine List.Nodup.map_on ?_ List.nodup_range
  intro first hfirst second hsecond hsame
  rw [List.mem_range] at hfirst hsecond
  have htoNat := congrArg UInt64.toNat hsame
  rw [toNat_step hcount hid (Nat.lt_of_lt_of_le hfirst hsteps),
    toNat_step hcount hid (Nat.lt_of_lt_of_le hsecond hsteps)] at htoNat
  exact Nat.eq_of_mul_eq_mul_right hcount (Nat.add_left_cancel htoNat)

theorem disjoint_progression (hid : id < count) (hother : other < count)
    (hcount : count ≤ UInt64.size) (hne : id ≠ other) :
    (progression count id).Disjoint (progression count other) := by
  intro nonce hfirst hsecond
  rw [mem_progression hid hcount] at hfirst
  rw [mem_progression hother hcount] at hsecond
  exact hne (hfirst.symm.trans hsecond)

theorem pairwise_disjoint_progression (hcount : count ≤ UInt64.size) :
    (List.range count).Pairwise fun id other =>
      (progression count id).Disjoint (progression count other) := by
  refine List.nodup_range.pairwise_of_forall_ne
    fun id hid other hother hne => ?_
  exact disjoint_progression (List.mem_range.mp hid) (List.mem_range.mp hother)
    hcount hne

theorem mem_progressions (hpos : 0 < count) (hcount : count ≤ UInt64.size)
    (nonce : UInt64) :
    nonce ∈ (List.range count).flatMap (progression count) := by
  have hid : nonce.toNat % count < count := Nat.mod_lt _ hpos
  exact List.mem_flatMap.mpr
    ⟨nonce.toNat % count, List.mem_range.mpr hid,
      (mem_progression hid hcount).mpr rfl⟩

theorem count_progressions (hpos : 0 < count) (hcount : count ≤ UInt64.size)
    (nonce : UInt64) :
    ((List.range count).flatMap (progression count)).count nonce = 1 := by
  refine List.count_eq_one_of_mem ?_ (mem_progressions hpos hcount nonce)
  refine List.nodup_flatMap.mpr ⟨fun id hid => ?_,
    pairwise_disjoint_progression hcount⟩
  have hsize : id < UInt64.size :=
    Nat.lt_of_lt_of_le (List.mem_range.mp hid) hcount
  exact nodup_firstSteps hpos hsize (Nat.le_refl _)

end ObjectRelay.Search
