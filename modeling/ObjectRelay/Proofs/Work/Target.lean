import Mathlib.Algebra.GroupWithZero.Nat
import ObjectRelay.Work.Difficulty

namespace ObjectRelay

/-! The target is an exact fraction, although it is worked out in 128 bits: what
does not fit them leaves no target above zero.  A longer or longer-lived object,
or a higher demand, never gets a higher target. -/

namespace Difficulty

/-- The fraction of all words that a demand leaves. -/
def share (demand : Nat) : UInt64 :=
  if demand = 0 then UInt64.ofNat (UInt64.size - 1)
  else UInt64.ofNat (min (UInt64.size / demand) (UInt64.size - 1))

/-- The demand in numbers without bound. -/
def demand (difficulty : Difficulty) (length : Nat) (lifetime : Int) : Nat :=
  let weight := length + difficulty.extraBytes.toNat
  difficulty.trialsPerByte.toNat *
    (weight + weight * lifetime.toNat / lifetimeScale)

theorem toNat_share (demand : Nat) :
    (share demand).toNat =
      if demand = 0 then UInt64.size - 1
      else min (UInt64.size - 1) (UInt64.size / demand) := by
  have hfits : ∀ value, value ≤ UInt64.size - 1 →
      (UInt64.ofNat value).toNat = value :=
    fun value hvalue =>
      UInt64.toNat_ofNat_of_lt' (Nat.lt_of_le_of_lt hvalue (by decide))
  unfold share
  split
  · exact hfits _ (Nat.le_refl _)
  · rw [hfits _ (Nat.min_le_right _ _), Nat.min_comm]

theorem share_le_share {demand harder : Nat} (h : demand ≤ harder) :
    share harder ≤ share demand := by
  rw [UInt64.le_iff_toNat_le, toNat_share, toNat_share]
  cases demand with
  | zero =>
      rw [if_pos rfl]
      split
      · exact Nat.le_refl _
      · exact Nat.min_le_left _ _
  | succ demand =>
      have hharder : harder ≠ 0 :=
        Nat.ne_of_gt (Nat.lt_of_lt_of_le (Nat.succ_pos demand) h)
      have hquotient : UInt64.size / harder ≤ UInt64.size / (demand + 1) :=
        Nat.div_le_div_left h (Nat.succ_pos demand)
      rw [if_neg hharder, if_neg (Nat.succ_ne_zero demand)]
      omega

theorem demand_le_demand {difficulty harder : Difficulty} {length longer : Nat}
    {lifetime later : Int}
    (htrials : difficulty.trialsPerByte ≤ harder.trialsPerByte)
    (hextra : difficulty.extraBytes ≤ harder.extraBytes)
    (hlength : length ≤ longer) (hlifetime : lifetime ≤ later) :
    difficulty.demand length lifetime ≤ harder.demand longer later := by
  have hweight : length + difficulty.extraBytes.toNat ≤
      longer + harder.extraBytes.toNat :=
    Nat.add_le_add hlength (UInt64.le_iff_toNat_le.mp hextra)
  have hgrown := Nat.mul_le_mul hweight (Int.toNat_le_toNat hlifetime)
  exact Nat.mul_le_mul (UInt64.le_iff_toNat_le.mp htrials)
    (Nat.add_le_add hweight (Nat.div_le_div_right hgrown))

theorem share_of_lt {demand : Nat} (h : UInt64.size < demand) :
    share demand = 0 := by
  rw [share, if_neg (Nat.ne_of_gt (Nat.lt_of_le_of_lt (Nat.zero_le _) h)),
    Nat.div_eq_of_lt h]
  rfl

theorem share_saturate (demand : Nat) :
    share (saturate demand) = share demand := by
  by_cases h : demand < UInt64.size * UInt64.size
  · rw [saturate, Nat.min_eq_left (Nat.le_sub_one_of_lt h)]
  · have hsaturated : UInt64.size < saturate demand := by
      simp only [saturate, UInt64.size] at *
      omega
    have hlarge : UInt64.size < demand :=
      Nat.lt_of_lt_of_le hsaturated (Nat.min_le_left _ _)
    rw [share_of_lt hsaturated, share_of_lt hlarge]

theorem share_mul_of_lt (trials : Nat) {cut exact : Nat}
    (hcut : UInt64.size < cut) (hexact : UInt64.size < exact) :
    share (trials * cut) = share (trials * exact) := by
  cases trials with
  | zero => rw [Nat.zero_mul, Nat.zero_mul]
  | succ trials =>
      have hbeyond : ∀ value, UInt64.size < value →
          share ((trials + 1) * value) = 0 :=
        fun value hvalue => share_of_lt (Nat.lt_of_lt_of_le hvalue
          (Nat.le_mul_of_pos_left value (Nat.succ_pos trials)))
      rw [hbeyond cut hcut, hbeyond exact hexact]

/-- Either nothing is cut, or even one trial a byte is beyond all words. -/
theorem saturate_aged (weight grown : Nat) :
    saturate (weight + saturate grown / lifetimeScale) =
      weight + grown / lifetimeScale ∨
      UInt64.size < saturate (weight + saturate grown / lifetimeScale) ∧
        UInt64.size < weight + grown / lifetimeScale := by
  simp only [saturate, lifetimeScale, UInt64.size]
  omega

theorem target_eq (difficulty : Difficulty) (length : Nat) (lifetime : Int) :
    difficulty.target length lifetime =
      share (difficulty.demand length lifetime) := by
  refine (share_saturate _).trans ?_
  rcases saturate_aged (length + difficulty.extraBytes.toNat)
    ((length + difficulty.extraBytes.toNat) * lifetime.toNat) with
      hexact | ⟨hcut, hlarge⟩
  · rw [hexact]
    rfl
  · exact share_mul_of_lt _ hcut hlarge

theorem target_le_target {difficulty harder : Difficulty} {length longer : Nat}
    {lifetime later : Int}
    (htrials : difficulty.trialsPerByte ≤ harder.trialsPerByte)
    (hextra : difficulty.extraBytes ≤ harder.extraBytes)
    (hlength : length ≤ longer) (hlifetime : lifetime ≤ later) :
    harder.target longer later ≤ difficulty.target length lifetime := by
  rw [target_eq, target_eq]
  exact share_le_share (demand_le_demand htrials hextra hlength hlifetime)

/-- The weight of an object, and what its lifetime makes of it, fit 128 bits. -/
theorem weight_lt (length extraBytes : UInt64) (lifetime : Int64) :
    (length.toNat + extraBytes.toNat) * (1 + lifetime.toInt.toNat) <
      UInt64.size * UInt64.size := by
  have hlength := length.toNat_lt
  have hextra := extraBytes.toNat_lt
  have hlifetime := lifetime.toInt_lt
  calc
    (length.toNat + extraBytes.toNat) * (1 + lifetime.toInt.toNat)
        ≤ (2 * UInt64.size - 2) * (UInt64.size / 2) :=
      Nat.mul_le_mul (by simp only [UInt64.size]; omega)
        (by simp only [UInt64.size]; omega)
    _ < UInt64.size * UInt64.size := by decide

/-- The target is the fraction of all words that the demand leaves, in numbers
without bound.  On the way to it nothing exceeds 128 bits but the demand itself,
whose fraction is zero by then.  And it falls, or stays, when anything that it
depends on rises. -/
theorem target_exact_and_antitone (difficulty : Difficulty) (length : UInt64)
    (lifetime : Int64) :
    let weight := length.toNat + difficulty.extraBytes.toNat
    let grown := weight * lifetime.toInt.toNat
    let demand := difficulty.trialsPerByte.toNat * (weight + grown / 2 ^ 16)
    weight < 2 ^ 128 ∧ grown < 2 ^ 128 ∧ weight + grown / 2 ^ 16 < 2 ^ 128 ∧
    (difficulty.target length.toNat lifetime.toInt).toNat =
      (if demand = 0 then 2 ^ 64 - 1 else min (2 ^ 64 - 1) (2 ^ 64 / demand)) ∧
    ∀ (harder : Difficulty) (longer : UInt64) (later : Int64),
      difficulty.trialsPerByte ≤ harder.trialsPerByte →
      difficulty.extraBytes ≤ harder.extraBytes → length ≤ longer →
      lifetime ≤ later →
      harder.target longer.toNat later.toInt ≤
        difficulty.target length.toNat lifetime.toInt := by
  intro weight grown demand
  have hfits : weight + grown < 2 ^ 128 := by
    have hproduct := weight_lt length difficulty.extraBytes lifetime
    rwa [Nat.mul_add, Nat.mul_one] at hproduct
  have haged : grown / 2 ^ 16 ≤ grown := Nat.div_le_self _ _
  refine ⟨by omega, by omega, by omega, ?_, ?_⟩
  · rw [target_eq, toNat_share]
    rfl
  · intro harder longer later htrials hextra hlength hlater
    exact target_le_target htrials hextra (UInt64.le_iff_toNat_le.mp hlength)
      (Int64.le_iff_toInt_le.mp hlater)

/-- Twice the trials for an object of twice the length that lives for 65536
seconds, and does not just expire. -/
theorem target_antitone_network :
    let harder : Difficulty := ⟨2000, 1000⟩
    network.trialsPerByte ≤ harder.trialsPerByte ∧
      network.extraBytes ≤ harder.extraBytes ∧
      (1000 : UInt64) ≤ 2000 ∧ (-500 : Int64) ≤ 65536 ∧
      harder.target 2000 65536 ≤ network.target 1000 (-500) := by
  refine ⟨by decide, by decide, by decide, by decide, ?_⟩
  exact (target_exact_and_antitone network 1000 (-500)).2.2.2.2 ⟨2000,
    1000⟩ 2000 65536 (by decide) (by decide) (by decide) (by decide)

end Difficulty

end ObjectRelay
