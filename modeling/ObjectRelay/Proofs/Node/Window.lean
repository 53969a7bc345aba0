import Mathlib.Data.Int.LeastGreatest
import ObjectRelay.Proofs.Hub.Refetch
import ObjectRelay.Proofs.Node.Acceptance
import ObjectRelay.Proofs.Work.Target

namespace ObjectRelay

/-! When a node approves of an object.  Work that was enough stays enough, as
the target rises while the lifetime runs out; so an object that is approved
stays so until its grace is over. -/

namespace Object

variable {object : Object} {now later : Int64}

theorem checkWork_eq_ok_iff {hasher : Hasher} {difficulty : Difficulty} :
    object.checkWork hasher difficulty now = .ok () ↔
      ∃ nonce, object.nonce? = some nonce ∧
        trialValue hasher (UInt64.ofNat nonce.toNat)
          (object.initialHash hasher) ≤ difficulty.objectTarget object now := by
  unfold checkWork
  cases object.nonce? with
  | none => simp
  | some nonce =>
      dsimp only
      split
      · rename_i hmeets
        exact iff_of_true rfl ⟨nonce, rfl, hmeets⟩
      · rename_i hfails
        apply iff_of_false
        · intro hok
          cases hok
        · intro hmeets
          obtain ⟨_, hsame, hvalue⟩ := hmeets
          cases hsame
          exact hfails hvalue

theorem lifetime_le_lifetime (object : Object) (h : now ≤ later) :
    object.lifetime later ≤ object.lifetime now :=
  Int.sub_le_sub_left (Int64.le_iff_toInt_le.mp h) _

theorem objectTarget_le_objectTarget (difficulty : Difficulty) (object : Object)
    (h : now ≤ later) :
    difficulty.objectTarget object now ≤ difficulty.objectTarget object later :=
  Difficulty.target_le_target UInt64.le_rfl UInt64.le_rfl (Nat.le_refl _)
    (object.lifetime_le_lifetime h)

theorem checkWork_later {hasher : Hasher} {difficulty : Difficulty}
    (hlater : now ≤ later)
    (h : object.checkWork hasher difficulty now = .ok ()) :
    object.checkWork hasher difficulty later = .ok () := by
  obtain ⟨nonce, hnonce, hvalue⟩ := checkWork_eq_ok_iff.mp h
  refine checkWork_eq_ok_iff.mpr ⟨nonce, hnonce, ?_⟩
  exact UInt64.le_trans hvalue
    (objectTarget_le_objectTarget difficulty object hlater)

end Object

namespace Node

variable {node : Node} {object : Object} {now later : Int64}

theorem Approves.le_end (h : node.Approves now object) :
    now.toInt ≤ object.expires.toInt + Object.expiryGrace := by
  have hlifetime := (Object.expiryViolation?_eq_none_iff.mp h.expiry).1
  rw [Object.lifetime] at hlifetime
  omega

theorem Approves.of_le (h : node.Approves now object) (hlater : now ≤ later)
    (hend : later.toInt ≤ object.expires.toInt + Object.expiryGrace) :
    node.Approves later object where
  expiry := by
    have hlongest := (Object.expiryViolation?_eq_none_iff.mp h.expiry).2
    have hshorter := object.lifetime_le_lifetime hlater
    refine Object.expiryViolation?_eq_none_iff.mpr ⟨?_,
      Int.le_trans hshorter hlongest⟩
    rw [Object.lifetime]
    omega
  work := Object.checkWork_later hlater h.work

theorem exists_earliest_approved (hever : ∃ now, node.Approves now object) :
    ∃ earliest, node.Approves earliest object ∧
      ∀ now, node.Approves now object → earliest ≤ now := by
  obtain ⟨now, happroves⟩ := hever
  have hbounded : ∃ least, ∀ instant,
      (∃ now : Int64, node.Approves now object ∧ now.toInt = instant) →
      least ≤ instant := by
    refine ⟨Int64.minValue.toInt, ?_⟩
    intro instant happroved
    obtain ⟨other, -, rfl⟩ := happroved
    exact Int64.le_iff_toInt_le.mp other.minValue_le
  obtain ⟨_, ⟨earliest, hearliest, rfl⟩, hleast⟩ :=
    Int.exists_least_of_bdd hbounded ⟨now.toInt, now, happroves, rfl⟩
  refine ⟨earliest, hearliest, ?_⟩
  intro other hother
  exact Int64.le_iff_toInt_le.mpr (hleast _ ⟨other, hother, rfl⟩)

theorem exists_first_approved (node : Node) (object : Object) :
    ∃ first : Int, ∀ now : Int64, node.Approves now object ↔
      first ≤ now.toInt ∧
      now.toInt ≤ object.expires.toInt + Object.expiryGrace := by
  by_cases hever : ∃ now, node.Approves now object
  · obtain ⟨earliest, hearliest, hleast⟩ := exists_earliest_approved hever
    refine ⟨earliest.toInt, ?_⟩
    intro now
    constructor
    · intro happroves
      exact ⟨Int64.le_iff_toInt_le.mp (hleast now happroves), happroves.le_end⟩
    · intro hbetween
      exact hearliest.of_le (Int64.le_iff_toInt_le.mpr hbetween.1) hbetween.2
  · refine ⟨object.expires.toInt + Object.expiryGrace + 1, ?_⟩
    intro now
    apply iff_of_false
    · exact fun happroves => hever ⟨now, happroves⟩
    · omega

/-- An object that a node approves of stays approved until its grace is over,
and no longer: the clocks that it is approved at are all those from some first
one to the end of its grace.  And work that was enough once is enough at every
later clock. -/
theorem approved_until_end (node : Node) (object : Object) :
    (∀ now later, now ≤ later → node.Approves now object →
      (node.Approves later object ↔
        later.toInt ≤ object.expires.toInt + Object.expiryGrace)) ∧
    (∃ first : Int, ∀ now : Int64, node.Approves now object ↔
      first ≤ now.toInt ∧
      now.toInt ≤ object.expires.toInt + Object.expiryGrace) ∧
    ∀ now later, now ≤ later → node.engine.checkWork object now = .ok () →
      node.engine.checkWork object later = .ok () := by
  refine ⟨?_, exists_first_approved node object, ?_⟩
  · intro now later hlater happroves
    constructor
    · exact Approves.le_end
    · exact happroves.of_le hlater
  · intro now later hlater hwork
    exact Object.checkWork_later hlater hwork

/-- An object that expires at zero, when it expires and when its grace is
over. -/
theorem plainObject_approved_until_end :
    Hub.plainNode.Approves 0 Hub.plainObject ∧ (0 : Int64) ≤ 10800 ∧
      Hub.plainNode.Approves 10800 Hub.plainObject ∧
      ¬ Hub.plainNode.Approves 10801 Hub.plainObject := by
  have happroves : Hub.plainNode.Approves 0 Hub.plainObject := ⟨rfl, rfl⟩
  have hlater := (approved_until_end Hub.plainNode Hub.plainObject).1 0
  refine ⟨happroves, by decide, ?_, ?_⟩
  · exact (hlater 10800 (by decide) happroves).mpr (by decide)
  · exact fun hlate =>
      absurd ((hlater 10801 (by decide) happroves).mp hlate) (by decide)

end Node

end ObjectRelay
