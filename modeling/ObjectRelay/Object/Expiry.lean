import ObjectRelay.Object.Envelope

namespace ObjectRelay

/-! When an object may be accepted: from its longest lifetime before the
expiration to a grace period after it.  Times are seconds of Unix time. -/

inductive ExpiryViolation where
  | expired (secondsAgo : Int)
  | tooFarInFuture (lifetime : Int)
deriving DecidableEq

def ExpiryViolation.message : ExpiryViolation → String
  | expired secondsAgo => s!"expired {secondsAgo}s ago"
  | tooFarInFuture lifetime => s!"ttl of {lifetime}s exceeds maximum"

namespace Object

def longestLifetime : Int := 28 * 24 * 60 * 60 + 3 * 60 * 60

def expiryGrace : Int := 3 * 60 * 60

/-- The seconds left until the expiration, as an integer.  The difference of the
64-bit words is the same unless the two are 2^63 seconds or more apart. -/
def lifetime (object : Object) (now : Int64) : Int :=
  object.expires.toInt - now.toInt

def expiryViolation? (object : Object) (now : Int64) : Option ExpiryViolation :=
  let lifetime := object.lifetime now
  if longestLifetime < lifetime then some (.tooFarInFuture lifetime)
  else if lifetime < -expiryGrace then some (.expired (-lifetime))
  else none

theorem expiryViolation?_eq_none_iff {object : Object} {now : Int64} :
    object.expiryViolation? now = none ↔
      -expiryGrace ≤ object.lifetime now ∧
      object.lifetime now ≤ longestLifetime := by
  unfold expiryViolation?
  dsimp only
  split
  · simp only [reduceCtorEq, false_iff]
    omega
  · split
    · simp only [reduceCtorEq, false_iff]
      omega
    · simp only [true_iff]
      omega

/-- The difference of the words lets the same objects pass at every clock that
is neither before 1970 nor within the longest lifetime of the last.  Where it
wraps, the object has long expired, and the difference is beyond every
lifetime. -/
theorem expiryViolation?_eq_none_iff_words {object : Object} {now : Int64}
    (hnow : 0 ≤ now.toInt)
    (hlast : now.toInt + longestLifetime ≤ Int64.maxValue.toInt) :
    object.expiryViolation? now = none ↔
      -expiryGrace ≤ (object.expires - now).toInt ∧
        (object.expires - now).toInt ≤ longestLifetime := by
  have hupper := object.expires.toInt_lt
  have hlower := object.expires.le_toInt
  rw [longestLifetime, Int64.toInt_maxValue] at hlast
  rw [expiryViolation?_eq_none_iff, Int64.toInt_sub, Int.bmod_def, lifetime,
    longestLifetime, expiryGrace]
  split <;> omega

end Object

end ObjectRelay
