import ObjectRelay.Object.Expiry

namespace ObjectRelay

structure Difficulty where
  trialsPerByte : UInt64
  extraBytes : UInt64
deriving DecidableEq

namespace Difficulty

def networkTrialsPerByte : UInt64 := 1000

def networkExtraBytes : UInt64 := 1000

/-- No demand falls below its floor, and at least one trial is asked for. -/
def withFloors (trialsPerByte extraBytes leastTrials leastExtra : UInt64) :
    Difficulty :=
  ⟨max (max trialsPerByte leastTrials) 1, max extraBytes leastExtra⟩

def ofDemands (trialsPerByte extraBytes : UInt64) : Difficulty :=
  withFloors trialsPerByte extraBytes networkTrialsPerByte networkExtraBytes

def network : Difficulty :=
  ofDemands networkTrialsPerByte networkExtraBytes

def lifetimeScale : Nat := 65536

/-- The target is worked out in 128 bits, and a larger value counts as the
largest. -/
def saturate (value : Nat) : Nat :=
  min value (UInt64.size * UInt64.size - 1)

def target (difficulty : Difficulty) (length : Nat) (lifetime : Int) : UInt64 :=
  let weight := length + difficulty.extraBytes.toNat
  let aged := saturate (weight * lifetime.toNat) / lifetimeScale
  let demand :=
    saturate (difficulty.trialsPerByte.toNat * saturate (weight + aged))
  if demand = 0 then UInt64.ofNat (UInt64.size - 1)
  else UInt64.ofNat (min (UInt64.size / demand) (UInt64.size - 1))

def objectTarget (difficulty : Difficulty) (object : Object) (now : Int64) :
    UInt64 :=
  difficulty.target object.bodyLength (object.lifetime now)

end Difficulty

end ObjectRelay
