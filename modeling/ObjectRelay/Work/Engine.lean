import ObjectRelay.Shuffle
import ObjectRelay.Work.Search
import Std.Data.HashMap

namespace ObjectRelay

structure WorkEngine where
  hasher : Hasher
  difficulty : Difficulty
  nonces : Std.HashMap Digest UInt64 := ∅

namespace WorkEngine

def mostNonces : Nat := 1024

def checkWork (engine : WorkEngine) (object : Object) (now : Int64) :
    Except WorkError Unit :=
  object.checkWork engine.hasher engine.difficulty now

/-- A remembered nonce serves only while it meets the present target. -/
def remembered? (engine : WorkEngine) (initialHash : Digest) (target : UInt64) :
    Option UInt64 :=
  (engine.nonces[initialHash]?).filter
    (meetsTarget engine.hasher · initialHash target)

/-- When the memory is full, any one entry makes room. -/
def remember (engine : WorkEngine) (shuffle : Shuffle) (initialHash : Digest)
    (nonce : UInt64) : WorkEngine :=
  let kept :=
    if mostNonces ≤ engine.nonces.size then
      match (shuffle.order engine.nonces.keys).head? with
      | some victim => engine.nonces.erase victim
      | none => engine.nonces
    else engine.nonces
  { engine with nonces := kept.insert initialHash nonce }

def work (engine : WorkEngine) (shuffle : Shuffle)
    (search : Digest → UInt64 → Except WorkError UInt64) (now : Int64)
    (object : Object) : Except WorkError Object × WorkEngine :=
  let initialHash := object.initialHash engine.hasher
  let target := engine.difficulty.objectTarget object now
  match engine.remembered? initialHash target with
  | some nonce => (.ok (object.withNonce (.ofNat 8 nonce.toNat)), engine)
  | none =>
      match search initialHash target with
      | .error failure => (.error failure, engine)
      | .ok nonce =>
          (.ok (object.withNonce (.ofNat 8 nonce.toNat)),
            engine.remember shuffle initialHash nonce)

def forget (engine : WorkEngine) (object : Object) : WorkEngine :=
  { engine with
    nonces := engine.nonces.erase (object.initialHash engine.hasher) }

def clear (engine : WorkEngine) : WorkEngine :=
  { engine with nonces := ∅ }

end WorkEngine

end ObjectRelay
