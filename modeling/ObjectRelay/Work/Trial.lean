import ObjectRelay.Work.Difficulty

namespace ObjectRelay

inductive WorkError where
  | noWorkers
  | cancelled
  | exhausted
  | missingNonce
  | insufficient (value target : UInt64)
deriving DecidableEq

namespace WorkError

def wordText (word : UInt64) : String :=
  "0x" ++ Bytes.hex (Bytes.bigEndian 8 word.toNat)

def message : WorkError → String
  | noWorkers => "No compute units available for proof-of-work"
  | cancelled => "Proof-of-work search cancelled"
  | exhausted => "Nonce space exhausted"
  | missingNonce => "Object has no nonce"
  | insufficient value target =>
      s!"Insufficient proof-of-work: trial value {wordText value} exceeds target {wordText target}"

end WorkError

def trialValue (hasher : Hasher) (nonce : UInt64) (initialHash : Digest) :
    UInt64 :=
  let trial :=
    hasher.doubleDigest (Bytes.bigEndian 8 nonce.toNat ++ initialHash.bytes)
  UInt64.ofNat (Bytes.toNat (trial.bytes.take 8))

def meetsTarget (hasher : Hasher) (nonce : UInt64) (initialHash : Digest)
    (target : UInt64) : Bool :=
  trialValue hasher nonce initialHash ≤ target

namespace Object

def checkWork (hasher : Hasher) (difficulty : Difficulty) (object : Object)
    (now : Int64) : Except WorkError Unit :=
  match object.nonce? with
  | none => .error .missingNonce
  | some nonce =>
      let target := difficulty.objectTarget object now
      let value :=
        trialValue hasher (UInt64.ofNat nonce.toNat) (object.initialHash hasher)
      if value ≤ target then .ok () else .error (.insufficient value target)

end Object

end ObjectRelay
