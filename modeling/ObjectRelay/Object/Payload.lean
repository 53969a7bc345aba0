import ObjectRelay.Bytes.Octets

namespace ObjectRelay

inductive ObjectKind where
  | keyRequest
  | key
  | letter
  | broadcast
deriving DecidableEq

def ObjectKind.ofNumber? (number : UInt32) : Option ObjectKind :=
  if number = 0 then some .keyRequest
  else if number = 1 then some .key
  else if number = 2 then some .letter
  else if number = 3 then some .broadcast
  else none

inductive Payload where
  | requestByHash (hash : Octets 20)
  | requestByTag (tag : Octets 32)
  | key (tag : Octets 32) (sealed : Bytes)
  | letter (sealed : Bytes)
  | broadcast (tag? : Option (Octets 32)) (sealed : Bytes)
  | unknown (bytes : Bytes)
deriving DecidableEq

namespace Payload

def bytes : Payload → Bytes
  | requestByHash hash => hash.bytes
  | requestByTag tag => tag.bytes
  | key tag sealed => tag.bytes ++ sealed
  | letter sealed => sealed
  | broadcast none sealed => sealed
  | broadcast (some tag) sealed => tag.bytes ++ sealed
  | unknown bytes => bytes

def length : Payload → Nat
  | requestByHash _ => 20
  | requestByTag _ => 32
  | key _ sealed => 32 + sealed.length
  | letter sealed => sealed.length
  | broadcast none sealed => sealed.length
  | broadcast (some _) sealed => 32 + sealed.length
  | unknown bytes => bytes.length

@[simp] theorem length_bytes (payload : Payload) :
    payload.bytes.length = payload.length := by
  cases payload with
  | requestByHash hash => exact hash.length_bytes
  | requestByTag tag => exact tag.length_bytes
  | key tag sealed => simp [bytes, length, tag.length_bytes]
  | letter sealed => rfl
  | broadcast tag? sealed =>
      cases tag? with
      | none => rfl
      | some tag => simp [bytes, length, tag.length_bytes]
  | unknown bytes => rfl

def ofTagged? (build : Octets 32 → Bytes → Payload) (data : Bytes) :
    Option Payload :=
  (Octets.ofBytes? 32 (data.take 32)).map fun tag => build tag (data.drop 32)

def understand? (kind : ObjectKind) (version : UInt64) (data : Bytes) :
    Option Payload :=
  match kind with
  | .keyRequest =>
      if version = 2 ∨
        version = 3 then (Octets.ofBytes? 20 data).map requestByHash
      else if version = 4 then (Octets.ofBytes? 32 data).map requestByTag
      else none
  | .key => if version = 4 then ofTagged? key data else none
  | .letter => if version = 1 then some (letter data) else none
  | .broadcast =>
      if version = 4 then some (broadcast none data)
      else if version = 5 then ofTagged? (broadcast ∘ some) data
      else none

def ofBytes (type : UInt32) (version : UInt64) (data : Bytes) : Payload :=
  ((ObjectKind.ofNumber? type).bind fun kind =>
    understand? kind version data).getD (unknown data)

end Payload

end ObjectRelay
