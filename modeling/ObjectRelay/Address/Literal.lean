import ObjectRelay.Address.Socket
import ObjectRelay.Text.Digits

namespace ObjectRelay

namespace Literal

/-- How a number may be written: its radix, its most digits, whether zeros may
lead, and the bound that it stays below. -/
structure NumberForm where
  radix : Nat
  most? : Option Nat
  leadingZeros : Bool
  bound : Nat

namespace NumberForm

def octet : NumberForm := ⟨10, some 3, false, 256⟩

def group : NumberForm := ⟨16, some 4, true, 65536⟩

def port : NumberForm := ⟨10, none, true, 65536⟩

def scope : NumberForm := ⟨10, none, true, 4294967296⟩

def read? (form : NumberForm) (text : List Char) : Option (Nat × List Char) :=
  let digits := text.takeWhile (Text.isDigit form.radix)
  let value := Text.digitsValue form.radix digits
  let count := digits.length
  if count = 0 ∨ form.most?.any (· < count) ∨ form.bound ≤ value ∨
      (form.leadingZeros = false ∧ 1 < count ∧ digits.head? = some '0')
        then none
  else some (value, text.drop count)

end NumberForm

def expect? (wanted : Char) : List Char → Option (List Char)
  | [] => none
  | found :: rest => if found = wanted then some rest else none

/-- The `count` numbers of a dotted address, each after the first behind a
dot. -/
def dotted? : Nat → Bool → List Char → Option (List Nat × List Char)
  | 0, _, text => some ([], text)
  | count + 1, first, text => do
      let text ← if first then some text else expect? '.' text
      let (value, text) ← NumberForm.octet.read? text
      let (values, text) ← dotted? count false text
      return (value :: values, text)

def v4? (text : List Char) : Option (Octets 4 × List Char) := do
  let (values, text) ← dotted? 4 true text
  let octets ← Octets.ofBytes? 4 (values.map UInt8.ofNat)
  return (octets, text)

/-- As many groups of two bytes as are written, at most `slots`.  A dotted
address may stand for the last two; whether one did is told beside the
groups. -/
def groups : Nat → Bool → List Char → List Bytes × Bool × List Char
  | 0, _, text => ([], false, text)
  | slots + 1, first, text =>
      match if first then some text else expect? ':' text with
      | none => ([], false, text)
      | some body =>
          match if 0 < slots then v4? body else none with
          | some (octets, rest) => ([octets.bytes], true, rest)
          | none =>
              match NumberForm.group.read? body with
              | none => ([], false, text)
              | some (value, rest) =>
                  let (values, dotted, rest) := groups slots false rest
                  (Bytes.bigEndian 2 value :: values, dotted, rest)

/-- Two colons stand once for at least one group of zeros. -/
def v6? (text : List Char) : Option (Octets 16 × List Char) :=
  let (groupsBefore, dotted, rest) := groups 8 true text
  let before := groupsBefore.flatten
  match Octets.ofBytes? 16 before with
  | some octets => some (octets, rest)
  | none =>
      if dotted then none
      else do
        let rest ← expect? ':' rest
        let rest ← expect? ':' rest
        let (groupsAfter, _, rest) := groups (7 - before.length / 2) true rest
        let after := groupsAfter.flatten
        let zeros := List.replicate (16 - before.length - after.length) 0
        let octets ← Octets.ofBytes? 16 (before ++ zeros ++ after)
        return (octets, rest)

def port? (text : List Char) : Option (UInt16 × List Char) := do
  let text ← expect? ':' text
  let (port, text) ← NumberForm.port.read? text
  return (UInt16.ofNat port, text)

/-- A scope that is missing or cannot be read is zero, and nothing of it is
read. -/
def scope (text : List Char) : UInt32 × List Char :=
  match expect? '%' text >>= NumberForm.scope.read? with
  | some (scope, rest) => (UInt32.ofNat scope, rest)
  | none => (0, text)

def whole? (read? : List Char → Option (α × List Char)) (text : String) :
    Option α :=
  match read? text.toList with
  | some (value, []) => some value
  | _ => none

end Literal

namespace IpAddress

def read? (text : List Char) : Option (IpAddress × List Char) :=
  match Literal.v4? text with
  | some (octets, rest) => some (.v4 octets, rest)
  | none => (Literal.v6? text).map fun (octets, rest) => (.v6 octets, rest)

def ofText? (text : String) : Option IpAddress :=
  Literal.whole? read? text

def v4Text (octets : Octets 4) : String :=
  ".".intercalate (octets.bytes.map fun byte => toString byte.toNat)

def segments (octets : Octets 16) : List Nat :=
  (List.range 8).map fun index =>
    Bytes.toNat ((octets.bytes.drop (2 * index)).take 2)

def zeroRun (segments : List Nat) (start : Nat) : Nat :=
  ((segments.drop start).takeWhile (· = 0)).length

def segmentsText (segments : List Nat) : String :=
  ":".intercalate
    (segments.map fun segment => String.ofList (Nat.toDigits 16 segment))

/-- The first longest run of at least two zero groups is written as two
colons. -/
def v6Text (octets : Octets 16) : String :=
  match unmapped? octets with
  | some inner => "::ffff:" ++ v4Text inner
  | none =>
      let segments := segments octets
      let starts := List.range segments.length
      let longest := (starts.map (zeroRun segments)).foldl max 0
      match starts.find? (zeroRun segments · = longest) with
      | some start =>
          if longest < 2 then segmentsText segments
          else segmentsText (segments.take start) ++ "::" ++
            segmentsText (segments.drop (start + longest))
      | none => segmentsText segments

def text : IpAddress → String
  | v4 octets => v4Text octets
  | v6 octets => v6Text octets

end IpAddress

namespace SocketAddress

def readV4? (text : List Char) : Option (SocketAddress × List Char) := do
  let (octets, text) ← Literal.v4? text
  let (port, text) ← Literal.port? text
  return (.v4 octets port, text)

def readV6? (text : List Char) : Option (SocketAddress × List Char) := do
  let text ← Literal.expect? '[' text
  let (octets, text) ← Literal.v6? text
  let (scope, text) := Literal.scope text
  let text ← Literal.expect? ']' text
  let (port, text) ← Literal.port? text
  return (.v6 octets port scope, text)

def read? (text : List Char) : Option (SocketAddress × List Char) :=
  (readV4? text).or (readV6? text)

def ofText? (text : String) : Option SocketAddress :=
  Literal.whole? read? text

def text : SocketAddress → String
  | v4 octets port => s!"{IpAddress.v4Text octets}:{port.toNat}"
  | v6 octets port scope =>
      if scope = 0 then s!"[{IpAddress.v6Text octets}]:{port.toNat}"
      else s!"[{IpAddress.v6Text octets}%{scope.toNat}]:{port.toNat}"

end SocketAddress

end ObjectRelay
