import ObjectRelay.Address.Literal

namespace ObjectRelay

/-- Whoever knows the addresses that names stand for. -/
structure Resolver where
  lookUp : List Char → UInt16 → List SocketAddress
  /-- Names hold no colons, which part hosts from ports. -/
  lookUp_of_colon :
    ∀ {name : List Char}, ':' ∈ name → ∀ port, lookUp name port = []

/-- Knows no names. -/
def Resolver.none : Resolver where
  lookUp _ _ := []
  lookUp_of_colon _ _ := rfl

namespace Host

def defaultPort : UInt16 := 8444

/-- Whose addresses a node that knows no peers may begin with. -/
def seeds : List String :=
  ["bootstrap8444.bitmessage.org:8444", "bootstrap8080.bitmessage.org:8080"]

/-- Hexadecimal after `0x`, octal after `0`, otherwise decimal. -/
def number? (text : List Char) : Option (Nat × List Char) :=
  match text with
  | '0' :: 'x' :: rest =>
      (Literal.NumberForm.mk 16 none true UInt32.size).read? rest
  | '0' :: 'X' :: rest =>
      (Literal.NumberForm.mk 16 none true UInt32.size).read? rest
  | '0' :: _ => (Literal.NumberForm.mk 8 none true UInt32.size).read? text
  | _ => (Literal.NumberForm.mk 10 none true UInt32.size).read? text

/-- Up to four numbers with dots between them.  The last one fills all the bytes
that the others leave. -/
def loose? : Nat → List Char → Option Bytes
  | 0, _ => none
  | slots + 1, text =>
      match number? text with
      | some (value, []) =>
          if value < Nat.pow 256 (slots + 1)
            then some (Bytes.bigEndian (slots + 1) value) else none
      | some (value, '.' :: rest) =>
          if value < 256 then (loose? slots rest).map (UInt8.ofNat value :: ·)
          else none
      | _ => none

def v6? (text : List Char) (port : UInt16) : Option SocketAddress :=
  match Literal.v6? text with
  | some (octets, rest) =>
      match Literal.scope rest with
      | (scope, []) => some (.v6 octets port scope)
      | _ => none
  | none => none

/-- Addresses in digits need no looking up. -/
def numeric? (host : List Char) (port : UInt16) : Option SocketAddress :=
  match (loose? 4 host).bind (Octets.ofBytes? 4) with
  | some octets => some (.v4 octets port)
  | none => v6? host port

def withPort (resolver : Resolver) (host : List Char) (port : UInt16) :
    List SocketAddress :=
  match numeric? host port with
  | some address => [address]
  | none => resolver.lookUp host port

def port? (text : List Char) : Option UInt16 :=
  let digits := match text with
    | '+' :: rest => rest
    | _ => text
  match Literal.NumberForm.port.read? digits with
  | some (port, []) => some (UInt16.ofNat port)
  | _ => none

def splitPort? (text : List Char) : Option (List Char × List Char) :=
  let reversed := text.reverse
  match reversed.dropWhile (· ≠ ':') with
  | _ :: host => some (host.reverse, (reversed.takeWhile (· ≠ ':')).reverse)
  | [] => none

def resolve (resolver : Resolver) (text : String) : List SocketAddress :=
  match SocketAddress.ofText? text with
  | some address => [address]
  | none =>
      match splitPort? text.toList with
      | some (host, digits) =>
          (port? digits).elim [] (withPort resolver host)
      | none => []

/-- A host without a port listens on the default one.  Of several addresses the
first is taken. -/
def peer? (resolver : Resolver) (text : String) : Option SocketAddress :=
  if text.toList.contains ':' then (resolve resolver text).head?
  else (withPort resolver text.toList defaultPort).head?

def discover (resolver : Resolver) (seeds : List String) : List SocketAddress :=
  let found := (seeds.flatMap (resolve resolver)).mergeSort fun left right =>
    left.rank ≤ right.rank
  found.foldr
    (fun address found =>
      if found.head? = some address then found else address :: found) []

end Host

end ObjectRelay
