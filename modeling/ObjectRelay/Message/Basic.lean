import ObjectRelay.Address.Record
import ObjectRelay.Object.Envelope
import ObjectRelay.Text.Utf8

namespace ObjectRelay

structure Greeting where
  version : Int32
  services : UInt64
  timestamp : Int64
  recipient : PeerRecord
  sender : PeerRecord
  nonce : UInt64
  userAgent : String
  streams : List UInt64
deriving DecidableEq

/-- A request from outside the network, or the answer to one. -/
structure CustomMessage where
  command : String
  data : Bytes
deriving DecidableEq

namespace CustomMessage

def errorCommand : String := "ERROR"

def ofError (text : String) : CustomMessage :=
  ⟨errorCommand, Utf8.encode text⟩

def isError (message : CustomMessage) : Bool :=
  message.command = errorCommand

end CustomMessage

inductive Message where
  | version (greeting : Greeting)
  | verack
  | addr (records : List PeerRecord)
  | inv (vectors : List InventoryVector)
  | getdata (vectors : List InventoryVector)
  | object (object : Object)
  | custom (message : CustomMessage)
  | unknown (command : String) (payload : Bytes)
deriving DecidableEq

namespace Message

def command : Message → String
  | version _ => "version"
  | verack => "verack"
  | addr _ => "addr"
  | inv _ => "inv"
  | getdata _ => "getdata"
  | object _ => "object"
  | custom _ => "custom"
  | unknown command _ => command

def summary : Message → String
  | addr records => s!"addr({records.length})"
  | inv vectors => s!"inv({vectors.length})"
  | getdata vectors => s!"getdata({vectors.length})"
  | custom message => s!"custom({message.command})"
  | message => message.command

def mostAddresses : Nat := 1000

def mostVectors : Nat := 50000

def announce : List InventoryVector → List Message
  | [] => []
  | vector :: rest =>
      inv (vector :: rest.take (mostVectors - 1)) ::
        announce (rest.drop (mostVectors - 1))
termination_by vectors => vectors.length
decreasing_by
  simp only [List.length_drop, List.length_cons]
  omega

end Message

end ObjectRelay
