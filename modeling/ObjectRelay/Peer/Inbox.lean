import ObjectRelay.Connection.Basic

namespace ObjectRelay

inductive PeerCommand where
  | offer (vector : InventoryVector)
  | reassign (vectors : List InventoryVector)
  | disconnect (reason : DisconnectReason)
deriving DecidableEq

structure Inbox where
  capacity : Nat := 256
  commands : List PeerCommand := []
  isOpen : Bool := true

namespace Inbox

def accepts (inbox : Inbox) : Bool :=
  inbox.isOpen && inbox.commands.length < inbox.capacity

/-- A command that finds no room is dropped. -/
def push (inbox : Inbox) (command : PeerCommand) : Inbox :=
  if inbox.accepts then { inbox with commands := inbox.commands ++ [command] }
  else inbox

def pop (inbox : Inbox) : Option PeerCommand × Inbox :=
  match inbox.commands with
  | [] => (none, inbox)
  | command :: rest => (some command, { inbox with commands := rest })

def close (inbox : Inbox) : Inbox :=
  { inbox with commands := [], isOpen := false }

end Inbox

end ObjectRelay
