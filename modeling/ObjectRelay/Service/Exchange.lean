import ObjectRelay.Service.Basic

namespace ObjectRelay

namespace SessionOutcome

/-- A stream of bytes that could not be opened. -/
def unreached (text : String) : SessionOutcome :=
  { reason := .io text }

/-- How many objects a synchronization brought.  One that broke off is still a
success. -/
def synchronized (outcome : SessionOutcome) (peer : SocketAddress) :
    Except ServiceError Nat :=
  if outcome.isActivated then .ok outcome.received
  else .error (.connectionFailed peer.text outcome.reason.message)

end SessionOutcome

/-- What came back from a peer that was sent a custom request. -/
inductive Reply where
  | unreached (text : String)
  | ended (bytes : Bytes)
  | pending (bytes : Bytes)

namespace Reply

/-- The first custom message; all others are passed over. -/
def custom? : List Message → Option CustomMessage
  | [] => none
  | .custom response :: _ => some response
  | _ :: rest => custom? rest

def read (hasher : Hasher) (magic : Frame.Magic) (bytes : Bytes)
    (silence : Bytes → ServiceError) : Except ServiceError CustomMessage :=
  let (messages, failure?, unread) := Frame.decodeAll hasher magic bytes
  match custom? messages, failure? with
  | some response, _ => .ok response
  | none, some failure => .error (.frame failure)
  | none, none => .error (silence unread)

def response (reply : Reply) (hasher : Hasher) (magic : Frame.Magic)
    (peer : SocketAddress) (request : CustomMessage) :
    Except ServiceError CustomMessage :=
  match reply with
  | .unreached text => .error (.connectionFailed peer.text text)
  | .ended bytes => do
      let _ ← (Frame.encode hasher magic (.custom request)).mapError
        ServiceError.frame
      read hasher magic bytes fun unread =>
        if unread.isEmpty then .connectionClosed else .io Session.leftover
  | .pending bytes => do
      let _ ← (Frame.encode hasher magic (.custom request)).mapError
        ServiceError.frame
      read hasher magic bytes fun _ =>
        .timeout s!"custom request to {peer.text}"

end Reply

end ObjectRelay
