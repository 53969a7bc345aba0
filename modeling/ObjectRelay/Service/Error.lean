import ObjectRelay.Frame.Codec
import ObjectRelay.Object.Expiry
import ObjectRelay.Work.Trial

namespace ObjectRelay

inductive ServiceError where
  | connectionFailed (peer reason : String)
  | connectionClosed
  | timeout (activity : String)
  | alreadyRunning
  | io (text : String)
  | notServed (stream : UInt64)
  | untimely (violation : ExpiryViolation)
  | wire (failure : WireError)
  | frame (failure : FrameError)
  | work (failure : WorkError)
deriving DecidableEq

def ServiceError.message : ServiceError → String
  | connectionFailed peer reason => s!"Connection failed: {peer}: {reason}"
  | connectionClosed => "Connection closed"
  | timeout activity => s!"Timeout: {activity}"
  | alreadyRunning => "Network service already running"
  | io text => s!"I/O error: {text}"
  | notServed stream => s!"Invalid message: stream {stream.toNat} is not served"
  | untimely violation => s!"Invalid message: {violation.message}"
  | wire failure => s!"Encoding error: {failure.message}"
  | frame failure => failure.message
  | work failure => s!"Proof-of-work error: {failure.message}"

end ObjectRelay
