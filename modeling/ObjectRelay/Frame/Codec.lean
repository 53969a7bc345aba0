import ObjectRelay.Frame.Command
import ObjectRelay.Hash.Digest
import ObjectRelay.Message.Wire

namespace ObjectRelay

/-! Frames carry messages over a stream of bytes: the network's magic, the
command, the length of the payload, the start of its hash, and the payload. -/

inductive FrameError where
  | command (failure : CommandError)
  | payload (failure : MessageError)
  | tooLarge (size : Nat)
  | checksum (expected actual : Bytes)
deriving DecidableEq

namespace Frame

abbrev Magic := Octets 4

def networkMagic : Magic := ⟨[0xE9, 0xBE, 0xB4, 0xD9], rfl⟩

def headerSize : Nat := 24

def largestPayload : Nat := 1600003

end Frame

def FrameError.message : FrameError → String
  | command failure => s!"Invalid command: {failure.message}"
  | payload (.wire failure) => s!"Encoding error: {failure.message}"
  | payload failure => s!"Invalid message: {failure.message}"
  | tooLarge size =>
    s!"Message too large: {size} bytes, max {Frame.largestPayload} bytes"
  | checksum expected actual =>
      s!"Checksum mismatch: expected {expected.hex}, got {actual.hex}"

namespace Frame

def checksum (hasher : Hasher) (payload : Bytes) : Bytes :=
  (hasher.digest payload).bytes.take 4

def encode (hasher : Hasher) (magic : Magic) (message : Message) :
    Except FrameError Bytes := do
  let command ← (Command.write message.command).mapError .command
  let payload ← message.write.mapError .payload
  if largestPayload < payload.length then throw (.tooLarge payload.length)
  else
    return magic.bytes ++ command ++ Bytes.bigEndian 4 payload.length ++
      checksum hasher payload ++ payload

/-- Drops what stands before the magic.  What may be the beginning of one is
kept. -/
def seek (magic : Bytes) : Bytes → Bytes
  | [] => []
  | byte :: rest =>
      if magic.isPrefixOf (byte :: rest) || (byte :: rest).isPrefixOf magic
        then byte :: rest
      else seek magic rest

inductive Decoded where
  | message (message : Message) (rest : Bytes)
  | needMore (rest : Bytes)
  | failed (failure : FrameError) (rest : Bytes)

/-- What a buffer that begins with a header holds.  A frame whose command or
size is refused stays in the buffer; all other failures consume the frame. -/
def judge (hasher : Hasher) (frame : Bytes) : Decoded :=
  match Command.read ((frame.drop 4).take Command.fieldSize) with
  | .error failure => .failed (.command failure) frame
  | .ok command =>
      let length := Bytes.toNat ((frame.drop 16).take 4)
      let expected := (frame.drop 20).take 4
      let body : Bytes := frame.drop headerSize
      if largestPayload < length then .failed (.tooLarge length) frame
      else if body.hasAtLeast length then
        let payload := body.take length
        let rest := body.drop length
        let actual := checksum hasher payload
        if actual = expected then
          match Message.read command payload with
          | .ok message => .message message rest
          | .error failure => .failed (.payload failure) rest
        else .failed (.checksum expected actual) rest
      else .needMore frame

def decode (hasher : Hasher) (magic : Magic) (buffer : Bytes) : Decoded :=
  let frame := seek magic.bytes buffer
  if frame.hasAtLeast headerSize then judge hasher frame else .needMore frame

theorem length_seek_le (magic buffer : Bytes) :
    (seek magic buffer).length ≤ buffer.length := by
  induction buffer with
  | nil => simp [seek]
  | cons byte rest ih =>
      unfold seek
      split
      · exact Nat.le_refl _
      · exact Nat.le_succ_of_le ih

theorem rest_of_judge_message {hasher : Hasher} {frame rest : Bytes}
    {message : Message} (h : judge hasher frame = .message message rest) :
    ∃ length, rest = (frame.drop headerSize).drop length := by
  unfold judge at h
  split at h
  · cases h
  · dsimp only at h
    split at h
    · cases h
    · split at h
      · split at h
        · split at h
          · cases h
            exact ⟨_, rfl⟩
          · cases h
        · cases h
      · cases h

theorem length_rest_of_message {hasher : Hasher} {magic : Magic}
    {buffer rest : Bytes} {message : Message}
    (h : decode hasher magic buffer = .message message rest) :
    rest.length + headerSize ≤ buffer.length := by
  have hseek := length_seek_le magic.bytes buffer
  unfold decode at h
  dsimp only at h
  split at h
  · rename_i hheader
    rw [Bytes.hasAtLeast_iff] at hheader
    obtain ⟨length, hrest⟩ := rest_of_judge_message h
    rw [hrest, List.length_drop, List.length_drop]
    omega
  · cases h

/-- All messages that a buffer holds, up to the first failure. -/
def decodeAll (hasher : Hasher) (magic : Magic) (buffer : Bytes) :
    List Message × Option FrameError × Bytes :=
  match _hdecoded : decode hasher magic buffer with
  | .message message rest =>
      let (messages, failure?, rest) := decodeAll hasher magic rest
      (message :: messages, failure?, rest)
  | .needMore rest => ([], none, rest)
  | .failed failure rest => ([], some failure, rest)
termination_by buffer.length
decreasing_by
  have := length_rest_of_message _hdecoded
  simp only [headerSize] at this
  omega

end Frame

end ObjectRelay
