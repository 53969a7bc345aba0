import ObjectRelay.Hash.Sha512
import ObjectRelay.Proofs.Frame.Resync

namespace ObjectRelay

/-! A stream arrives in chunks.  Where it is cut makes no difference to what is
read from it: all that was said of one call of the decoder is lifted to its
loop, and from there to a list of chunks. -/

namespace Frame

variable {hasher : Hasher} {magic : Magic} {buffer rest : Bytes}

theorem decodeAll_of_message {message : Message}
    (h : decode hasher magic buffer = .message message rest) :
    decodeAll hasher magic buffer =
      (message :: (decodeAll hasher magic rest).1,
        (decodeAll hasher magic rest).2) := by
  rw [decodeAll]
  split
  · rename_i hdecoded
    rw [h] at hdecoded
    cases hdecoded
    rfl
  · rename_i hdecoded
    rw [h] at hdecoded
    cases hdecoded
  · rename_i hdecoded
    rw [h] at hdecoded
    cases hdecoded

theorem decodeAll_of_needMore
    (h : decode hasher magic buffer = .needMore rest) :
    decodeAll hasher magic buffer = ([], none, rest) := by
  rw [decodeAll]
  split <;> simp_all

theorem decodeAll_of_failed {failure : FrameError}
    (h : decode hasher magic buffer = .failed failure rest) :
    decodeAll hasher magic buffer = ([], some failure, rest) := by
  rw [decodeAll]
  split <;> simp_all

theorem decodeAll_eq_of_decode_eq {left right : Bytes}
    (h : decode hasher magic left = decode hasher magic right) :
    decodeAll hasher magic left = decodeAll hasher magic right := by
  cases hright : decode hasher magic right with
  | message message rest =>
      rw [decodeAll_of_message hright, decodeAll_of_message (h.trans hright)]
  | needMore rest =>
      rw [decodeAll_of_needMore hright, decodeAll_of_needMore (h.trans hright)]
  | failed failure rest =>
      rw [decodeAll_of_failed hright, decodeAll_of_failed (h.trans hright)]

/-- The loop over a longer buffer goes on where the loop over the shorter one
ended. -/
theorem decodeAll_append (hasher : Hasher) (magic : Magic)
    (buffer more : Bytes) :
    decodeAll hasher magic (buffer ++ more) =
      match decodeAll hasher magic buffer with
      | (messages, some failure, rest) => (messages, some failure, rest ++ more)
      | (messages, none, rest) =>
          (messages ++ (decodeAll hasher magic (rest ++ more)).1,
            (decodeAll hasher magic (rest ++ more)).2) := by
  induction buffer using decodeAll.induct hasher magic with
  | case1 buffer message rest hdecoded messages failure? unread hrest ih =>
      have hlonger := decode_append hasher magic buffer more
      rw [hdecoded] at hlonger
      rw [decodeAll_of_message hdecoded, decodeAll_of_message hlonger,
        ih, hrest]
      cases failure? with
      | none => rfl
      | some failure => rfl
  | case2 buffer rest hdecoded =>
      have hlonger := decode_append hasher magic buffer more
      rw [hdecoded] at hlonger
      rw [decodeAll_of_needMore hdecoded, decodeAll_eq_of_decode_eq hlonger]
      rfl
  | case3 buffer failure rest hdecoded =>
      have hlonger := decode_append hasher magic buffer more
      rw [hdecoded] at hlonger
      rw [decodeAll_of_failed hdecoded, decodeAll_of_failed hlonger]

/-- What a stream has yielded so far. -/
structure Reception where
  messages : List Message := []
  failure? : Option FrameError := none
  unread : Bytes := []

namespace Reception

/-- One more chunk.  After a failure nothing more is read. -/
def feed (hasher : Hasher) (magic : Magic) (reception : Reception)
    (chunk : Bytes) : Reception :=
  match reception.failure? with
  | some _ => reception
  | none =>
      let (messages, failure?, unread) :=
        decodeAll hasher magic (reception.unread ++ chunk)
      ⟨reception.messages ++ messages, failure?, unread⟩

def ofChunks (hasher : Hasher) (magic : Magic) (chunks : List Bytes) :
    Reception :=
  chunks.foldl (feed hasher magic) {}

/-- The reception is what the bytes yield when they come at once.  What a
failure leaves unread is out of account. -/
structure Yields (hasher : Hasher) (magic : Magic) (reception : Reception)
    (bytes : Bytes) : Prop where
  messages : reception.messages = (decodeAll hasher magic bytes).1
  failure? : reception.failure? = (decodeAll hasher magic bytes).2.1
  unread : reception.failure? = none →
    reception.unread = (decodeAll hasher magic bytes).2.2

theorem yields_empty (hasher : Hasher) (magic : Magic) :
    Yields hasher magic {} [] := by
  have hempty : decodeAll hasher magic [] = ([], none, []) :=
    decodeAll_of_needMore rfl
  refine ⟨?_, ?_, fun _ => ?_⟩ <;> rw [hempty]

theorem Yields.feed {reception : Reception} {bytes : Bytes}
    (h : Yields hasher magic reception bytes) (chunk : Bytes) :
    Yields hasher magic (reception.feed hasher magic chunk)
      (bytes ++ chunk) := by
  obtain ⟨messages, failure?, unread⟩ := reception
  obtain ⟨hmessages, hfailure, hunread⟩ := h
  have hlonger := decodeAll_append hasher magic bytes chunk
  cases hbytes : decodeAll hasher magic bytes with
  | mk before ended =>
      obtain ⟨ended?, left⟩ := ended
      rw [hbytes] at hlonger hmessages hfailure hunread
      dsimp only at hmessages hfailure hunread
      subst hmessages hfailure
      cases failure? with
      | some failure =>
          refine ⟨?_, ?_, fun hnone => ?_⟩
          · rw [hlonger]
            rfl
          · rw [hlonger]
            rfl
          · cases hnone
      | none =>
          have hleft : unread = left := hunread rfl
          subst hleft
          refine ⟨?_, ?_, fun _ => ?_⟩ <;> rw [hlonger] <;> rfl

theorem Yields.foldl_feed (chunks : List Bytes) {reception : Reception}
    {bytes : Bytes} (h : Yields hasher magic reception bytes) :
    Yields hasher magic (chunks.foldl (Reception.feed hasher magic) reception)
      (bytes ++ chunks.flatten) := by
  induction chunks generalizing reception bytes with
  | nil => simpa using h
  | cons chunk later ih => simpa using ih (h.feed chunk)

theorem yields_ofChunks (hasher : Hasher) (magic : Magic)
    (chunks : List Bytes) :
    Yields hasher magic (ofChunks hasher magic chunks) chunks.flatten :=
  (yields_empty hasher magic).foldl_feed chunks

/-- Two ways of cutting one stream into chunks give the same messages and the
same first failure, and the same bytes are left over where there is none. -/
theorem ofChunks_eq_of_flatten_eq (hasher : Hasher) (magic : Magic)
    {first second : List Bytes} (h : first.flatten = second.flatten) :
    (ofChunks hasher magic first).messages =
      (ofChunks hasher magic second).messages ∧
      (ofChunks hasher magic first).failure? =
        (ofChunks hasher magic second).failure? ∧
      ((ofChunks hasher magic first).failure? = none →
        (ofChunks hasher magic first).unread =
          (ofChunks hasher magic second).unread) := by
  have hfirst := yields_ofChunks hasher magic first
  have hsecond := yields_ofChunks hasher magic second
  rw [← h] at hsecond
  have hfailure := hfirst.failure?.trans hsecond.failure?.symm
  refine ⟨hfirst.messages.trans hsecond.messages.symm, hfailure,
    fun hnone => ?_⟩
  exact (hfirst.unread hnone).trans (hsecond.unread (hfailure ▸ hnone)).symm

/-- A magic that overlaps itself, after bytes that look like its beginning. -/
theorem ofChunks_eq_of_split_magic :
    let magic : Magic := ⟨[7, 7, 7, 9], rfl⟩
    let stream : Bytes :=
      [7, 7, 7, 7, 9, 118, 101, 114, 97, 99, 107, 0, 0, 0, 0, 0, 0,
      0, 0, 0, 0, 0xCF, 0x83, 0xE1, 0x35, 7, 7]
    let first := ofChunks .sha512 magic [stream]
    let second := ofChunks .sha512 magic (stream.map fun byte => [byte])
    [stream].flatten = (stream.map fun byte => [byte]).flatten ∧
      first.messages = second.messages ∧ first.failure? = second.failure? ∧
      (first.failure? = none → first.unread = second.unread) := by
  refine ⟨by decide, ?_⟩
  exact ofChunks_eq_of_flatten_eq .sha512 ⟨[7, 7, 7, 9], rfl⟩ (by decide)

end Reception

end Frame

end ObjectRelay
