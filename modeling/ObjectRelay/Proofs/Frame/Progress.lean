import ObjectRelay.Proofs.Frame.Canonical
import ObjectRelay.Proofs.Frame.Chunks

namespace ObjectRelay

/-! The decoder is called on one buffer until it wants more bytes or fails.  A
call that gives a message takes a whole frame, so that the calls are few, and
what a call leaves where it gives none is short or stays as it is. -/

def Frame.Decoded.rest : Frame.Decoded → Bytes
  | message _ rest | needMore rest | failed _ rest => rest

namespace Frame

variable {hasher : Hasher} {magic : Magic} {buffer frame rest skipped : Bytes}

/-- The buffer after so many calls. -/
def drained (hasher : Hasher) (magic : Magic) : Nat → Bytes → Bytes
  | 0, buffer => buffer
  | calls + 1, buffer =>
    drained hasher magic calls (decode hasher magic buffer).rest

@[simp] theorem drained_zero (buffer : Bytes) :
    drained hasher magic 0 buffer = buffer := rfl

@[simp] theorem drained_succ (calls : Nat) (buffer : Bytes) :
    drained hasher magic (calls + 1) buffer =
      drained hasher magic calls (decode hasher magic buffer).rest := rfl

theorem drained_of_rest_eq (h : (decode hasher magic rest).rest = rest)
    (calls : Nat) :
    drained hasher magic calls rest = rest := by
  induction calls with
  | zero => rfl
  | succ calls ih => rw [drained_succ, h, ih]

theorem Skips.suffix (h : Skips magic buffer skipped rest) : rest <:+ buffer :=
  ⟨skipped, h.eq_append.symm⟩

theorem Consumes.suffix (h : Consumes magic buffer skipped frame rest) :
    rest <:+ buffer :=
  ⟨skipped ++ frame, by rw [List.append_assoc, h.eq_append]⟩

/-- The decoder has a part of a magic, or of a frame. -/
structure Waits (magic : Magic) (rest : Bytes) : Prop where
  begins : (rest.length < magic.bytes.length ∧ rest <+: magic.bytes) ∨
    magic.bytes <+: rest
  length_lt : rest.length < headerSize + largestPayload

/-- The failure is met again at each further call, which consumes nothing. -/
structure Blocks (hasher : Hasher) (magic : Magic) (failure : FrameError)
    (rest : Bytes) : Prop where
  magic_prefix : magic.bytes <+: rest
  again : ∀ calls, decode hasher magic (drained hasher magic calls rest) =
    .failed failure rest

/-- What a call comes to, and what it leaves of the buffer. -/
inductive Outcome (hasher : Hasher) (magic : Magic) (buffer : Bytes) :
    Decoded → Prop where
  | message {skipped frame rest : Bytes} (message : Message)
      (hconsumes : Consumes magic buffer skipped frame rest) :
      Outcome hasher magic buffer (.message message rest)
  | payload {skipped frame rest : Bytes} (failure : MessageError)
      (hconsumes : Consumes magic buffer skipped frame rest) :
      Outcome hasher magic buffer (.failed (.payload failure) rest)
  | checksum {skipped frame rest : Bytes} (expected actual : Bytes)
      (hconsumes : Consumes magic buffer skipped frame rest) :
      Outcome hasher magic buffer (.failed (.checksum expected actual) rest)
  | command {skipped rest : Bytes} (failure : CommandError)
      (hskips : Skips magic buffer skipped rest)
      (hblocks : Blocks hasher magic (.command failure) rest) :
      Outcome hasher magic buffer (.failed (.command failure) rest)
  | tooLarge {skipped rest : Bytes} (size : Nat)
      (hskips : Skips magic buffer skipped rest)
      (hblocks : Blocks hasher magic (.tooLarge size) rest) :
      Outcome hasher magic buffer (.failed (.tooLarge size) rest)
  | needMore {skipped rest : Bytes}
      (hskips : Skips magic buffer skipped rest) (hwaits : Waits magic rest) :
      Outcome hasher magic buffer (.needMore rest)

theorem Outcome.rest_suffix {outcome : Decoded}
    (h : Outcome hasher magic buffer outcome) :
    outcome.rest <:+ buffer := by
  cases h with
  | message _ hconsumes => exact hconsumes.suffix
  | payload _ hconsumes => exact hconsumes.suffix
  | checksum _ _ hconsumes => exact hconsumes.suffix
  | command _ hskips _ => exact hskips.suffix
  | tooLarge _ hskips _ => exact hskips.suffix
  | needMore hskips _ => exact hskips.suffix

theorem Skips.consumes (h : Skips magic buffer skipped frame)
    (hmagic : magic.bytes <+: frame) (hheader : headerSize ≤ frame.length)
    (hwhole : Bytes.toNat ((frame.drop 16).take 4) ≤
      (frame.drop headerSize).length) :
    ∃ taken, Consumes magic buffer skipped taken
      ((frame.drop headerSize).drop
        (Bytes.toNat ((frame.drop 16).take 4))) := by
  generalize hsize : Bytes.toNat ((frame.drop 16).take 4) = size at hwhole ⊢
  rw [List.length_drop] at hwhole
  have htaken : (frame.take (headerSize + size)).length = headerSize + size :=
    List.length_take_of_le (by omega)
  -- The size stands in the part that is taken.
  have hsame : ((frame.take (headerSize + size)).drop 16).take 4 =
      (frame.drop 16).take 4 := by
    rw [← take_drop_append (frame.drop (headerSize + size)),
      List.take_append_drop]
    rw [htaken]
    exact Nat.le_trans (by decide) (Nat.le_add_right headerSize size)
  refine ⟨frame.take (headerSize + size), ?_, ?_, h.first, ?_⟩
  · rw [List.drop_drop, List.take_append_drop]
    exact h.eq_append
  · refine List.prefix_of_prefix_length_le hmagic (List.take_prefix _ _) ?_
    rw [htaken, magic.length_bytes]
    exact Nat.le_trans (by decide) (Nat.le_add_right headerSize size)
  · rw [htaken, hsame, hsize]

theorem blocks_of_judge {failure : FrameError} (hmagic : magic.bytes <+: frame)
    (hheader : headerSize ≤ frame.length)
    (h : judge hasher frame = .failed failure frame) :
    Blocks hasher magic failure frame := by
  have hdecode : decode hasher magic frame = .failed failure frame := by
    unfold decode
    rw [seek_of_begins (.inl hmagic), ← h]
    exact if_pos ((Bytes.hasAtLeast_iff _ _).mpr hheader)
  refine ⟨hmagic, fun calls => ?_⟩
  rw [drained_of_rest_eq (by rw [hdecode]; rfl), hdecode]

theorem outcome_judge (hskips : Skips magic buffer skipped frame)
    (hmagic : magic.bytes <+: frame) (hheader : headerSize ≤ frame.length) :
    Outcome hasher magic buffer (judge hasher frame) := by
  have hblocks : ∀ failure, judge hasher frame = .failed failure frame →
      Blocks hasher magic failure frame :=
        fun _ => blocks_of_judge hmagic hheader
  generalize hresult : judge hasher frame = result at hblocks ⊢
  unfold judge at hresult
  cases hread : Command.read ((frame.drop 4).take Command.fieldSize) with
  | error failure =>
      rw [hread] at hresult
      subst hresult
      exact .command failure hskips (hblocks _ rfl)
  | ok command =>
      rw [hread] at hresult
      dsimp only at hresult
      split_ifs at hresult with hlarge hwhole hsum
      · subst hresult
        exact .tooLarge _ hskips (hblocks _ rfl)
      · obtain ⟨taken, hconsumes⟩ :=
          hskips.consumes hmagic hheader ((Bytes.hasAtLeast_iff _ _).mp hwhole)
        split at hresult
        · subst hresult
          exact .message _ hconsumes
        · subst hresult
          exact .payload _ hconsumes
      · obtain ⟨taken, hconsumes⟩ :=
          hskips.consumes hmagic hheader ((Bytes.hasAtLeast_iff _ _).mp hwhole)
        subst hresult
        exact .checksum _ _ hconsumes
      · subst hresult
        refine .needMore hskips ⟨.inr hmagic, ?_⟩
        rw [Bytes.hasAtLeast_iff, List.length_drop] at hwhole
        omega

theorem outcome_decode (hasher : Hasher) (magic : Magic) (buffer : Bytes) :
    Outcome hasher magic buffer (decode hasher magic buffer) := by
  obtain ⟨skipped, hskips⟩ := exists_skips_seek magic buffer
  unfold decode
  dsimp only
  split
  · rename_i hheader
    rw [Bytes.hasAtLeast_iff] at hheader
    refine outcome_judge hskips (prefix_seek ?_) hheader
    rw [magic.length_bytes]
    exact Nat.le_trans (by decide) hheader
  · rename_i hshort
    rw [Bytes.hasAtLeast_iff, Nat.not_le] at hshort
    refine .needMore hskips ⟨?_,
      Nat.lt_of_lt_of_le hshort (Nat.le_add_right _ _)⟩
    by_cases hlength : magic.bytes.length ≤ (seek magic.bytes buffer).length
    · exact .inr (prefix_seek hlength)
    · have hless := Nat.not_le.mp hlength
      refine .inl ⟨hless,
        (begins_seek magic.bytes buffer).resolve_left fun hwhole => ?_⟩
      exact hlength hwhole.length_le

theorem length_decodeAll_le (hasher : Hasher) (magic : Magic) (buffer : Bytes) :
    (decodeAll hasher magic buffer).1.length * headerSize ≤ buffer.length := by
  induction buffer using decodeAll.induct hasher magic with
  | case1 buffer message rest hdecoded messages failure? unread hrest ih =>
      have hframe := length_rest_of_message hdecoded
      rw [decodeAll_of_message hdecoded, List.length_cons, Nat.succ_mul]
      omega
  | case2 buffer rest hdecoded => simp [decodeAll_of_needMore hdecoded]
  | case3 buffer failure rest hdecoded => simp [decodeAll_of_failed hdecoded]

theorem decode_drained_of_lt (hasher : Hasher) (magic : Magic) (buffer : Bytes)
    {calls : Nat} (h : calls < (decodeAll hasher magic buffer).1.length) :
    decode hasher magic (drained hasher magic calls buffer) =
      .message (decodeAll hasher magic buffer).1[calls]
        (drained hasher magic (calls + 1) buffer) := by
  induction buffer using decodeAll.induct hasher magic generalizing calls with
  | case1 buffer message rest hdecoded messages failure? unread hrest ih =>
      have hrest : (decode hasher magic buffer).rest = rest := by
        rw [hdecoded]
        rfl
      simp only [decodeAll_of_message hdecoded, List.length_cons] at h ⊢
      cases calls with
      | zero =>
          rw [drained_zero, drained_succ, drained_zero, hrest, hdecoded,
            List.getElem_cons_zero]
      | succ calls =>
          rw [drained_succ, drained_succ, hrest, ih (Nat.lt_of_succ_lt_succ h),
            List.getElem_cons_succ]
  | case2 buffer rest hdecoded =>
      rw [decodeAll_of_needMore hdecoded] at h
      exact absurd h (Nat.not_lt_zero _)
  | case3 buffer failure rest hdecoded =>
      rw [decodeAll_of_failed hdecoded] at h
      exact absurd h (Nat.not_lt_zero _)

theorem decode_drained_length (hasher : Hasher) (magic : Magic)
    (buffer : Bytes) :
    decode hasher magic
      (drained hasher magic (decodeAll hasher magic buffer).1.length buffer) =
      match (decodeAll hasher magic buffer).2 with
      | (none, rest) => .needMore rest
      | (some failure, rest) => .failed failure rest := by
  induction buffer using decodeAll.induct hasher magic with
  | case1 buffer message rest hdecoded messages failure? unread hrest ih =>
      have hrest : (decode hasher magic buffer).rest = rest := by
        rw [hdecoded]
        rfl
      rw [decodeAll_of_message hdecoded, List.length_cons, drained_succ,
        hrest, ih]
  | case2 buffer rest hdecoded =>
      rw [decodeAll_of_needMore hdecoded]; exact hdecoded
  | case3 buffer failure rest hdecoded =>
      rw [decodeAll_of_failed hdecoded]; exact hdecoded

/-- The calls end soon, the last one being the first that gives no message, and
each of them consumes what its outcome says. -/
theorem decoding_ends_and_bounds_rest (hasher : Hasher) (magic : Magic)
    (buffer : Bytes) :
    let messages := (decodeAll hasher magic buffer).1
    messages.length + 1 ≤ buffer.length / headerSize + 1 ∧
      (∀ calls (h : calls < messages.length),
        decode hasher magic (drained hasher magic calls buffer) =
          .message messages[calls] (drained hasher magic (calls + 1) buffer)) ∧
      (decode hasher magic (drained hasher magic messages.length buffer) =
        match (decodeAll hasher magic buffer).2 with
        | (none, rest) => .needMore rest
        | (some failure, rest) => .failed failure rest) ∧
      ∀ calls,
        let given := drained hasher magic calls buffer
        (decode hasher magic given).rest <:+ given ∧
          Outcome hasher magic given (decode hasher magic given) := by
  refine ⟨?_, ?_, ?_, fun calls => ?_⟩
  · apply Nat.succ_le_succ
    rw [Nat.le_div_iff_mul_le (by decide)]
    exact length_decodeAll_le hasher magic buffer
  · intro calls h
    exact decode_drained_of_lt hasher magic buffer h
  · exact decode_drained_length hasher magic buffer
  · have houtcome :=
      outcome_decode hasher magic (drained hasher magic calls buffer)
    exact ⟨houtcome.rest_suffix, houtcome⟩

end Frame

end ObjectRelay
