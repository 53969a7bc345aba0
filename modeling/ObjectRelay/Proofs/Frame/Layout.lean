import ObjectRelay.Proofs.Frame.Command
import ObjectRelay.Proofs.Frame.Resync
import ObjectRelay.Proofs.Message.RoundTrip

namespace ObjectRelay

namespace Frame

variable {hasher : Hasher} {magic : Magic} {message : Message}
  {buffer frame rest : Bytes}

/-- A header, part by part, and what stands behind it. -/
structure Parts (frame front field size sum body : Bytes) : Prop where
  eq_append : frame = front ++ (field ++ (size ++ (sum ++ body)))
  length_front : front.length = 4
  length_field : field.length = Command.fieldSize
  length_size : size.length = 4
  length_sum : sum.length = 4

theorem take_append_drop_add (frame : Bytes) (start count : Nat) :
    (frame.drop start).take count ++ frame.drop (start + count) =
      frame.drop start := by
  rw [← List.drop_drop, List.take_append_drop]

theorem exists_parts (h : headerSize ≤ frame.length) :
    ∃ front field size sum body, Parts frame front field size sum body := by
  have hfield : (frame.drop 4).take Command.fieldSize ++ frame.drop 16 =
      frame.drop 4 :=
    take_append_drop_add frame 4 Command.fieldSize
  have hsize : (frame.drop 16).take 4 ++ frame.drop 20 = frame.drop 16 :=
    take_append_drop_add frame 16 4
  have hsum : (frame.drop 20).take 4 ++ frame.drop headerSize = frame.drop 20 :=
    take_append_drop_add frame 20 4
  refine ⟨frame.take 4, (frame.drop 4).take Command.fieldSize,
    (frame.drop 16).take 4, (frame.drop 20).take 4, frame.drop headerSize,
    ?_, ?_, ?_, ?_, ?_⟩
  · rw [hsum, hsize, hfield, List.take_append_drop]
  all_goals
    simp only [List.length_take, List.length_drop, Command.fieldSize,
      headerSize] at *
    omega

namespace Parts

variable {front field size sum body : Bytes}

theorem length_eq (h : Parts frame front field size sum body) :
    frame.length = headerSize + body.length := by
  obtain ⟨rfl, hfront, hfield, hsize, hsum⟩ := h
  simp only [List.length_append, hfront, hfield, hsize, hsum, Command.fieldSize,
    headerSize]
  omega

theorem field_eq (h : Parts frame front field size sum body) :
    (frame.drop 4).take Command.fieldSize = field := by
  obtain ⟨rfl, hfront, hfield, -, -⟩ := h
  rw [List.drop_left' hfront, List.take_left' hfield]

theorem size_eq (h : Parts frame front field size sum body) :
    (frame.drop 16).take 4 = size := by
  obtain ⟨rfl, hfront, hfield, hsize, -⟩ := h
  rw [show 16 = 4 + Command.fieldSize from rfl, ← List.drop_drop,
    List.drop_left' hfront, List.drop_left' hfield, List.take_left' hsize]

theorem sum_eq (h : Parts frame front field size sum body) :
    (frame.drop 20).take 4 = sum := by
  obtain ⟨rfl, hfront, hfield, hsize, hsum⟩ := h
  rw [show 20 = 4 + Command.fieldSize + 4 from rfl, ← List.drop_drop,
    ← List.drop_drop, List.drop_left' hfront, List.drop_left' hfield,
    List.drop_left' hsize, List.take_left' hsum]

theorem body_eq (h : Parts frame front field size sum body) :
    frame.drop headerSize = body := by
  obtain ⟨rfl, hfront, hfield, hsize, hsum⟩ := h
  rw [show headerSize = 4 + Command.fieldSize + 4 + 4 from rfl,
    ← List.drop_drop, ← List.drop_drop, ← List.drop_drop,
    List.drop_left' hfront, List.drop_left' hfield,
    List.drop_left' hsize, List.drop_left' hsum]

theorem append (h : Parts frame front field size sum body) (rest : Bytes) :
    Parts (frame ++ rest) front field size sum (body ++ rest) := by
  obtain ⟨rfl, hfront, hfield, hsize, hsum⟩ := h
  exact ⟨by simp, hfront, hfield, hsize, hsum⟩

end Parts

/-- A frame as the encoder lays it out. -/
def layout (hasher : Hasher) (magic : Magic) (field payload : Bytes) : Bytes :=
  magic.bytes ++ field ++ Bytes.bigEndian 4 payload.length ++
    checksum hasher payload ++ payload

theorem length_checksum (hasher : Hasher) (payload : Bytes) :
    (checksum hasher payload).length = 4 := by
  rw [checksum, List.length_take, (hasher.digest payload).length_bytes]
  rfl

theorem parts_layout {field payload : Bytes}
    (hfield : field.length = Command.fieldSize) :
    Parts (layout hasher magic field payload) magic.bytes field
      (Bytes.bigEndian 4 payload.length) (checksum hasher payload) payload := by
  refine ⟨?_, magic.length_bytes, hfield, Bytes.length_bigEndian _ _,
    length_checksum _ _⟩
  simp [layout]

theorem encode_eq_ok_iff :
    encode hasher magic message = .ok frame ↔
      ∃ field payload, Command.write message.command = .ok field ∧
        message.write = .ok payload ∧ payload.length ≤ largestPayload ∧
        frame = layout hasher magic field payload := by
  unfold encode
  cases hfield : Command.write message.command with
  | error failure => simp [Except.mapError, bind, Except.bind]
  | ok field =>
      cases hpayload : message.write with
      | error failure => simp [Except.mapError, bind, Except.bind]
      | ok payload =>
          by_cases hlarge : largestPayload < payload.length
          · simp [Except.mapError, bind, Except.bind, hlarge]
          · simp [Except.mapError, bind, Except.bind, hlarge, pure,
              Except.pure, layout, Nat.not_lt.mp hlarge, eq_comm]

theorem toNat_length {payload : Bytes} (h : payload.length ≤ largestPayload) :
    Bytes.toNat (Bytes.bigEndian 4 payload.length) = payload.length := by
  rw [Bytes.toNat_bigEndian,
    Nat.mod_eq_of_lt (Nat.lt_of_le_of_lt h (by decide))]

theorem judge_layout {command : String} {field payload : Bytes}
    (hfield : Command.write command = .ok field)
    (hlength : payload.length ≤ largestPayload) :
    judge hasher (layout hasher magic field payload ++ rest) =
      match Message.read command payload with
      | .ok message => .message message rest
      | .error failure => .failed (.payload failure) rest := by
  have hparts :
      Parts (layout hasher magic field payload ++ rest) magic.bytes field
      (Bytes.bigEndian 4 payload.length) (checksum hasher payload)
        (payload ++ rest) :=
    (parts_layout (Command.length_of_write hfield)).append rest
  have hwhole : (payload ++ rest).hasAtLeast payload.length = true := by
    rw [Bytes.hasAtLeast_iff, List.length_append]
    exact Nat.le_add_right _ _
  unfold judge
  rw [hparts.field_eq, hparts.size_eq, hparts.sum_eq, hparts.body_eq,
    Command.read_of_write hfield, toNat_length hlength]
  dsimp only
  rw [if_neg (Nat.not_lt.mpr hlength), if_pos hwhole, List.take_left,
    List.drop_left]
  cases Message.read command payload with
  | error failure => exact if_pos rfl
  | ok message => exact if_pos rfl

theorem begins_layout (hasher : Hasher) (magic : Magic)
    (field payload rest : Bytes) :
    Begins magic.bytes (layout hasher magic field payload ++ rest) := by
  refine .inl ⟨field ++ Bytes.bigEndian 4 payload.length ++
    checksum hasher payload ++ payload ++ rest, ?_⟩
  simp [layout]

theorem decode_layout {command : String} {field payload : Bytes}
    (hfield : Command.write command = .ok field)
    (hlength : payload.length ≤ largestPayload) :
    decode hasher magic (layout hasher magic field payload ++ rest) =
      match Message.read command payload with
      | .ok message => .message message rest
      | .error failure => .failed (.payload failure) rest := by
  have hparts :
      Parts (layout hasher magic field payload ++ rest) magic.bytes field
      (Bytes.bigEndian 4 payload.length) (checksum hasher payload)
        (payload ++ rest) :=
    (parts_layout (Command.length_of_write hfield)).append rest
  have hheader : (layout hasher magic field payload ++ rest).hasAtLeast
      headerSize = true := by
    rw [Bytes.hasAtLeast_iff, hparts.length_eq]
    exact Nat.le_add_right _ _
  rw [← judge_layout hfield hlength]
  unfold decode
  rw [seek_of_begins (begins_layout hasher magic field payload rest)]
  exact if_pos hheader

theorem decode_of_encode (rest : Bytes) (hnamed : message.Named)
    (hlong : message.overlong? = none)
    (h : encode hasher magic message = .ok frame) :
    decode hasher magic (frame ++ rest) = .message message.asRead rest := by
  obtain ⟨field, payload, hfield, hwrite, hlength, rfl⟩ := encode_eq_ok_iff.mp h
  rw [decode_layout hfield hlength, Message.read_write hnamed hwrite hlong]

theorem decode_of_encode_overlong (rest : Bytes) {failure : WireError}
    (hlong : message.overlong? = some failure)
    (h : encode hasher magic message = .ok frame) :
    decode hasher magic (frame ++ rest) =
      .failed (.payload (.wire failure)) rest := by
  obtain ⟨field, payload, hfield, hwrite, hlength, rfl⟩ := encode_eq_ok_iff.mp h
  have hsize : payload.length < UInt64.size :=
    Nat.lt_of_le_of_lt hlength (by decide)
  rw [decode_layout hfield hlength,
    Message.read_write_of_overlong hwrite hsize hlong]

theorem layout_of_judge (hheader : headerSize ≤ frame.length)
    (hmagic : magic.bytes <+: frame)
    (h : judge hasher frame = .message message rest) :
    ∃ command field payload, Command.write command = .ok field ∧
      Message.read command payload = .ok message ∧
      payload.length ≤ largestPayload ∧
      frame = layout hasher magic field payload ++ rest := by
  obtain ⟨front, field, size, sum, body, hparts⟩ := exists_parts hheader
  have hfront : front = magic.bytes := by
    obtain ⟨after, hafter⟩ := hmagic
    have hlength := hparts.length_front.trans magic.length_bytes.symm
    exact (List.append_inj (hparts.eq_append.symm.trans hafter.symm) hlength).1
  unfold judge at h
  rw [hparts.field_eq, hparts.size_eq, hparts.sum_eq, hparts.body_eq] at h
  split at h
  · cases h
  · rename_i command hcommand
    dsimp only at h
    split_ifs at h with hlarge hwhole hsum
    split at h
    · rename_i hread
      cases h
      rw [Bytes.hasAtLeast_iff] at hwhole
      have hlength : (body.take (Bytes.toNat size)).length = Bytes.toNat size :=
        List.length_take_of_le hwhole
      refine ⟨command, field, body.take (Bytes.toNat size), ?_, hread, ?_, ?_⟩
      · exact Command.write_of_read hparts.length_field hcommand
      · rw [hlength]
        exact Nat.not_lt.mp hlarge
      · have hsize : Bytes.bigEndian 4 (Bytes.toNat size) = size := by
          rw [← hparts.length_size, Bytes.bigEndian_toNat]
        rw [layout, hlength, hsize, hsum, ← hfront]
        simpa using hparts.eq_append
    · cases h

end Frame

end ObjectRelay
