import ObjectRelay.Hash.Sha512
import ObjectRelay.Proofs.Frame.Layout

namespace ObjectRelay

/-! Every message has one frame: what the decoder takes out of a buffer is what
the encoder makes of the message that it gives. -/

namespace Frame

variable {hasher : Hasher} {magic : Magic} {message : Message}
  {buffer frame rest : Bytes}

/-- No magic begins in what is dropped. -/
structure Skips (magic : Magic) (buffer skipped rest : Bytes) : Prop where
  eq_append : buffer = skipped ++ rest
  first : ∀ before after, buffer = before ++ (magic.bytes ++ after) →
    skipped.length ≤ before.length

theorem exists_skips_seek (magic : Magic) (buffer : Bytes) :
    ∃ skipped, Skips magic buffer skipped (seek magic.bytes buffer) := by
  obtain ⟨skipped, hskipped⟩ := seek_suffix magic.bytes buffer
  refine ⟨skipped, hskipped.symm, fun before after hbuffer => ?_⟩
  have hlater : (magic.bytes ++ after).length ≤
      (seek magic.bytes buffer).length :=
    length_le_seek ⟨before, hbuffer.symm⟩ (.inl (List.prefix_append _ _))
  have htotal := congrArg List.length (hskipped.trans hbuffer)
  simp only [List.length_append] at hlater htotal
  omega

/-- What one frame takes out of a buffer: all before the first magic is dropped,
and the header there says how much belongs to the frame. -/
structure Consumes (magic : Magic) (buffer skipped frame rest : Bytes) :
    Prop where
  eq_append : buffer = skipped ++ (frame ++ rest)
  magic_prefix : magic.bytes <+: frame
  first : ∀ before after, buffer = before ++ (magic.bytes ++ after) →
    skipped.length ≤ before.length
  length_eq : frame.length = headerSize + Bytes.toNat ((frame.drop 16).take 4)

theorem Consumes.frame_unique
    {skipped otherSkipped otherFrame otherRest : Bytes}
    (h : Consumes magic buffer skipped frame rest)
    (hother : Consumes magic buffer otherSkipped otherFrame otherRest) :
    otherFrame = frame := by
  have hmagic : ∀ {skipped frame rest},
      Consumes magic buffer skipped frame rest →
      ∃ after, buffer = skipped ++ (magic.bytes ++ after) := by
    intro skipped frame rest hconsumes
    obtain ⟨after, rfl⟩ := hconsumes.magic_prefix
    exact ⟨after ++ rest, by rw [hconsumes.eq_append, List.append_assoc]⟩
  obtain ⟨after, hafter⟩ := hmagic h
  obtain ⟨otherAfter, hotherAfter⟩ := hmagic hother
  have hskipped : skipped.length = otherSkipped.length :=
    Nat.le_antisymm (h.first _ _ hotherAfter) (hother.first _ _ hafter)
  have hboth := h.eq_append.symm.trans hother.eq_append
  have htail : frame ++ rest = otherFrame ++ otherRest :=
    (List.append_inj hboth hskipped).2
  -- Both lengths stand in the header, which is the same.
  have hsize : ∀ {frame : Bytes} (rest : Bytes), headerSize ≤ frame.length →
      ((frame ++ rest).drop 16).take 4 = (frame.drop 16).take 4 :=
    fun rest hlength => take_drop_append rest (Nat.le_trans (by decide) hlength)
  have hlength : frame.length = otherFrame.length := by
    rw [h.length_eq, hother.length_eq,
      ← hsize rest (by rw [h.length_eq]; omega), htail,
      hsize otherRest (by rw [hother.length_eq]; omega)]
  exact (List.append_inj htail hlength).1.symm

theorem layout_of_decode
    (h : decode hasher magic buffer = .message message rest) :
    ∃ command field payload, Command.write command = .ok field ∧
      Message.read command payload = .ok message ∧
      payload.length ≤ largestPayload ∧
      seek magic.bytes buffer = layout hasher magic field payload ++ rest := by
  unfold decode at h
  dsimp only at h
  split at h
  · rename_i hheader
    rw [Bytes.hasAtLeast_iff] at hheader
    refine layout_of_judge hheader (prefix_seek ?_) h
    rw [magic.length_bytes]
    exact Nat.le_trans (by decide) hheader
  · cases h

theorem consumes_layout {field payload : Bytes}
    (hfield : field.length = Command.fieldSize)
    (hlength : payload.length ≤ largestPayload)
    (hseek : seek magic.bytes buffer =
      layout hasher magic field payload ++ rest) :
    ∃ skipped, Consumes magic buffer skipped (layout hasher magic field payload)
      rest := by
  obtain ⟨skipped, hskips⟩ := exists_skips_seek magic buffer
  have hparts : Parts (layout hasher magic field payload) magic.bytes field
      (Bytes.bigEndian 4 payload.length) (checksum hasher payload) payload :=
        parts_layout hfield
  refine ⟨skipped, hseek ▸ hskips.eq_append, ?_, hskips.first, ?_⟩
  · exact ⟨_, hparts.eq_append.symm⟩
  · rw [hparts.length_eq, hparts.size_eq, toNat_length hlength]

theorem encode_of_decode
    (h : decode hasher magic buffer = .message message rest) :
    ∃ skipped frame, Consumes magic buffer skipped frame rest ∧
      (message.TextValid (frame.drop headerSize) →
        encode hasher magic message = .ok frame) := by
  obtain ⟨command, field, payload, hfield, hread, hlength, hseek⟩ :=
    layout_of_decode h
  have hfieldLength := Command.length_of_write hfield
  obtain ⟨skipped, hconsumes⟩ := consumes_layout hfieldLength hlength hseek
  refine ⟨skipped, _, hconsumes, fun htext => ?_⟩
  rw [(parts_layout hfieldLength).body_eq] at htext
  obtain ⟨rfl, hwrite⟩ := Message.write_of_read hread htext
  exact encode_eq_ok_iff.mpr ⟨field, payload, hfield, hwrite, hlength, rfl⟩

/-- The frame that a message came in, where its text was text, is the one that
the message is encoded as, and so the message comes in no other. -/
theorem frame_unique_of_decode
    (h : decode hasher magic buffer = .message message rest) :
    ∃ skipped frame, Consumes magic buffer skipped frame rest ∧
      (message.TextValid (frame.drop headerSize) →
        encode hasher magic message = .ok frame ∧
          ∀ other otherSkipped otherFrame otherRest,
            decode hasher magic other = .message message otherRest →
            Consumes magic other otherSkipped otherFrame otherRest →
            message.TextValid (otherFrame.drop headerSize) →
            otherFrame = frame) := by
  obtain ⟨skipped, frame, hconsumes, hencode⟩ := encode_of_decode h
  refine ⟨skipped, frame, hconsumes, fun htext => ⟨hencode htext, ?_⟩⟩
  intro other otherSkipped otherFrame otherRest hother hotherConsumes hotherText
  obtain ⟨_, again, hagain, hotherEncode⟩ := encode_of_decode hother
  have hsame : otherFrame = again := hagain.frame_unique hotherConsumes
  rw [hsame] at hotherText ⊢
  exact Except.ok.inj ((hotherEncode hotherText).symm.trans (hencode htext))

/-- A name beyond ASCII, behind a byte that begins no magic and before one that
may. -/
theorem frame_unique_of_decode_custom :
    let message : Message := .custom ⟨"né", [5]⟩
    ∃ frame, decode .sha512 networkMagic (0xE9 :: (frame ++ [0xE9])) =
      .message message [0xE9] ∧
      message.TextValid (frame.drop headerSize) ∧
      encode .sha512 networkMagic message = .ok frame := by
  intro message
  have hnamed : message.Named := trivial
  have hlong : message.overlong? = none := by decide
  obtain ⟨frame, hencode⟩ : Accepts .sha512 networkMagic message :=
    accepts_custom (by decide)
  obtain ⟨field, payload, hfield, hwrite, hlength, rfl⟩ :=
    encode_eq_ok_iff.mp hencode
  have hfieldLength := Command.length_of_write hfield
  have hseek : seek networkMagic.bytes
      (0xE9 :: (layout .sha512 networkMagic field payload ++ [0xE9])) =
        layout .sha512 networkMagic field payload ++ [0xE9] := by
    have hgarbage : ¬ networkMagic.bytes <:+: [0xE9] := by decide
    rw [layout]
    simp only [List.append_assoc]
    exact seek_append_magic unbordered_networkMagic hgarbage _
  have hdecode : decode .sha512 networkMagic
      (0xE9 :: (layout .sha512 networkMagic field payload ++ [0xE9])) =
        .message message [0xE9] := by
    rw [decode_eq_of_seek_eq
      (hseek.trans (seek_of_begins (begins_layout _ _ _ _ _)).symm)]
    exact decode_of_encode [0xE9] hnamed hlong hencode
  have htext : message.TextValid
      ((layout .sha512 networkMagic field payload).drop headerSize) := by
    rw [(parts_layout hfieldLength).body_eq]
    exact Message.textValid_of_write hwrite hlong
  obtain ⟨skipped, frame, hconsumes, hone⟩ := frame_unique_of_decode hdecode
  obtain ⟨_, hlayout⟩ := consumes_layout hfieldLength hlength hseek
  rw [← hconsumes.frame_unique hlayout] at hone
  exact ⟨_, hdecode, htext, (hone htext).1⟩

end Frame

end ObjectRelay
