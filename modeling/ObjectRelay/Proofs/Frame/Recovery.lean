import ObjectRelay.Hash.Sha512
import ObjectRelay.Proofs.Frame.Chunks
import ObjectRelay.Proofs.Frame.Layout

namespace ObjectRelay

/-! Messages on a stream, with other bytes between them.  All the messages are
found, and nothing else, as long as the other bytes hold no magic. -/

namespace Message

/-- Within the limits of its kind, and with nothing in it that the wire leaves
out. -/
def Regular : Message → Prop
  | version greeting =>
      (greeting.recipient.time = 0 ∧ greeting.recipient.stream = 0) ∧
        (greeting.sender.time = 0 ∧ greeting.sender.stream = 0) ∧
        (Utf8.encode greeting.userAgent).length ≤ Greeting.longestUserAgent ∧
        greeting.streams.length ≤ Greeting.mostStreams
  | verack => True
  | addr records => records.length ≤ mostAddresses
  | inv vectors | getdata vectors => vectors.length ≤ mostVectors
  | object carried =>
      carried.nonce?.isSome = true ∧
        carried.payload =
          .ofBytes carried.type carried.version carried.payload.bytes
  | custom message =>
    (Utf8.encode message.command).length ≤ CustomMessage.longestCommand
  | unknown command _ =>
      0 < command.length ∧ command.length ≤ Command.fieldSize ∧
        (∀ character ∈ command.toList, 0x20 < character.toNat ∧
          character.toNat < 0x7F) ∧
        command ∉ knownCommands

structure WellFormed (message : Message) : Prop where
  regular : message.Regular
  fits : ∀ payload, message.write = .ok payload →
    payload.length ≤ Frame.largestPayload

theorem WellFormed.named {message : Message} (h : message.WellFormed) :
    message.Named := by
  cases message with
  | unknown command payload => exact h.regular.2.2.2
  | _ => trivial

theorem WellFormed.overlong?_eq_none {message : Message}
    (h : message.WellFormed) :
    message.overlong? = none := by
  obtain ⟨hregular, -⟩ := h
  cases message with
  | version greeting =>
      obtain ⟨-, -, huserAgent, hstreams⟩ := hregular
      rw [overlong?, Greeting.overlong?, if_neg (Nat.not_lt.mpr huserAgent),
        if_neg (Nat.not_lt.mpr hstreams)]
  | custom message =>
      rw [overlong?, CustomMessage.overlong?, if_neg (Nat.not_lt.mpr hregular)]
  | _ => rfl

theorem WellFormed.asRead_eq {message : Message} (h : message.WellFormed) :
    message.asRead = message := by
  obtain ⟨hregular, -⟩ := h
  cases message with
  | version greeting =>
      obtain ⟨hrecipient, hsender, -⟩ := hregular
      rw [asRead, Greeting.asRead,
        PeerRecord.short_of_eq_zero hrecipient.1 hrecipient.2,
        PeerRecord.short_of_eq_zero hsender.1 hsender.2]
  | object carried => simp only [asRead, Object.asRead, ← hregular.2]
  | _ => rfl

theorem WellFormed.exists_write {message : Message} (h : message.WellFormed) :
    ∃ payload, message.write = .ok payload := by
  obtain ⟨hregular, -⟩ := h
  cases message with
  | addr records => exact ⟨_, if_neg (Nat.not_lt.mpr hregular)⟩
  | inv vectors => exact ⟨_, if_neg (Nat.not_lt.mpr hregular)⟩
  | getdata vectors => exact ⟨_, if_neg (Nat.not_lt.mpr hregular)⟩
  | object carried =>
      obtain ⟨nonce, hnonce⟩ := Option.isSome_iff_exists.mp hregular.1
      refine ⟨nonce.bytes ++ carried.body, ?_⟩
      rw [write, Object.write, hnonce]
      rfl
  | _ => exact ⟨_, rfl⟩

end Message

namespace Frame

variable {hasher : Hasher} {magic : Magic} {message : Message}
  {garbage frame rest : Bytes}

theorem accepts_of_wellFormed (h : message.WellFormed) :
    Accepts hasher magic message := by
  obtain ⟨payload, hwrite⟩ := h.exists_write
  have hlength := h.fits payload hwrite
  cases message with
  | unknown command bytes =>
      obtain ⟨hsome, hmost, hvisible, -⟩ := h.regular
      exact accepts_iff.mpr
        ⟨Command.exists_write_of_visible hsome hmost hvisible, payload, hwrite,
          hlength⟩
  | _ => exact accepts_of_write (by simp) hwrite hlength

theorem decode_behind_garbage (hmagic : Unbordered magic.bytes)
    (hgarbage : ¬ magic.bytes <:+: garbage) (hwell : message.WellFormed)
    (h : encode hasher magic message = .ok frame) :
    decode hasher magic (garbage ++ (frame ++ rest)) =
      .message message rest := by
  have hdecode := decode_of_encode rest hwell.named hwell.overlong?_eq_none h
  rw [hwell.asRead_eq] at hdecode
  rw [← hdecode]
  apply decode_eq_of_seek_eq
  obtain ⟨field, payload, -, -, -, rfl⟩ := encode_eq_ok_iff.mp h
  rw [seek_of_begins (begins_layout _ _ _ _ _), layout]
  simp only [List.append_assoc]
  exact seek_append_magic hmagic hgarbage _

/-- The longest end of the bytes that may yet become a magic. -/
structure Unfinished (magic bytes tail : Bytes) : Prop where
  ends : tail <:+ bytes
  begins : tail <+: magic
  proper : tail ≠ magic
  longest : ∀ other, other <:+ bytes → other <+: magic → other ≠ magic →
    other.length ≤ tail.length

theorem unfinished_seek {magic : Bytes} (hgarbage : ¬ magic <:+: garbage) :
    Unfinished magic garbage (seek magic garbage) := by
  have hends := seek_suffix magic garbage
  have hnone : ¬ magic <+: seek magic garbage :=
    fun hinside => hgarbage (hinside.isInfix.trans hends.isInfix)
  refine ⟨hends, ?_, ?_, ?_⟩
  · exact (begins_seek magic garbage).resolve_left hnone
  · intro hsame
    rw [hsame] at hnone
    exact hnone (List.prefix_refl magic)
  · intro other hother hbegins _
    exact length_le_seek hother (.inr hbegins)

theorem decode_of_garbage (hgarbage : ¬ magic.bytes <:+: garbage) :
    decode hasher magic garbage = .needMore (seek magic.bytes garbage) := by
  have hshort := (unfinished_seek hgarbage).begins.length_le
  rw [magic.length_bytes] at hshort
  have hheader : ¬ (seek magic.bytes garbage).hasAtLeast headerSize = true := by
    rw [Bytes.hasAtLeast_iff, headerSize]
    omega
  simp only [decode, if_neg hheader]

/-- What goes over the line when each message follows some other bytes. -/
def line (hasher : Hasher) (magic : Magic) :
    List (Bytes × Message) → Except FrameError Bytes
  | [] => .ok []
  | (garbage, message) :: parts => do
      let frame ← encode hasher magic message
      let rest ← line hasher magic parts
      return garbage ++ (frame ++ rest)

theorem decodeAll_line (hmagic : Unbordered magic.bytes)
    {parts : List (Bytes × Message)} (hwell : ∀ part ∈ parts, part.2.WellFormed)
    (hgarbage : ∀ part ∈ parts, ¬ magic.bytes <:+: part.1) :
    ∃ stream, line hasher magic parts = .ok stream ∧
      ∀ last, ¬ magic.bytes <:+: last →
        decodeAll hasher magic (stream ++ last) =
          (parts.map Prod.snd, none, seek magic.bytes last) := by
  induction parts with
  | nil =>
      refine ⟨[], rfl, fun last hlast => ?_⟩
      exact decodeAll_of_needMore (decode_of_garbage hlast)
  | cons part parts ih =>
      obtain ⟨garbage, message⟩ := part
      obtain ⟨rest, hrest, hlater⟩ := ih
        (fun part hmem => hwell part (List.mem_cons_of_mem _ hmem))
        (fun part hmem => hgarbage part (List.mem_cons_of_mem _ hmem))
      have hfirst : message.WellFormed := hwell _ List.mem_cons_self
      obtain ⟨frame, hframe⟩ : Accepts hasher magic message :=
        accepts_of_wellFormed hfirst
      refine ⟨garbage ++ (frame ++ rest), ?_, fun last hlast => ?_⟩
      · rw [line, hframe, hrest]
        rfl
      · have hdecode :
            decode hasher magic (garbage ++ (frame ++ (rest ++ last))) =
            .message message (rest ++ last) :=
          decode_behind_garbage hmagic (hgarbage _ List.mem_cons_self)
            hfirst hframe
        rw [List.append_assoc, List.append_assoc, decodeAll_of_message hdecode,
          hlater last hlast]
        rfl

namespace Reception

/-- However the line is cut, the messages on it are received and nothing else,
and only what may begin another one is left. -/
theorem ofChunks_line (hasher : Hasher) {parts : List (Bytes × Message)}
    {last : Bytes} (hwell : ∀ part ∈ parts, part.2.WellFormed)
    (hgarbage : ∀ part ∈ parts, ¬ networkMagic.bytes <:+: part.1)
    (hlast : ¬ networkMagic.bytes <:+: last) :
    (∀ part ∈ parts, Accepts hasher networkMagic part.2) ∧
      ∃ stream, line hasher networkMagic parts = .ok stream ∧
        ∀ chunks, chunks.flatten = stream ++ last →
          (ofChunks hasher networkMagic chunks).messages = parts.map Prod.snd ∧
            (ofChunks hasher networkMagic chunks).failure? = none ∧
            Unfinished networkMagic.bytes last
              (ofChunks hasher networkMagic chunks).unread := by
  refine ⟨fun part hmem => accepts_of_wellFormed (hwell part hmem), ?_⟩
  obtain ⟨stream, hstream, hall⟩ :=
    decodeAll_line unbordered_networkMagic hwell hgarbage
  refine ⟨stream, hstream, fun chunks hchunks => ?_⟩
  obtain ⟨hmessages, hfailure, hunread⟩ :=
    yields_ofChunks hasher networkMagic chunks
  rw [hchunks, hall last hlast] at hmessages hfailure hunread
  refine ⟨hmessages, hfailure, ?_⟩
  rw [hunread hfailure]
  exact unfinished_seek hlast

/-- A payload that is itself the magic, between the beginnings of others, cut
within a header. -/
theorem ofChunks_line_magic :
    let parts : List (Bytes × Message) :=
      [([0xE9, 0xBE], .inv []), ([7], .unknown "ping" networkMagic.bytes)]
    (∀ part ∈ parts, part.2.WellFormed) ∧
      (∀ part ∈ parts, ¬ networkMagic.bytes <:+: part.1) ∧
      ∃ stream, line .sha512 networkMagic parts = .ok stream ∧
        let reception :=
          ofChunks .sha512 networkMagic [stream.take 40,
            stream.drop 40 ++ [1, 0xE9]]
        reception.messages = [.inv [], .unknown "ping" networkMagic.bytes] ∧
          reception.failure? = none ∧
          Unfinished networkMagic.bytes [1, 0xE9] reception.unread := by
  intro parts
  have hinv : (Message.inv []).WellFormed := by
    refine ⟨Nat.zero_le _, fun payload h => ?_⟩
    cases h
    decide
  have hvisible : ∀ character ∈ "ping".toList,
      0x20 < character.toNat ∧ character.toNat < 0x7F := by
    rw [show "ping".toList = ['p', 'i', 'n', 'g'] from rfl]
    simp only [List.forall_mem_cons]
    exact ⟨by decide, by decide, by decide, by decide, by simp⟩
  have hping : (Message.unknown "ping" networkMagic.bytes).WellFormed := by
    refine ⟨⟨by decide, by decide, hvisible, by decide⟩, fun payload h => ?_⟩
    cases h
    decide
  have hwell : ∀ part ∈ parts, part.2.WellFormed := by simp [parts, hinv, hping]
  have hgarbage : ∀ part ∈ parts, ¬ networkMagic.bytes <:+: part.1 := by decide
  have hlast : ¬ networkMagic.bytes <:+: [1, 0xE9] := by decide
  obtain ⟨-, stream, hstream, hall⟩ :=
    ofChunks_line .sha512 hwell hgarbage hlast
  refine ⟨hwell, hgarbage, stream, hstream, hall _ ?_⟩
  rw [List.flatten_cons, List.flatten_singleton, ← List.append_assoc,
    List.take_append_drop]

end Reception

end Frame

end ObjectRelay
