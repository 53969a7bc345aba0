import ObjectRelay.Hash.Sha512
import ObjectRelay.Proofs.Frame.Layout

namespace ObjectRelay

/-! The encoder knows the limits of lists of records and of vectors, but not
those of the user agent, the streams and the name of a request.  These alone
make frames that the decoder refuses. -/

namespace Message

/-- A part is longer than a reader takes. -/
def Overlong : Message → Prop
  | version greeting =>
      Greeting.longestUserAgent < (Utf8.encode greeting.userAgent).length ∨
        Greeting.mostStreams < greeting.streams.length
  | custom message =>
    CustomMessage.longestCommand < (Utf8.encode message.command).length
  | _ => False

theorem overlong?_eq_none_iff {message : Message} :
    message.overlong? = none ↔ ¬ message.Overlong := by
  cases message with
  | version greeting =>
      simp only [overlong?, Greeting.overlong?, Overlong]
      split_ifs <;> simp_all
  | custom message =>
      simp only [overlong?, CustomMessage.overlong?, Overlong]
      split_ifs <;> simp_all
  | _ => simp [overlong?, Overlong]

theorem tooLarge_of_overlong? {message : Message} {failure : WireError}
    (h : message.overlong? = some failure) :
    ∃ part size limit, failure = .tooLarge part size limit ∧ limit < size := by
  cases message with
  | version greeting =>
      simp only [overlong?, Greeting.overlong?] at h
      split_ifs at h with huserAgent hstreams
      · cases h
        exact ⟨_, _, _, rfl, huserAgent⟩
      · cases h
        exact ⟨_, _, _, rfl, hstreams⟩
  | custom message =>
      simp only [overlong?, CustomMessage.overlong?] at h
      split_ifs at h with hcommand
      cases h
      exact ⟨_, _, _, rfl, hcommand⟩
  | _ => cases h

end Message

namespace Frame

variable {hasher : Hasher} {magic : Magic} {message : Message} {frame : Bytes}

theorem exists_decode_version_iff (hasher : Hasher) (magic : Magic)
    (greeting : Greeting) :
    (∃ frame read, encode hasher magic (.version greeting) = .ok frame ∧
        decode hasher magic frame = .message (.version read) []) ↔
      (Utf8.encode greeting.userAgent).length ≤ Greeting.longestUserAgent ∧
        greeting.streams.length ≤ Greeting.mostStreams := by
  have hoverlong : (Message.version greeting).overlong? = none ↔
      (Utf8.encode greeting.userAgent).length ≤ Greeting.longestUserAgent ∧
        greeting.streams.length ≤ Greeting.mostStreams := by
    rw [Message.overlong?_eq_none_iff, Message.Overlong, not_or, Nat.not_lt,
      Nat.not_lt]
  constructor
  · rintro ⟨frame, read, hencode, hdecode⟩
    rw [← hoverlong, Option.eq_none_iff_forall_ne_some]
    intro failure hlong
    have hrefused := decode_of_encode_overlong [] hlong hencode
    rw [List.append_nil, hdecode] at hrefused
    cases hrefused
  · intro hfits
    obtain ⟨frame, hencode⟩ : Accepts hasher magic (.version greeting) :=
      accepts_version hfits.1 hfits.2
    have hnamed : (Message.version greeting).Named := trivial
    have hdecode := decode_of_encode [] hnamed (hoverlong.mpr hfits) hencode
    rw [List.append_nil] at hdecode
    exact ⟨frame, _, hencode, hdecode⟩

/-- The decoder refuses the encoder's frame just when a part is overlong, and
then on account of that part's size. -/
theorem decode_encode_iff_not_overlong (hnamed : message.Named)
    (h : encode hasher magic message = .ok frame) :
    ((∃ read rest, decode hasher magic frame = .message read rest) ↔
      ¬ message.Overlong) ∧
      (message.Overlong → ∃ part size limit, limit < size ∧
        decode hasher magic frame =
          .failed (.payload (.wire (.tooLarge part size limit))) []) := by
  cases hlong : message.overlong? with
  | none =>
      have hfits := Message.overlong?_eq_none_iff.mp hlong
      have hdecode := decode_of_encode [] hnamed hlong h
      rw [List.append_nil] at hdecode
      exact ⟨iff_of_true ⟨_, _, hdecode⟩ hfits,
        fun hoverlong => absurd hoverlong hfits⟩
  | some failure =>
      have hoverlong : message.Overlong := by
        by_contra hfits
        rw [Message.overlong?_eq_none_iff.mpr hfits] at hlong
        cases hlong
      have hdecode := decode_of_encode_overlong [] hlong h
      rw [List.append_nil] at hdecode
      obtain ⟨part, size, limit, rfl, hlimit⟩ :=
        Message.tooLarge_of_overlong? hlong
      refine ⟨iff_of_false ?_ (not_not_intro hoverlong),
        fun _ => ⟨_, _, _, hlimit, hdecode⟩⟩
      intro hmessage
      obtain ⟨read, rest, hread⟩ := hmessage
      rw [hdecode] at hread
      cases hread

/-- A request whose name is one letter longer than a reader takes. -/
def longRequest : CustomMessage :=
  ⟨String.ofList (List.replicate (CustomMessage.longestCommand + 1) 'a'), []⟩

theorem length_command_longRequest :
    (Utf8.encode longRequest.command).length =
      CustomMessage.longestCommand + 1 := by
  rw [longRequest, Utf8.encode_eq_map]
  · simp
  · intro character hmem
    rw [String.toList_ofList] at hmem
    rw [List.eq_of_mem_replicate hmem]
    decide

theorem decode_encode_longRequest :
    ∃ frame, encode .sha512 networkMagic (.custom longRequest) = .ok frame ∧
      ¬ ∃ read rest, decode .sha512 networkMagic frame =
        .message read rest := by
  have hnamed : (Message.custom longRequest).Named := trivial
  have hlong : (Message.custom longRequest).Overlong := by
    rw [Message.Overlong, length_command_longRequest]
    exact Nat.lt_succ_self _
  obtain ⟨frame, hencode⟩ :
    Accepts .sha512 networkMagic (.custom longRequest) := by
    apply accepts_custom
    have htext := Wire.length_writeText_le longRequest.command
    rw [length_command_longRequest] at htext
    rw [CustomMessage.write, List.length_append]
    exact Nat.le_trans (Nat.add_le_add_right htext _) (by decide)
  refine ⟨frame, hencode, fun hdecode => ?_⟩
  exact (decode_encode_iff_not_overlong hnamed hencode).1.mp hdecode hlong

end Frame

end ObjectRelay
