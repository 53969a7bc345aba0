import ObjectRelay.Frame.Codec

namespace ObjectRelay

namespace Frame

/-- Where the search for the magic stops. -/
def Begins (magic tail : Bytes) : Prop :=
  magic <+: tail ∨ tail <+: magic

theorem begins_of_append {magic tail more : Bytes}
    (h : Begins magic (tail ++ more)) :
    Begins magic tail := by
  rcases h with hmagic | htail
  · exact List.prefix_or_prefix_of_prefix hmagic (List.prefix_append tail more)
  · exact .inr ((List.prefix_append tail more).trans htail)

theorem seek_cons (magic : Bytes) (byte : UInt8) (rest : Bytes) :
    (Begins magic (byte :: rest) ∧ seek magic (byte :: rest) = byte :: rest) ∨
      (¬ Begins magic (byte :: rest) ∧
        seek magic (byte :: rest) = seek magic rest) := by
  by_cases hbegins : Begins magic (byte :: rest)
  · refine .inl ⟨hbegins, ?_⟩
    have hstop : (magic.isPrefixOf (byte :: rest) ||
        (byte :: rest).isPrefixOf magic) = true := by
      simpa [Begins] using hbegins
    rw [seek, if_pos hstop]
  · refine .inr ⟨hbegins, ?_⟩
    have hgo : ¬ (magic.isPrefixOf (byte :: rest) ||
        (byte :: rest).isPrefixOf magic) = true := by
      simpa [Begins] using hbegins
    rw [seek, if_neg hgo]

theorem seek_of_begins {magic tail : Bytes} (h : Begins magic tail) :
    seek magic tail = tail := by
  cases tail with
  | nil => rfl
  | cons byte rest =>
      rcases seek_cons magic byte rest with ⟨_, hseek⟩ | ⟨hnot, _⟩
      · exact hseek
      · exact absurd h hnot

theorem begins_seek (magic buffer : Bytes) :
    Begins magic (seek magic buffer) := by
  induction buffer with
  | nil => exact .inr (List.nil_prefix)
  | cons byte rest ih =>
      rcases seek_cons magic byte rest with ⟨hbegins, hseek⟩ | ⟨_, hseek⟩
      · rwa [hseek]
      · rwa [hseek]

theorem seek_append (magic buffer more : Bytes) :
    seek magic (buffer ++ more) = seek magic (seek magic buffer ++ more) := by
  induction buffer with
  | nil => rfl
  | cons byte rest ih =>
      rcases seek_cons magic byte rest with ⟨_, hseek⟩ | ⟨hnot, hseek⟩
      · rw [hseek]
      · rcases seek_cons magic byte (rest ++ more) with
          ⟨hbegins, _⟩ | ⟨_, hlonger⟩
        · exact absurd (begins_of_append hbegins) hnot
        · rw [List.cons_append, hlonger, hseek, ih]

theorem seek_suffix (magic buffer : Bytes) : seek magic buffer <:+ buffer := by
  induction buffer with
  | nil => exact List.suffix_refl []
  | cons byte rest ih =>
      rcases seek_cons magic byte rest with ⟨_, hseek⟩ | ⟨_, hseek⟩
      · exact hseek.symm ▸ List.suffix_refl _
      · rw [hseek]
        exact ih.trans (List.suffix_cons byte rest)

theorem length_le_seek {magic buffer tail : Bytes} (htail : tail <:+ buffer)
    (hbegins : Begins magic tail) :
    tail.length ≤ (seek magic buffer).length := by
  induction buffer with
  | nil => exact htail.length_le
  | cons byte rest ih =>
      rcases seek_cons magic byte rest with ⟨_, hseek⟩ | ⟨hnot, hseek⟩
      · rw [hseek]
        exact htail.length_le
      · rw [hseek]
        rcases List.suffix_cons_iff.mp htail with rfl | hrest
        · exact absurd hbegins hnot
        · exact ih hrest

theorem prefix_seek {magic buffer : Bytes}
    (h : magic.length ≤ (seek magic buffer).length) :
    magic <+: seek magic buffer := by
  rcases begins_seek magic buffer with hmagic | htail
  · exact hmagic
  · have hsame := htail.eq_of_length (Nat.le_antisymm htail.length_le h)
    exact ⟨[], by rw [hsame, List.append_nil]⟩

theorem seek_append_of_length_le {magic buffer : Bytes} (more : Bytes)
    (h : magic.length ≤ (seek magic buffer).length) :
    seek magic (buffer ++ more) = seek magic buffer ++ more := by
  rw [seek_append]
  exact seek_of_begins (.inl ((prefix_seek h).trans (List.prefix_append _ _)))

/-- No end of the magic is a beginning of it. -/
def Unbordered (magic : Bytes) : Prop :=
  ∀ border, border <+: magic → border <:+ magic → border = [] ∨ border = magic

theorem unbordered_cons {first : UInt8} {others : Bytes} (h : first ∉ others) :
    Unbordered (first :: others) := by
  intro border hahead hsuffix
  cases border with
  | nil => exact .inl rfl
  | cons byte rest =>
      obtain ⟨rfl, -⟩ := List.cons_prefix_cons.mp hahead
      rcases List.suffix_cons_iff.mp hsuffix with hsame | hothers
      · exact .inr hsame
      · exact absurd (hothers.subset List.mem_cons_self) h

theorem unbordered_networkMagic : Unbordered networkMagic.bytes :=
  unbordered_cons (by decide)

theorem Unbordered.eq_nil_or_infix {magic garbage rest : Bytes}
    (hmagic : Unbordered magic) (h : magic <+: garbage ++ (magic ++ rest)) :
    garbage = [] ∨ magic <:+: garbage := by
  rcases List.prefix_or_prefix_of_prefix h
    (List.prefix_append garbage (magic ++ rest)) with
    hinside | hover
  · exact .inr hinside.isInfix
  · obtain ⟨border, hborder⟩ := hover
    have hwithin : garbage ++ border <+: garbage ++ (magic ++ rest) := by
      rw [hborder]
      exact h
    have hlength := congrArg List.length hborder
    rw [List.length_append] at hlength
    have hahead : border <+: magic :=
      List.prefix_of_prefix_length_le
        ((List.prefix_append_right_inj _).mp hwithin)
        (List.prefix_append magic rest) (by omega)
    rcases hmagic border hahead ⟨garbage, hborder⟩ with rfl | rfl
    · rw [List.append_nil] at hborder
      exact .inr (hborder ▸ List.infix_rfl)
    · exact .inl (List.length_eq_zero_iff.mp (by omega))

theorem seek_append_magic {magic garbage : Bytes} (hmagic : Unbordered magic)
    (hgarbage : ¬ magic <:+: garbage) (rest : Bytes) :
    seek magic (garbage ++ (magic ++ rest)) = magic ++ rest := by
  induction garbage with
  | nil => exact seek_of_begins (.inl (List.prefix_append magic rest))
  | cons byte garbage ih =>
      have hlater : ¬ magic <:+: garbage :=
        fun hinside =>
          hgarbage (hinside.trans (List.suffix_cons byte garbage).isInfix)
      rcases seek_cons magic byte (garbage ++ (magic ++ rest)) with
        ⟨hbegins, _⟩ | ⟨_, hseek⟩
      · rcases hbegins with hwhole | hshort
        · have hcases : byte :: garbage = [] ∨ magic <:+: byte :: garbage :=
            hmagic.eq_nil_or_infix hwhole
          cases hcases with
          | inl hnil => cases hnil
          | inr hinside => exact absurd hinside hgarbage
        · have hlength := hshort.length_le
          simp only [List.length_cons, List.length_append] at hlength
          omega
      · rw [List.cons_append, hseek, ih hlater]

variable {hasher : Hasher} {magic : Magic} {buffer : Bytes}

theorem decode_eq_of_seek_eq {left right : Bytes}
    (h : seek magic.bytes left = seek magic.bytes right) :
    decode hasher magic left = decode hasher magic right := by
  unfold decode
  rw [h]

theorem take_drop_append {frame : Bytes} {start count : Nat} (more : Bytes)
    (h : start + count ≤ frame.length) :
    ((frame ++ more).drop start).take count =
      (frame.drop start).take count := by
  rw [List.drop_append_of_le_length (by omega),
    List.take_append_of_le_length (by rw [List.length_drop]; omega)]

theorem seek_append_of_header (more : Bytes)
    (h : headerSize ≤ (seek magic.bytes buffer).length) :
    seek magic.bytes (buffer ++ more) = seek magic.bytes buffer ++ more := by
  apply seek_append_of_length_le
  rw [magic.length_bytes]
  exact Nat.le_trans (by decide) h

theorem judge_append {frame : Bytes} (hasher : Hasher) (more : Bytes)
    (hheader : headerSize ≤ frame.length) :
    match judge hasher frame with
    | .message message rest =>
      judge hasher (frame ++ more) = .message message (rest ++ more)
    | .failed failure rest =>
      judge hasher (frame ++ more) = .failed failure (rest ++ more)
    | .needMore rest => rest = frame := by
  have hcommand : ((frame ++ more).drop 4).take Command.fieldSize =
      (frame.drop 4).take Command.fieldSize :=
    take_drop_append more (Nat.le_trans (by decide) hheader)
  have hlength : ((frame ++ more).drop 16).take 4 = (frame.drop 16).take 4 :=
    take_drop_append more (Nat.le_trans (by decide) hheader)
  have hchecksum : ((frame ++ more).drop 20).take 4 = (frame.drop 20).take 4 :=
    take_drop_append more (Nat.le_trans (by decide) hheader)
  have hbody : (frame ++ more).drop headerSize =
      frame.drop headerSize ++ more :=
    List.drop_append_of_le_length hheader
  unfold judge
  rw [hcommand, hlength, hchecksum, hbody]
  cases hread : Command.read ((frame.drop 4).take Command.fieldSize) with
  | error failure => simp
  | ok command =>
      generalize Bytes.toNat ((frame.drop 16).take 4) = length
      generalize (frame.drop 20).take 4 = expected
      generalize frame.drop headerSize = body
      dsimp only
      by_cases hlarge : largestPayload < length
      · simp [hlarge]
      · by_cases hwhole : length ≤ body.length
        · have hlonger : length ≤ (body ++ more).length := by
            rw [List.length_append]
            omega
          rw [List.take_append_of_le_length hwhole,
            List.drop_append_of_le_length hwhole]
          simp only [if_neg hlarge, Bytes.hasAtLeast_iff, if_pos hwhole,
            if_pos hlonger]
          by_cases hsum : checksum hasher (body.take length) = expected
          · simp only [if_pos hsum]
            cases Message.read command (body.take length) with
            | error failure => rfl
            | ok message => rfl
          · simp only [if_neg hsum]
        · simp only [if_neg hlarge, Bytes.hasAtLeast_iff, if_neg hwhole]

/-- More bytes change no judgement; where none was made, only the part from the
first possible magic on counts. -/
theorem decode_append (hasher : Hasher) (magic : Magic) (buffer more : Bytes) :
    decode hasher magic (buffer ++ more) =
      match decode hasher magic buffer with
      | .message message rest => .message message (rest ++ more)
      | .failed failure rest => .failed failure (rest ++ more)
      | .needMore rest => decode hasher magic (rest ++ more) := by
  have hagain : decode hasher magic (buffer ++ more) =
      decode hasher magic (seek magic.bytes buffer ++ more) :=
    decode_eq_of_seek_eq (seek_append magic.bytes buffer more)
  by_cases hheader : headerSize ≤ (seek magic.bytes buffer).length
  · have hlonger : headerSize ≤ (seek magic.bytes buffer ++ more).length := by
      rw [List.length_append]
      omega
    have hshort : decode hasher magic buffer =
        judge hasher (seek magic.bytes buffer) := by
      simp only [decode, Bytes.hasAtLeast_iff, if_pos hheader]
    have hlong : decode hasher magic (buffer ++ more) =
        judge hasher (seek magic.bytes buffer ++ more) := by
      simp only [decode, seek_append_of_header more hheader,
        Bytes.hasAtLeast_iff, if_pos hlonger]
    have hjudge := judge_append hasher more hheader
    rw [hshort]
    cases hcase : judge hasher (seek magic.bytes buffer) with
    | message message rest =>
        rw [hcase] at hjudge
        exact hlong.trans hjudge
    | failed failure rest =>
        rw [hcase] at hjudge
        exact hlong.trans hjudge
    | needMore rest =>
        rw [hcase] at hjudge
        have hrest : rest = seek magic.bytes buffer := hjudge
        rw [hrest]
        exact hagain
  · have hneed : decode hasher magic buffer =
        .needMore (seek magic.bytes buffer) := by
      simp only [decode, Bytes.hasAtLeast_iff, if_neg hheader]
    rw [hneed]
    exact hagain

end Frame

end ObjectRelay
