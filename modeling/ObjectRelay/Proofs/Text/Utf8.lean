import ObjectRelay.Text.Utf8

namespace ObjectRelay

namespace Utf8

variable {read : List Char} {bits value : Nat} {low high : UInt8}

theorem toNat_ofNat_byte (h : value < 256) :
    (UInt8.ofNat value).toNat = value :=
  UInt8.toNat_ofNat_of_lt' h

theorem lead_one (h : value < 0x80) :
    lead (UInt8.ofNat value) read = (Char.ofNat value :: read, .none) := by
  have hbyte := toNat_ofNat_byte (show value < 256 by omega)
  simp [lead, UInt8.lt_iff_toNat_lt, hbyte, h]

theorem lead_two (hlow : 0xC2 ≤ value) (hhigh : value < 0xE0) :
    lead (UInt8.ofNat value) read =
      (read, .continuation 0 0x80 0xBF (value - 0xC0)) := by
  have hbyte := toNat_ofNat_byte (show value < 256 by omega)
  have hone : ¬ value < 0x80 := by omega
  have hlone : ¬ value < 0xC2 := by omega
  simp [lead, UInt8.lt_iff_toNat_lt, hbyte, hone, hlone, hhigh]

theorem lead_three (hlow : 0xE0 ≤ value) (hhigh : value < 0xF0) :
    lead (UInt8.ofNat value) read =
      (read, .continuation 1 (if value = 0xE0 then 0xA0 else 0x80)
        (if value = 0xED then 0x9F else 0xBF) (value - 0xE0)) := by
  have hbyte := toNat_ofNat_byte (show value < 256 by omega)
  have hone : ¬ value < 0x80 := by omega
  have hlone : ¬ value < 0xC2 := by omega
  have htwo : ¬ value < 0xE0 := by omega
  simp [lead, UInt8.lt_iff_toNat_lt, ← UInt8.toNat_inj, hbyte, hone, hlone,
    htwo, hhigh]

theorem lead_four (hlow : 0xF0 ≤ value) (hhigh : value < 0xF5) :
    lead (UInt8.ofNat value) read =
      (read, .continuation 2 (if value = 0xF0 then 0x90 else 0x80)
        (if value = 0xF4 then 0x8F else 0xBF) (value - 0xF0)) := by
  have hbyte := toNat_ofNat_byte (show value < 256 by omega)
  have hone : ¬ value < 0x80 := by omega
  have hlone : ¬ value < 0xC2 := by omega
  have htwo : ¬ value < 0xE0 := by omega
  have hthree : ¬ value < 0xF0 := by omega
  simp [lead, UInt8.lt_iff_toNat_lt, ← UInt8.toNat_inj, hbyte, hone, hlone,
    htwo, hthree, hhigh]

theorem continues (hlow : low.toNat ≤ value) (hhigh : value ≤ high.toNat) :
    (low ≤ UInt8.ofNat value ∧ UInt8.ofNat value ≤ high) ∧
      (UInt8.ofNat value).toNat = value := by
  have hsize := high.toNat_lt
  have hbyte := toNat_ofNat_byte (show value < 256 by omega)
  rw [UInt8.le_iff_toNat_le, UInt8.le_iff_toNat_le, hbyte]
  exact ⟨⟨hlow, hhigh⟩, rfl⟩

theorem advance_last (hlow : low.toNat ≤ value) (hhigh : value ≤ high.toNat) :
    advance (read, .continuation 0 low high bits) (UInt8.ofNat value) =
      (Char.ofNat (bits * 64 + (value - 0x80)) :: read, .none) := by
  obtain ⟨hrange, hbyte⟩ := continues hlow hhigh
  simp only [advance, if_pos hrange, hbyte]

theorem advance_next {more : Nat} (hlow : low.toNat ≤ value)
    (hhigh : value ≤ high.toNat) :
    advance (read, .continuation (more + 1) low high bits) (UInt8.ofNat value) =
      (read, .continuation more 0x80 0xBF (bits * 64 + (value - 0x80))) := by
  obtain ⟨hrange, hbyte⟩ := continues hlow hhigh
  simp only [advance, if_pos hrange, hbyte]

theorem foldl_advance_utf8EncodeChar (character : Char) (read : List Char) :
    (String.utf8EncodeChar character).foldl advance (read, .none) =
      (character :: read, .none) := by
  have hvalid : character.toNat < 0xD800 ∨ 0xDFFF < character.toNat ∧
      character.toNat < 0x110000 :=
    character.valid
  have hsame : Char.ofNat character.toNat = character :=
    Char.ofNat_toNat character
  have hvalue : character.val.toNat = character.toNat := rfl
  rw [String.utf8EncodeChar, hvalue]
  generalize character.toNat = value at hvalid hsame
  by_cases hone : value ≤ 127
  · rw [if_pos hone, List.foldl_cons, advance, lead_one (by omega), hsame]
    rfl
  rw [if_neg hone]
  by_cases htwo : value ≤ 2047
  · rw [if_pos htwo, List.foldl_cons, advance, lead_two (by omega) (by omega),
      List.foldl_cons, advance_last (by simp) (by simp; omega),
      show (value / 64 % 32 + 192 - 0xC0) * 64 + (value % 64 + 128 - 0x80) =
        value by omega,
      hsame]
    rfl
  rw [if_neg htwo]
  by_cases hthree : value ≤ 65535
  · rw [if_pos hthree, List.foldl_cons, advance,
      lead_three (by omega) (by omega), List.foldl_cons, advance_next ?_ ?_,
      List.foldl_cons, advance_last (by simp) (by simp; omega),
      show ((value / 4096 % 16 + 224 - 0xE0) * 64 +
        (value / 64 % 64 + 128 - 0x80)) * 64 +
        (value % 64 + 128 - 0x80) = value by omega, hsame]
    · rfl
    · split
      · simp
        omega
      · simp
    · split
      · simp
        omega
      · simp
        omega
  · rw [if_neg hthree, List.foldl_cons, advance,
      lead_four (by omega) (by omega), List.foldl_cons, advance_next ?_ ?_,
      List.foldl_cons, advance_next (by simp) (by simp; omega),
      List.foldl_cons, advance_last (by simp) (by simp; omega),
      show (((value / 262144 % 8 + 240 - 0xF0) * 64 +
        (value / 4096 % 64 + 128 - 0x80)) * 64 +
        (value / 64 % 64 + 128 - 0x80)) * 64 + (value % 64 + 128 - 0x80) =
          value by omega, hsame]
    · rfl
    · split
      · simp
        omega
      · simp
    · split
      · simp
        omega
      · simp
        omega

theorem foldl_advance_flatMap (characters read : List Char) :
    (characters.flatMap String.utf8EncodeChar).foldl advance (read, .none) =
      (characters.reverse ++ read, .none) := by
  induction characters generalizing read with
  | nil => rfl
  | cons character rest ih =>
      rw [List.flatMap_cons, List.foldl_append,
        foldl_advance_utf8EncodeChar, ih, List.reverse_cons, List.append_assoc]
      rfl

theorem decode_encode (text : String) : decode (encode text) = text := by
  rw [decode, encode, foldl_advance_flatMap]
  simp

theorem utf8EncodeChar_of_lt {character : Char} (h : character.toNat < 0x80) :
    String.utf8EncodeChar character = [UInt8.ofNat character.toNat] := by
  have hvalue : character.val.toNat = character.toNat := rfl
  rw [String.utf8EncodeChar, hvalue, if_pos (by omega)]

theorem encode_eq_map {text : String}
    (h : ∀ character ∈ text.toList, character.toNat < 0x80) :
    encode text = text.toList.map fun character =>
      UInt8.ofNat character.toNat := by
  unfold encode
  generalize text.toList = characters at h
  induction characters with
  | nil => rfl
  | cons first rest ih =>
      have hrest : ∀ character ∈ rest, character.toNat < 0x80 :=
        fun character hmem => h character (List.mem_cons_of_mem first hmem)
      rw [List.flatMap_cons, utf8EncodeChar_of_lt (h first List.mem_cons_self),
        ih hrest]
      rfl

/-- The bytes of some text. -/
def Valid (bytes : Bytes) : Prop :=
  ∃ text, encode text = bytes

theorem encode_decode {bytes : Bytes} (h : Valid bytes) :
    encode (decode bytes) = bytes := by
  obtain ⟨text, rfl⟩ := h
  rw [decode_encode]

theorem valid_of_ascii {bytes : Bytes} (h : ∀ byte ∈ bytes, byte.toNat < 0x80) :
    Valid bytes := by
  have hcharacter : ∀ byte ∈ bytes, (Char.ofNat byte.toNat).toNat =
      byte.toNat := by
    intro byte hmem
    have hascii := h byte hmem
    rw [Char.ofNat, dif_pos (.inl (by omega))]
    rfl
  refine ⟨String.ofList (bytes.map fun byte => Char.ofNat byte.toNat), ?_⟩
  rw [encode_eq_map]
  · rw [String.toList_ofList, List.map_map]
    refine (List.map_congr_left fun byte hmem => ?_).trans (List.map_id bytes)
    rw [Function.comp_apply, hcharacter byte hmem, UInt8.ofNat_toNat]
    rfl
  · intro character hmem
    rw [String.toList_ofList] at hmem
    obtain ⟨byte, hbyte, rfl⟩ := List.mem_map.mp hmem
    rw [hcharacter byte hbyte]
    exact h byte hbyte

end Utf8

end ObjectRelay
