import ObjectRelay.Proofs.Bytes.BigEndian
import ObjectRelay.Proofs.Text.Utf8
import ObjectRelay.Proofs.Wire.Reading
import ObjectRelay.Wire.Counted

namespace ObjectRelay

namespace Reader

variable {α : Type} {bytes rest : Bytes}

theorem pure_eq_ok_iff {given value : α} :
    (pure given : Reader α) bytes = .ok value rest ↔ value = given ∧
    rest = bytes := by
  constructor
  · intro h
    cases h
    exact ⟨rfl, rfl⟩
  · intro hwritten
    obtain ⟨rfl, rfl⟩ := hwritten
    rfl

theorem need_eq_ok_iff {count : Nat} {field : String} {done : Unit} :
    need count field bytes = .ok done rest ↔ rest = bytes ∧
    count ≤ bytes.length := by
  unfold need
  split
  · rename_i hcount
    rw [Bytes.hasAtLeast_iff] at hcount
    constructor
    · intro h
      cases h
      exact ⟨rfl, hcount⟩
    · intro hwritten
      obtain ⟨rfl, -⟩ := hwritten
      rfl
  · rename_i hcount
    rw [Bytes.hasAtLeast_iff] at hcount
    simp [hcount]

theorem split_iff {count : Nat} {first : Bytes}
    (hcount : count ≤ bytes.length) :
    bytes.take count = first ∧ bytes.drop count = rest ↔
      bytes = first ++ rest ∧ first.length = count := by
  constructor
  · intro hread
    obtain ⟨rfl, rfl⟩ := hread
    exact ⟨(List.take_append_drop count bytes).symm,
      List.length_take_of_le hcount⟩
  · intro hwritten
    obtain ⟨rfl, rfl⟩ := hwritten
    simp

theorem take_eq_ok_iff {count : Nat} {field : String} {taken : Bytes} :
    take count field bytes = .ok taken rest ↔ bytes = taken ++ rest ∧
    taken.length = count := by
  unfold take
  split
  · rename_i hcount
    rw [Bytes.hasAtLeast_iff] at hcount
    rw [EStateM.Result.ok.injEq, split_iff hcount]
  · rename_i hcount
    rw [Bytes.hasAtLeast_iff] at hcount
    simp only [reduceCtorEq, false_iff]
    intro hwritten
    obtain ⟨rfl, rfl⟩ := hwritten
    simp at hcount

theorem octets_eq_ok_iff {size : Nat} {field : String} {value : Octets size} :
    octets size field bytes = .ok value rest ↔ bytes = value.bytes ++ rest := by
  unfold octets
  split
  · rename_i hcount
    rw [Bytes.hasAtLeast_iff] at hcount
    rw [EStateM.Result.ok.injEq, Octets.ext_iff, split_iff hcount,
      value.length_bytes]
    simp
  · rename_i hcount
    rw [Bytes.hasAtLeast_iff] at hcount
    simp only [reduceCtorEq, false_iff]
    intro hwritten
    subst hwritten
    simp [value.length_bytes] at hcount

theorem number_eq_ok_iff {width : Nat} {field : String} {value : Nat} :
    number width field bytes = .ok value rest ↔
      bytes = Bytes.bigEndian width value ++ rest ∧ value < 256 ^ width := by
  unfold number
  simp only [bind_eq_ok_iff, take_eq_ok_iff, pure_eq_ok_iff]
  constructor
  · intro hread
    obtain ⟨taken, _, ⟨rfl, rfl⟩, rfl, rfl⟩ := hread
    rw [Bytes.bigEndian_toNat]
    exact ⟨rfl, taken.toNat_lt⟩
  · intro hwritten
    obtain ⟨rfl, hvalue⟩ := hwritten
    refine ⟨_, rest, ⟨rfl, Bytes.length_bigEndian width value⟩, ?_, rfl⟩
    rw [Bytes.toNat_bigEndian, Nat.mod_eq_of_lt hvalue]

theorem word_eq_ok_iff {Word : Type} {width : Nat} {field : String}
    {value : Nat} (toNat : Word → Nat) (ofNat : Nat → Word)
    (hword : ∀ value, value < 256 ^ width → toNat (ofNat value) = value)
    (hfits : ∀ word, toNat word < 256 ^ width) :
    number width field bytes = .ok value rest ↔
      ∃ word, value = toNat word ∧
        bytes = Bytes.bigEndian width (toNat word) ++ rest := by
  rw [number_eq_ok_iff]
  constructor
  · intro hread
    obtain ⟨rfl, hvalue⟩ := hread
    exact ⟨ofNat value, (hword value hvalue).symm, by rw [hword value hvalue]⟩
  · intro hwritten
    obtain ⟨word, rfl, rfl⟩ := hwritten
    exact ⟨rfl, hfits word⟩

theorem word16_eq_ok_iff {field : String} {value : Nat} :
    number 2 field bytes = .ok value rest ↔
      ∃ word : UInt16, value = word.toNat ∧
        bytes = Bytes.bigEndian 2 word.toNat ++ rest :=
  word_eq_ok_iff UInt16.toNat UInt16.ofNat (fun _ => UInt16.toNat_ofNat_of_lt')
    UInt16.toNat_lt

theorem word32_eq_ok_iff {field : String} {value : Nat} :
    number 4 field bytes = .ok value rest ↔
      ∃ word : UInt32, value = word.toNat ∧
        bytes = Bytes.bigEndian 4 word.toNat ++ rest :=
  word_eq_ok_iff UInt32.toNat UInt32.ofNat (fun _ => UInt32.toNat_ofNat_of_lt')
    UInt32.toNat_lt

theorem word64_eq_ok_iff {field : String} {value : Nat} :
    number 8 field bytes = .ok value rest ↔
      ∃ word : UInt64, value = word.toNat ∧
        bytes = Bytes.bigEndian 8 word.toNat ++ rest :=
  word_eq_ok_iff UInt64.toNat UInt64.ofNat (fun _ => UInt64.toNat_ofNat_of_lt')
    UInt64.toNat_lt

theorem all_eq_ok_iff {taken : Bytes} :
    all bytes = .ok taken rest ↔ bytes = taken ∧ rest = [] := by
  constructor
  · intro h
    cases h
    exact ⟨rfl, rfl⟩
  · intro hwritten
    obtain ⟨rfl, rfl⟩ := hwritten
    rfl

/-- The reader takes from the front what the writer puts there, and no other
bytes. -/
def Inverts (reader : Reader α) (write : α → Bytes) : Prop :=
  ∀ bytes value rest,
    reader bytes = .ok value rest ↔ bytes = write value ++ rest

/-- What a reader inverts tells where it ends, whatever follows it. -/
theorem Inverts.append_inj {reader : Reader α} {write : α → Bytes}
    (h : Inverts reader write) {left right : α} {leftRest rightRest : Bytes}
    (hsame : write left ++ leftRest = write right ++ rightRest) :
    left = right ∧ leftRest = rightRest := by
  have hleft := (h _ left leftRest).mpr rfl
  have hright := (h _ right rightRest).mpr rfl
  rw [hsame, hright] at hleft
  cases hleft
  exact ⟨rfl, rfl⟩

theorem inverts_octets (size : Nat) (field : String) :
    Inverts (octets size field) Octets.bytes :=
  fun _ _ _ => octets_eq_ok_iff

theorem collect_eq_ok_iff {item : Reader α} {write : α → Bytes}
    (h : Inverts item write) {count : Nat} {read values : List α} :
    collect item count read bytes = .ok values rest ↔
      ∃ items, values = read.reverse ++ items ∧ items.length = count ∧
        bytes = items.flatMap write ++ rest := by
  induction count generalizing bytes read with
  | zero =>
      constructor
      · intro hread
        cases hread
        exact ⟨[], by simp⟩
      · intro hwritten
        obtain ⟨items, rfl, hlength, rfl⟩ := hwritten
        rw [List.length_eq_zero_iff] at hlength
        subst hlength
        simp [collect]
  | succ count ih =>
      cases hitem : item bytes with
      | error failure middle =>
          simp only [collect, hitem, reduceCtorEq, false_iff]
          intro hwritten
          obtain ⟨items, -, hlength, hbytes⟩ := hwritten
          obtain ⟨first, others, rfl⟩ :=
            List.exists_cons_of_length_eq_add_one hlength
          rw [List.flatMap_cons, List.append_assoc] at hbytes
          rw [(h _ _ _).mpr hbytes] at hitem
          cases hitem
      | ok first middle =>
          have hfirst := (h _ _ _).mp hitem
          simp only [collect, hitem]
          rw [ih]
          constructor
          · intro hread
            obtain ⟨items, rfl, rfl, rfl⟩ := hread
            exact ⟨first :: items, by simp, rfl, by simp [hfirst]⟩
          · intro hwritten
            obtain ⟨items, rfl, hlength, hbytes⟩ := hwritten
            obtain ⟨other, others, rfl⟩ :=
              List.exists_cons_of_length_eq_add_one hlength
            rw [hfirst, List.flatMap_cons, List.append_assoc] at hbytes
            obtain ⟨rfl, rfl⟩ := h.append_inj hbytes
            exact ⟨others, by simp, by simpa using hlength, rfl⟩

theorem many_eq_ok_iff {item : Reader α} {write : α → Bytes}
    (h : Inverts item write) {count : Nat} {values : List α} :
    many count item bytes = .ok values rest ↔
      values.length = count ∧ bytes = values.flatMap write ++ rest := by
  rw [many, collect_eq_ok_iff h]
  simp

end Reader

namespace Varint

/-- The markers, each with the width and the least value of what follows it. -/
inductive Wide : Nat → Nat → Nat → Prop where
  | two : Wide 0xFD 2 0xFD
  | four : Wide 0xFE 4 0x10000
  | eight : Wide 0xFF 8 0x100000000

variable {bytes rest : Bytes} {marker width least number : Nat}

theorem exists_wide (hleast : 0xFD ≤ number) (hmost : number < UInt64.size) :
    ∃ marker width least, Wide marker width least ∧ least ≤ number ∧
      number < 256 ^ width := by
  by_cases htwo : number < 0x10000
  · exact ⟨0xFD, 2, 0xFD, .two, hleast, htwo⟩
  · by_cases hfour : number < 0x100000000
    · exact ⟨0xFE, 4, 0x10000, .four, Nat.not_lt.mp htwo, hfour⟩
    · exact ⟨0xFF, 8, 0x100000000, .eight, Nat.not_lt.mp hfour, hmost⟩

theorem Wide.marker_lt (h : Wide marker width least) : marker < 256 := by
  cases h <;> decide

theorem Wide.lt_size (h : Wide marker width least)
    (hnumber : number < 256 ^ width) :
    number < UInt64.size := by
  refine Nat.lt_of_lt_of_le hnumber ?_
  cases h <;> decide

theorem write_ofNat (h : number < UInt64.size) :
    write (UInt64.ofNat number) =
      if number < 0xFD then Bytes.bigEndian 1 number
      else if number ≤
        0xFFFF then Bytes.bigEndian 1 0xFD ++ Bytes.bigEndian 2 number
      else if number ≤
        0xFFFFFFFF then Bytes.bigEndian 1 0xFE ++ Bytes.bigEndian 4 number
      else Bytes.bigEndian 1 0xFF ++ Bytes.bigEndian 8 number := by
  have hvalue : (UInt64.ofNat number).toNat = number :=
    UInt64.toNat_ofNat_of_lt' h
  have hbyte : (UInt64.ofNat number).toUInt8 = UInt8.ofNat (number / 1) := by
    rw [Nat.div_one, UInt64.toUInt8, hvalue]
  simp only [write, UInt64.lt_iff_toNat_lt, UInt64.le_iff_toNat_le,
    hvalue, hbyte]
  rfl

theorem write_of_lt (h : number < 0xFD) :
    write (UInt64.ofNat number) = Bytes.bigEndian 1 number := by
  rw [write_ofNat (Nat.lt_trans h (by decide)), if_pos h]

theorem write_of_wide (h : Wide marker width least) (hleast : least ≤ number)
    (hmost : number < 256 ^ width) :
    write (UInt64.ofNat number) =
      Bytes.bigEndian 1 marker ++ Bytes.bigEndian width number := by
  rw [write_ofNat (h.lt_size hmost)]
  cases h with
  | two => rw [if_neg (by omega), if_pos (by omega)]
  | four => rw [if_neg (by omega), if_neg (by omega), if_pos (by omega)]
  | eight => rw [if_neg (by omega), if_neg (by omega), if_neg (by omega)]

theorem readWide_eq_ok_iff {value : UInt64} :
    readWide width least bytes = .ok value rest ↔
      ∃ number, value = UInt64.ofNat number ∧ least ≤ number ∧
        number < 256 ^ width ∧
        bytes = Bytes.bigEndian width number ++ rest := by
  unfold readWide
  rw [Reader.bind_eq_ok_iff]
  constructor
  · intro hread
    obtain ⟨number, middle, hnumber, hvalue⟩ := hread
    obtain ⟨rfl, hmost⟩ := Reader.number_eq_ok_iff.mp hnumber
    split at hvalue
    · cases hvalue
    · rename_i hleast
      cases hvalue
      exact ⟨number, rfl, Nat.not_lt.mp hleast, hmost, rfl⟩
  · intro hwritten
    obtain ⟨number, rfl, hleast, hmost, rfl⟩ := hwritten
    refine ⟨number, rest, Reader.number_eq_ok_iff.mpr ⟨rfl, hmost⟩, ?_⟩
    rw [if_neg (Nat.not_lt.mpr hleast)]
    rfl

theorem read_of_wide (h : Wide marker width least) :
    read (Bytes.bigEndian 1 marker ++ rest) = readWide width least rest := by
  have hmarker : Reader.number 1 "varint" (Bytes.bigEndian 1 marker ++ rest) =
      .ok marker rest :=
    Reader.number_eq_ok_iff.mpr ⟨rfl, h.marker_lt⟩
  unfold read
  rw [Reader.bind_ok hmarker]
  cases h <;> rfl

theorem read_of_lt (h : number < 0xFD) :
    read (Bytes.bigEndian 1 number ++ rest) =
      .ok (UInt64.ofNat number) rest := by
  have hmarker : Reader.number 1 "varint" (Bytes.bigEndian 1 number ++ rest) =
      .ok number rest :=
    Reader.number_eq_ok_iff.mpr ⟨rfl, by omega⟩
  unfold read
  rw [Reader.bind_ok hmarker, if_neg (by omega), if_neg (by omega),
    if_neg (by omega)]
  rfl

theorem inverts_read : Reader.Inverts read write := by
  intro bytes value rest
  constructor
  · intro h
    obtain ⟨marker, middle, hmarker, hvalue⟩ := Reader.bind_eq_ok_iff.mp h
    obtain ⟨rfl, hbyte⟩ := Reader.number_eq_ok_iff.mp hmarker
    split_ifs at hvalue with htwo hfour height
    · obtain ⟨number, rfl, hleast, hmost, rfl⟩ := readWide_eq_ok_iff.mp hvalue
      rw [write_of_wide .two hleast hmost, htwo, List.append_assoc]
    · obtain ⟨number, rfl, hleast, hmost, rfl⟩ := readWide_eq_ok_iff.mp hvalue
      rw [write_of_wide .four hleast hmost, hfour, List.append_assoc]
    · obtain ⟨number, rfl, hleast, hmost, rfl⟩ := readWide_eq_ok_iff.mp hvalue
      rw [write_of_wide .eight hleast hmost, height, List.append_assoc]
    · cases hvalue
      rw [write_of_lt (by omega)]
  · intro hwritten
    subst hwritten
    rw [← UInt64.ofNat_toNat (x := value)]
    by_cases hshort : value.toNat < 0xFD
    · rw [write_of_lt hshort, read_of_lt hshort]
    · obtain ⟨marker, width, least, hwide, hleast, hmost⟩ :=
        exists_wide (Nat.not_lt.mp hshort) value.toNat_lt
      rw [write_of_wide hwide hleast hmost, List.append_assoc,
        read_of_wide hwide]
      exact readWide_eq_ok_iff.mpr ⟨_, rfl, hleast, hmost, rfl⟩

theorem readAtMost_write (limit : Nat) (field : String) (value : UInt64)
    (rest : Bytes) :
    readAtMost limit field (write value ++ rest) =
      if limit < value.toNat
        then .error (.tooLarge field value.toNat limit) rest
      else .ok value.toNat rest := by
  have hread : read (write value ++ rest) = .ok value rest :=
    (inverts_read _ _ _).mpr rfl
  unfold readAtMost
  rw [Reader.bind_ok hread]
  split <;> rfl

theorem readAtMost_eq_ok_iff {limit : Nat} {field : String} {count : Nat}
    (hlimit : limit < UInt64.size) :
    readAtMost limit field bytes = .ok count rest ↔
      bytes = write (UInt64.ofNat count) ++ rest ∧ count ≤ limit := by
  constructor
  · intro h
    obtain ⟨value, middle, hvalue, hcount⟩ := Reader.bind_eq_ok_iff.mp h
    rw [inverts_read] at hvalue
    subst hvalue
    split at hcount
    · cases hcount
    · cases hcount
      rw [UInt64.ofNat_toNat]
      exact ⟨rfl, by omega⟩
  · intro hwritten
    obtain ⟨rfl, hcount⟩ := hwritten
    have hvalue : (UInt64.ofNat count).toNat = count :=
      UInt64.toNat_ofNat_of_lt' (Nat.lt_of_le_of_lt hcount hlimit)
    rw [readAtMost_write, hvalue, if_neg (Nat.not_lt.mpr hcount)]

end Varint

namespace Wire

variable {bytes rest : Bytes} {limit : Nat} {field : String}

theorem readBytes_eq_ok_iff {data : Bytes} (hlimit : limit < UInt64.size) :
    readBytes limit field bytes = .ok data rest ↔
      bytes = writeBytes data ++ rest ∧ data.length ≤ limit := by
  unfold readBytes writeBytes
  simp only [Reader.bind_eq_ok_iff, Varint.readAtMost_eq_ok_iff hlimit,
    Reader.take_eq_ok_iff]
  constructor
  · intro hread
    obtain ⟨length, _, ⟨rfl, hlength⟩, rfl, rfl⟩ := hread
    exact ⟨(List.append_assoc _ _ _).symm, hlength⟩
  · intro hwritten
    obtain ⟨rfl, hlength⟩ := hwritten
    exact ⟨data.length, data ++ rest, ⟨List.append_assoc _ _ _, hlength⟩,
      rfl, rfl⟩

theorem readText_eq_ok_iff {text : String} (hlimit : limit < UInt64.size) :
    readText limit field bytes = .ok text rest ↔
      ∃ raw, bytes = writeBytes raw ++ rest ∧ raw.length ≤ limit ∧
        text = Utf8.decode raw := by
  unfold readText
  simp only [Reader.bind_eq_ok_iff, readBytes_eq_ok_iff hlimit,
    Reader.pure_eq_ok_iff]
  constructor
  · intro hread
    obtain ⟨raw, _, ⟨rfl, hlength⟩, rfl, rfl⟩ := hread
    exact ⟨raw, rfl, hlength, rfl⟩
  · intro hwritten
    obtain ⟨raw, rfl, hlength, rfl⟩ := hwritten
    exact ⟨raw, rest, ⟨rfl, hlength⟩, rfl, rfl⟩

theorem readText_writeText {text : String} (hlimit : limit < UInt64.size)
    (hlength : (Utf8.encode text).length ≤ limit) :
    readText limit field (writeText text ++ rest) = .ok text rest :=
  (readText_eq_ok_iff hlimit).mpr ⟨_, rfl, hlength,
    (Utf8.decode_encode text).symm⟩

theorem readIntegers_eq_ok_iff {values : List UInt64}
    (hlimit : limit < UInt64.size) :
    readIntegers limit field bytes = .ok values rest ↔
      bytes = writeIntegers values ++ rest ∧ values.length ≤ limit := by
  unfold readIntegers writeIntegers
  simp only [Reader.bind_eq_ok_iff, Varint.readAtMost_eq_ok_iff hlimit,
    Reader.many_eq_ok_iff Varint.inverts_read]
  constructor
  · intro hread
    obtain ⟨count, _, ⟨rfl, hcount⟩, rfl, rfl⟩ := hread
    exact ⟨(List.append_assoc _ _ _).symm, hcount⟩
  · intro hwritten
    obtain ⟨rfl, hcount⟩ := hwritten
    exact ⟨values.length, values.flatMap Varint.write ++ rest,
      ⟨List.append_assoc _ _ _, hcount⟩, rfl, rfl⟩

theorem readAtMost_length {length : Nat} (hlong : limit < length)
    (hsize : length < UInt64.size) :
    Varint.readAtMost limit field (Varint.write (UInt64.ofNat length) ++ rest) =
      .error (.tooLarge field length limit) rest := by
  rw [Varint.readAtMost_write, UInt64.toNat_ofNat_of_lt' hsize, if_pos hlong]

theorem readText_writeText_of_lt {text : String}
    (hlong : limit < (Utf8.encode text).length)
    (hsize : (Utf8.encode text).length < UInt64.size) :
    readText limit field (writeText text ++ rest) =
      .error (.tooLarge field (Utf8.encode text).length limit)
        (Utf8.encode text ++ rest) := by
  rw [writeText, writeBytes, List.append_assoc, readText, readBytes]
  exact Reader.bind_error (Reader.bind_error (readAtMost_length hlong hsize))

theorem readIntegers_writeIntegers_of_lt {values : List UInt64}
    (hlong : limit < values.length) (hsize : values.length < UInt64.size) :
    readIntegers limit field (writeIntegers values ++ rest) =
      .error (.tooLarge field values.length limit)
        (values.flatMap Varint.write ++ rest) := by
  rw [writeIntegers, List.append_assoc, readIntegers]
  exact Reader.bind_error (readAtMost_length hlong hsize)

end Wire

end ObjectRelay
