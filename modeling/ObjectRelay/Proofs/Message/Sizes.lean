import Mathlib.Tactic.SplitIfs
import ObjectRelay.Frame.Codec
import ObjectRelay.Proofs.Wire.Reading

namespace ObjectRelay

namespace Varint

theorem length_write (value : UInt64) : (write value).length = size value := by
  unfold write size
  split
  · rfl
  · split
    · simp
    · split <;> simp

theorem size_le_nine (value : UInt64) : size value ≤ 9 := by
  unfold size
  split
  · decide
  · split
    · decide
    · split <;> decide

theorem one_le_size (value : UInt64) : 1 ≤ size value := by
  unfold size
  split
  · decide
  · split
    · decide
    · split <;> decide

theorem size_ofNat_le_three {value : Nat} (h : value ≤ 0xFFFF) :
    size (UInt64.ofNat value) ≤ 3 := by
  have hsmall : UInt64.ofNat value ≤ 0xFFFF := by
    rw [UInt64.le_iff_toNat_le,
      UInt64.toNat_ofNat_of_lt' (by simp only [UInt64.size]; omega)]
    exact h
  unfold size
  rw [if_pos hsmall]
  split <;> decide

end Varint

theorem length_flatMap_le {α β : Type} {items : List α} {write : α → List β}
    {bound : Nat} (h : ∀ item ∈ items, (write item).length ≤ bound) :
    (items.flatMap write).length ≤ items.length * bound := by
  induction items with
  | nil => simp
  | cons item rest ih =>
      have hitem := h item List.mem_cons_self
      have hrest := ih fun other hmem =>
        h other (List.mem_cons_of_mem item hmem)
      rw [List.flatMap_cons, List.length_append, List.length_cons, Nat.succ_mul]
      omega

namespace PeerRecord

@[simp] theorem length_writeShort (record : PeerRecord) :
    record.writeShort.length = shortSize := by
  simp [writeShort, record.ip.length_bytes, shortSize]

@[simp] theorem length_writeFull (record : PeerRecord) :
    record.writeFull.length = fullSize := by
  simp [writeFull, fullSize, shortSize]

end PeerRecord

theorem Wire.length_writeText_le (text : String) :
    (writeText text).length ≤ 9 + (Utf8.encode text).length := by
  rw [writeText, writeBytes, List.length_append, Varint.length_write]
  exact Nat.add_le_add_right (Varint.size_le_nine _) _

theorem Wire.length_writeIntegers_le (values : List UInt64) :
    (writeIntegers values).length ≤ 9 + values.length * 9 := by
  rw [writeIntegers, List.length_append, Varint.length_write]
  refine Nat.add_le_add (Varint.size_le_nine _)
    (length_flatMap_le fun value _ => ?_)
  rw [Varint.length_write]
  exact Varint.size_le_nine value

theorem Wire.length_le_writeIntegers (values : List UInt64) :
    values.length ≤ (writeIntegers values).length := by
  have hvalues : values.length ≤ (values.flatMap Varint.write).length := by
    induction values with
    | nil => exact Nat.le_refl 0
    | cons value rest ih =>
        have hvalue := Varint.one_le_size value
        rw [List.flatMap_cons, List.length_append, List.length_cons,
          Varint.length_write]
        omega
  rw [writeIntegers, List.length_append]
  omega

theorem Greeting.length_write_le (greeting : Greeting) :
    greeting.write.length ≤
      98 + (Utf8.encode greeting.userAgent).length +
        greeting.streams.length * 9 := by
  have htext := Wire.length_writeText_le greeting.userAgent
  have hstreams := Wire.length_writeIntegers_le greeting.streams
  simp only [Greeting.write, List.length_append, Bytes.length_bigEndian,
    PeerRecord.length_writeShort, PeerRecord.shortSize]
  omega

namespace Message

theorem length_writeRecords_le {records : List PeerRecord}
    (h : records.length ≤ mostAddresses) :
    (writeRecords records).length ≤
      3 + mostAddresses * PeerRecord.fullSize := by
  rw [mostAddresses] at h
  rw [writeRecords, List.length_append, Varint.length_write]
  refine Nat.add_le_add (Varint.size_ofNat_le_three (by omega)) ?_
  calc
    _ ≤ records.length * PeerRecord.fullSize :=
      length_flatMap_le fun record _ => Nat.le_of_eq record.length_writeFull
    _ ≤ mostAddresses * PeerRecord.fullSize := Nat.mul_le_mul_right _ h

theorem length_writeVectors_le {vectors : List InventoryVector}
    (h : vectors.length ≤ mostVectors) :
    (writeVectors vectors).length ≤ 3 + mostVectors * 32 := by
  rw [mostVectors] at h
  rw [writeVectors, List.length_append, Varint.length_write]
  refine Nat.add_le_add (Varint.size_ofNat_le_three (by omega)) ?_
  calc
    _ ≤ vectors.length * 32 :=
        length_flatMap_le fun vector _ => Nat.le_of_eq vector.length_bytes
    _ ≤ mostVectors * 32 := Nat.mul_le_mul_right _ h

theorem command_of_reader? {command : String} {reader : Reader Message}
    {message : Message} {bytes rest : Bytes}
    (hreader : reader? command = some reader)
    (h : reader bytes = .ok message rest) : message.command = command := by
  unfold reader? at hreader
  split_ifs at hreader with hversion hverack haddr hinv hgetdata hobject hcustom
  · cases hreader
    obtain ⟨_, -, rfl⟩ := Reader.map_eq_ok_iff.mp h
    exact hversion.symm
  · cases hreader
    cases h
    exact hverack.symm
  · cases hreader
    obtain ⟨_, -, rfl⟩ := Reader.map_eq_ok_iff.mp h
    exact haddr.symm
  · cases hreader
    obtain ⟨_, -, rfl⟩ := Reader.map_eq_ok_iff.mp h
    exact hinv.symm
  · cases hreader
    obtain ⟨_, -, rfl⟩ := Reader.map_eq_ok_iff.mp h
    exact hgetdata.symm
  · cases hreader
    obtain ⟨_, -, rfl⟩ := Reader.map_eq_ok_iff.mp h
    exact hobject.symm
  · cases hreader
    obtain ⟨_, -, rfl⟩ := Reader.map_eq_ok_iff.mp h
    exact hcustom.symm

theorem length_of_readVectors {bytes rest : Bytes}
    {vectors : List InventoryVector} (h : readVectors bytes =
      .ok vectors rest) : vectors.length ≤ mostVectors := by
  obtain ⟨count, _, hcount, hvectors⟩ := Reader.bind_eq_ok_iff.mp h
  obtain ⟨_, _, -, hmany⟩ := Reader.bind_eq_ok_iff.mp hvectors
  rw [Reader.length_many hmany]
  exact Varint.le_of_readAtMost hcount

theorem length_of_read_inv {command : String} {payload : Bytes}
    {vectors : List InventoryVector} (h : read command payload =
      .ok (.inv vectors)) : vectors.length ≤ mostVectors := by
  unfold read at h
  split at h
  · cases h
  · rename_i reader hreader
    split at h
    · rename_i message hread
      cases h
      have hcommand : "inv" = command := command_of_reader? hreader hread
      subst hcommand
      cases hreader
      obtain ⟨read, hvectors, hsame⟩ := Reader.map_eq_ok_iff.mp hread
      cases hsame
      exact length_of_readVectors hvectors
    · cases h
    · cases h

end Message

namespace Object

@[simp] theorem length_body (object : Object) :
    object.body.length = object.bodyLength := by
  simp [body, bodyLength, Varint.length_write]
  omega

theorem exists_write {object : Object} (h : object.nonce?.isSome = true) :
    ∃ bytes, object.write = .ok bytes ∧
      bytes.length = 8 + object.bodyLength := by
  obtain ⟨nonce, hnonce⟩ := Option.isSome_iff_exists.mp h
  refine ⟨nonce.bytes ++ object.body, by rw [write, hnonce], ?_⟩
  rw [List.length_append, nonce.length_bytes, length_body]

end Object

namespace Frame

def Accepts (hasher : Hasher) (magic : Magic) (message : Message) : Prop :=
  ∃ frame, encode hasher magic message = .ok frame

variable {hasher : Hasher} {magic : Magic} {message : Message}

theorem accepts_iff :
    Accepts hasher magic message ↔
      (∃ field, Command.write message.command = .ok field) ∧
        ∃ payload, message.write = .ok payload ∧
          payload.length ≤ largestPayload := by
  unfold Accepts encode
  cases hcommand : Command.write message.command with
  | error failure => simp [Except.mapError, bind, Except.bind]
  | ok field =>
      cases hpayload : message.write with
      | error failure => simp [Except.mapError, bind, Except.bind]
      | ok payload =>
          by_cases hlength : largestPayload < payload.length
          · simp [Except.mapError, bind, Except.bind, hlength]
          · simp [Except.mapError, bind, Except.bind, hlength, pure,
              Except.pure]
            omega

theorem exists_read_of_judge {frame rest : Bytes}
    (h : judge hasher frame = .message message rest) :
    ∃ command payload, Message.read command payload = .ok message := by
  unfold judge at h
  split at h
  · cases h
  · dsimp only at h
    split_ifs at h
    · split at h
      · rename_i hread
        cases h
        exact ⟨_, _, hread⟩
      · cases h

theorem exists_read_of_decode {buffer rest : Bytes}
    (h : decode hasher magic buffer = .message message rest) :
    ∃ command payload, Message.read command payload = .ok message := by
  unfold decode at h
  dsimp only at h
  split at h
  · exact exists_read_of_judge h
  · cases h

/-- An announcement that came over the wire is never too long to be answered. -/
theorem length_of_decode_inv {buffer rest : Bytes}
    {vectors : List InventoryVector}
    (h : decode hasher magic buffer = .message (.inv vectors) rest) :
    vectors.length ≤ Message.mostVectors := by
  obtain ⟨command, payload, hread⟩ := exists_read_of_decode h
  exact Message.length_of_read_inv hread

theorem isOk_write_command
    (hknown : ∀ command payload, message ≠ .unknown command payload) :
    (Command.write message.command).isOk = true := by
  cases message with
  | version greeting =>
      exact (by decide : (Command.write "version").isOk = true)
  | verack => exact (by decide : (Command.write "verack").isOk = true)
  | addr records => exact (by decide : (Command.write "addr").isOk = true)
  | inv vectors => exact (by decide : (Command.write "inv").isOk = true)
  | getdata vectors => exact (by decide : (Command.write "getdata").isOk = true)
  | object object => exact (by decide : (Command.write "object").isOk = true)
  | custom message => exact (by decide : (Command.write "custom").isOk = true)
  | unknown command payload => exact absurd rfl (hknown command payload)

theorem accepts_of_write {payload : Bytes}
    (hknown : ∀ command payload, message ≠ .unknown command payload)
    (hpayload : message.write = .ok payload)
    (hlength : payload.length ≤ largestPayload) :
    Accepts hasher magic message := by
  refine accepts_iff.mpr ⟨?_, payload, hpayload, hlength⟩
  have hcommand := isOk_write_command hknown
  cases hfield : Command.write message.command with
  | ok field => exact ⟨field, rfl⟩
  | error failure => simp [hfield, Except.isOk, Except.toBool] at hcommand

theorem accepts_version {greeting : Greeting}
    (huserAgent : (Utf8.encode greeting.userAgent).length ≤
      Greeting.longestUserAgent)
    (hstreams : greeting.streams.length ≤ Greeting.mostStreams) :
    Accepts hasher magic (.version greeting) := by
  refine accepts_of_write (by simp) rfl ?_
  have hlength := greeting.length_write_le
  simp only [Greeting.longestUserAgent, Greeting.mostStreams,
    largestPayload] at *
  omega

theorem accepts_verack : Accepts hasher magic .verack :=
  accepts_of_write (by simp) rfl (Nat.zero_le largestPayload)

theorem accepts_addr {records : List PeerRecord}
    (h : records.length ≤ Message.mostAddresses) :
    Accepts hasher magic (.addr records) := by
  refine accepts_of_write (by simp) (if_neg (Nat.not_lt.mpr h)) ?_
  exact Nat.le_trans (Message.length_writeRecords_le h) (by decide)

theorem accepts_inv {vectors : List InventoryVector}
    (h : vectors.length ≤ Message.mostVectors) :
    Accepts hasher magic (.inv vectors) := by
  refine accepts_of_write (by simp) (if_neg (Nat.not_lt.mpr h)) ?_
  exact Nat.le_trans (Message.length_writeVectors_le h) (by decide)

theorem accepts_getdata_iff {vectors : List InventoryVector} :
    Accepts hasher magic (.getdata vectors) ↔
    vectors.length ≤ Message.mostVectors := by
  constructor
  · intro h
    obtain ⟨-, payload, hpayload, -⟩ := accepts_iff.mp h
    rw [Message.write] at hpayload
    split at hpayload
    · cases hpayload
    · omega
  · intro h
    refine accepts_of_write (by simp) (if_neg (Nat.not_lt.mpr h)) ?_
    exact Nat.le_trans (Message.length_writeVectors_le h) (by decide)

theorem accepts_custom {message : CustomMessage}
    (h : message.write.length ≤ largestPayload) :
    Accepts hasher magic (.custom message) :=
  accepts_of_write (by simp) rfl h

theorem encode_object_of_lt {object : Object}
    (hnonce : object.nonce?.isSome = true)
    (hlong : largestPayload < 8 + object.bodyLength) :
    encode hasher magic (.object object) =
      .error (.tooLarge (8 + object.bodyLength)) := by
  obtain ⟨payload, hpayload, hlength⟩ := Object.exists_write hnonce
  have hcommand : (Command.write (Message.object object).command).isOk = true :=
    isOk_write_command (by simp)
  cases hfield : Command.write (Message.object object).command with
  | error failure => simp [hfield, Except.isOk, Except.toBool] at hcommand
  | ok field =>
      have hwrite : (Message.object object).write = .ok payload := by
        rw [Message.write, hpayload]
        rfl
      simp only [encode, hfield, hwrite, hlength, hlong, Except.mapError, bind,
        Except.bind, if_true]
      rfl

theorem accepts_object_iff {object : Object}
    (hnonce : object.nonce?.isSome = true) :
    Accepts hasher magic (.object object) ↔
    8 + object.bodyLength ≤ largestPayload := by
  constructor
  · rintro ⟨frame, hframe⟩
    refine Nat.not_lt.mp fun hlong => ?_
    rw [encode_object_of_lt hnonce hlong] at hframe
    cases hframe
  · intro hlength
    obtain ⟨payload, hpayload, hsize⟩ := Object.exists_write hnonce
    refine accepts_of_write (by simp) ?_ (hsize ▸ hlength)
    rw [Message.write, hpayload]
    rfl

end Frame

end ObjectRelay
