import ObjectRelay.Proofs.Message.Sizes
import ObjectRelay.Proofs.Wire.Canonical

namespace ObjectRelay

namespace PeerRecord

/-- What the short layout keeps of a record. -/
def short (record : PeerRecord) : PeerRecord :=
  { record with time := 0, stream := 0 }

theorem short_of_eq_zero {record : PeerRecord} (htime : record.time = 0)
    (hstream : record.stream = 0) : record.short = record := by
  cases record
  cases htime
  cases hstream
  rfl

@[simp] theorem short_short (record : PeerRecord) :
    record.short.short = record.short := rfl

@[simp] theorem writeShort_short (record : PeerRecord) :
    record.short.writeShort = record.writeShort := rfl

theorem readShort_eq_ok_iff {bytes rest : Bytes} {record : PeerRecord} :
    readShort bytes = .ok record rest ↔
      bytes = record.writeShort ++ rest ∧ record.short = record := by
  unfold readShort
  simp only [Reader.bind_eq_ok_iff, Reader.need_eq_ok_iff,
    Reader.word64_eq_ok_iff, Reader.octets_eq_ok_iff, Reader.word16_eq_ok_iff,
    Reader.pure_eq_ok_iff]
  constructor
  · intro hread
    obtain ⟨_, _, ⟨rfl, -⟩, _, _, ⟨services, rfl, rfl⟩, ip, _, rfl, _, _,
      ⟨port, rfl, rfl⟩, rfl, rfl⟩ := hread
    simp [writeShort, short]
  · intro hwritten
    obtain ⟨rfl, hshort⟩ := hwritten
    refine ⟨(), _, ⟨rfl, by simp⟩, _, _, ⟨record.services, rfl, ?_⟩,
      record.ip, _, rfl, _, rest, ⟨record.port, rfl, rfl⟩, ?_, rfl⟩
    · simp [writeShort]
    · rw [← hshort]
      simp [short]

theorem inverts_readFull : Reader.Inverts readFull writeFull := by
  intro bytes record rest
  unfold readFull
  simp only [Reader.bind_eq_ok_iff, Reader.need_eq_ok_iff,
    Reader.word64_eq_ok_iff, Reader.word32_eq_ok_iff, readShort_eq_ok_iff,
    Reader.pure_eq_ok_iff]
  constructor
  · intro hread
    obtain ⟨_, _, ⟨rfl, -⟩, _, _, ⟨time, rfl, rfl⟩, _, _, ⟨stream, rfl, rfl⟩,
      record, _, ⟨rfl, -⟩, rfl, rfl⟩ := hread
    simp [writeFull, writeShort]
  · intro hwritten
    subst hwritten
    refine ⟨(), _, ⟨rfl, by simp⟩, _, _, ⟨record.time, rfl, ?_⟩, _, _,
      ⟨record.stream, rfl, rfl⟩, record.short, rest, ⟨rfl, rfl⟩, ?_, rfl⟩
    · simp [writeFull]
    · simp [short]

end PeerRecord

namespace Payload

theorem bytes_of_ofTagged? {build : Octets 32 → Bytes → Payload} {data : Bytes}
    {payload : Payload}
    (hbuild : ∀ tag sealed, (build tag sealed).bytes = tag.bytes ++ sealed)
    (h : ofTagged? build data = some payload) : payload.bytes = data := by
  obtain ⟨tag, htag, rfl⟩ := Option.map_eq_some_iff.mp h
  rw [hbuild, Octets.ofBytes?_eq_some_iff.mp htag, List.take_append_drop]

theorem bytes_of_understand? {kind : ObjectKind} {version : UInt64}
    {data : Bytes} {payload : Payload}
    (h : understand? kind version data = some payload) :
    payload.bytes = data := by
  unfold understand? at h
  cases kind with
  | keyRequest =>
      dsimp only at h
      split_ifs at h
      · obtain ⟨hash, hhash, rfl⟩ := Option.map_eq_some_iff.mp h
        exact Octets.ofBytes?_eq_some_iff.mp hhash
      · obtain ⟨tag, htag, rfl⟩ := Option.map_eq_some_iff.mp h
        exact Octets.ofBytes?_eq_some_iff.mp htag
  | key =>
      dsimp only at h
      split_ifs at h
      exact bytes_of_ofTagged? (fun _ _ => rfl) h
  | letter =>
      dsimp only at h
      split_ifs at h
      cases h
      rfl
  | broadcast =>
      dsimp only at h
      split_ifs at h
      · cases h
        rfl
      · exact bytes_of_ofTagged? (fun _ _ => rfl) h

@[simp] theorem bytes_ofBytes (type : UInt32) (version : UInt64)
    (data : Bytes) :
    (ofBytes type version data).bytes = data := by
  unfold ofBytes
  cases hpayload :
    (ObjectKind.ofNumber? type).bind (understand? · version data) with
  | none => rfl
  | some payload =>
      obtain ⟨kind, -, hkind⟩ := Option.bind_eq_some_iff.mp hpayload
      exact bytes_of_understand? hkind

end Payload

namespace Object

/-- The object with the payload that its type, its version and its bytes make
out. -/
def asRead (object : Object) : Object :=
  { object with
    payload := .ofBytes object.type object.version object.payload.bytes }

@[simp] theorem body_asRead (object : Object) :
    object.asRead.body = object.body := by
  simp [asRead, body]

@[simp] theorem write_asRead (object : Object) :
    object.asRead.write = object.write := by
  simp only [write, body_asRead]
  rfl

theorem exists_nonce_of_write {object : Object} {bytes : Bytes}
    (h : object.write = .ok bytes) :
    ∃ nonce, object.nonce? = some nonce ∧
      bytes = nonce.bytes ++ object.body := by
  unfold write at h
  split at h
  · rename_i nonce hnonce
    cases h
    exact ⟨nonce, hnonce, rfl⟩
  · cases h

theorem reader_eq_ok_iff {bytes rest : Bytes} {object : Object} :
    reader bytes = .ok object rest ↔
      object.write = .ok bytes ∧ rest = [] ∧ object.asRead = object := by
  unfold reader
  simp only [Reader.bind_eq_ok_iff, Reader.octets_eq_ok_iff,
    Reader.need_eq_ok_iff, Reader.word64_eq_ok_iff, Reader.word32_eq_ok_iff,
    Varint.inverts_read _ _ _, Reader.all_eq_ok_iff, Reader.pure_eq_ok_iff]
  constructor
  · intro hread
    obtain ⟨nonce, _, rfl, _, _, ⟨rfl, -⟩, _, _, ⟨expires, rfl, rfl⟩, _, _,
      ⟨type, rfl, rfl⟩, version, _, rfl, stream, _, rfl, data, _, ⟨rfl, rfl⟩,
      rfl, rfl⟩ := hread
    simp [write, body, asRead]
  · intro hwritten
    obtain ⟨hwrite, rfl, hread⟩ := hwritten
    obtain ⟨nonce, hnonce, rfl⟩ := exists_nonce_of_write hwrite
    refine ⟨nonce, _, rfl, (), _, ⟨rfl, ?_⟩, _, _,
      ⟨object.expires.toUInt64, rfl, ?_⟩, _, _, ⟨object.type, rfl, rfl⟩,
      object.version, _, rfl, object.stream, _, rfl, object.payload.bytes, [],
      ⟨rfl, rfl⟩, ?_, rfl⟩
    · simp [body]
    · simp [body]
    · rw [← hread]
      simp [asRead, hnonce]

end Object

namespace Greeting

def headSize : Nat := 80

/-- All that stands before the user agent. -/
def head (greeting : Greeting) : Bytes :=
  Bytes.bigEndian 4 greeting.version.toUInt32.toNat ++
    Bytes.bigEndian 8 greeting.services.toNat ++
    Bytes.bigEndian 8 greeting.timestamp.toUInt64.toNat ++
    greeting.recipient.writeShort ++ greeting.sender.writeShort ++
    Bytes.bigEndian 8 greeting.nonce.toNat

@[simp] theorem length_head (greeting : Greeting) :
    greeting.head.length = headSize := by
  simp [head, headSize, PeerRecord.shortSize]

theorem write_eq (greeting : Greeting) :
    greeting.write =
      greeting.head ++ (Wire.writeText greeting.userAgent ++
        Wire.writeIntegers greeting.streams) :=
  List.append_assoc _ _ _

/-- The greeting with what the wire has of its two addresses. -/
def asRead (greeting : Greeting) : Greeting :=
  { greeting with
    recipient := greeting.recipient.short, sender := greeting.sender.short }

/-- A greeting that was read, written back with the bytes that its user agent
was read from. -/
theorem eq_head_append_of_read {bytes rest : Bytes} {greeting : Greeting}
    (h : read bytes = .ok greeting rest) :
    ∃ raw, bytes = greeting.head ++
        (Wire.writeBytes raw ++ (Wire.writeIntegers greeting.streams ++ rest)) ∧
      raw.length ≤ longestUserAgent ∧ greeting.userAgent = Utf8.decode raw := by
  unfold read at h
  simp only [Reader.bind_eq_ok_iff, Reader.need_eq_ok_iff,
    Reader.word32_eq_ok_iff, Reader.word64_eq_ok_iff,
    PeerRecord.readShort_eq_ok_iff, Reader.pure_eq_ok_iff,
    Wire.readText_eq_ok_iff (show longestUserAgent < UInt64.size by decide),
    Wire.readIntegers_eq_ok_iff (show mostStreams < UInt64.size by decide)] at h
  obtain ⟨_, _, ⟨rfl, -⟩, _, _, ⟨version, rfl, rfl⟩, _, _, ⟨services, rfl, rfl⟩,
    _, _, ⟨timestamp, rfl, rfl⟩, recipient, _, ⟨rfl, -⟩, sender, _, ⟨rfl, -⟩,
    _, _, ⟨nonce, rfl, rfl⟩, _, _, ⟨raw, rfl, hraw, rfl⟩, streams, _, ⟨rfl, -⟩,
    rfl, rfl⟩ := h
  exact ⟨raw, by simp [head], hraw, rfl⟩

/-- What is left to read once the head has been. -/
def readTail (greeting : Greeting) : Reader Greeting := do
  let userAgent ← Wire.readText longestUserAgent "user agent"
  let streams ← Wire.readIntegers mostStreams "stream list"
  return { greeting with userAgent := userAgent, streams := streams }

theorem read_head_append (greeting : Greeting) (tail : Bytes) :
    read (greeting.head ++ tail) = readTail greeting.asRead tail := by
  have hneed : Reader.need 20 "version header" (greeting.head ++ tail) =
      .ok () (greeting.head ++ tail) := by
    refine Reader.need_eq_ok_iff.mpr ⟨rfl, ?_⟩
    rw [List.length_append, length_head, headSize]
    omega
  unfold read
  rw [Reader.bind_ok hneed]
  simp only [head, List.append_assoc]
  rw [Reader.bind_ok
    (Reader.word32_eq_ok_iff.mpr ⟨greeting.version.toUInt32, rfl, rfl⟩),
    Reader.bind_ok (Reader.word64_eq_ok_iff.mpr ⟨greeting.services, rfl, rfl⟩),
    Reader.bind_ok
      (Reader.word64_eq_ok_iff.mpr ⟨greeting.timestamp.toUInt64, rfl, rfl⟩),
    ← PeerRecord.writeShort_short greeting.recipient,
    Reader.bind_ok
      (PeerRecord.readShort_eq_ok_iff.mpr ⟨rfl, PeerRecord.short_short _⟩),
    ← PeerRecord.writeShort_short greeting.sender,
    Reader.bind_ok
      (PeerRecord.readShort_eq_ok_iff.mpr ⟨rfl, PeerRecord.short_short _⟩),
    Reader.bind_ok (Reader.word64_eq_ok_iff.mpr ⟨greeting.nonce, rfl, rfl⟩)]
  simp [readTail, asRead]

/-- The first of its parts that is longer than a reader takes. -/
def overlong? (greeting : Greeting) : Option WireError :=
  if longestUserAgent < (Utf8.encode greeting.userAgent).length then
    some (.tooLarge "user agent" (Utf8.encode greeting.userAgent).length
      longestUserAgent)
  else if mostStreams < greeting.streams.length then
    some (.tooLarge "stream list" greeting.streams.length mostStreams)
  else none

theorem length_userAgent_le (greeting : Greeting) :
    (Utf8.encode greeting.userAgent).length ≤ greeting.write.length := by
  simp only [write_eq, Wire.writeText, Wire.writeBytes, List.length_append]
  omega

theorem length_streams_le (greeting : Greeting) :
    greeting.streams.length ≤ greeting.write.length := by
  have hstreams := Wire.length_le_writeIntegers greeting.streams
  simp only [write_eq, List.length_append]
  omega

theorem read_write {greeting : Greeting} (h : greeting.overlong? = none) :
    read greeting.write = .ok greeting.asRead [] := by
  unfold overlong? at h
  split_ifs at h with huserAgent hstreams
  have hintegers : Wire.readIntegers mostStreams "stream list"
      (Wire.writeIntegers greeting.streams) = .ok greeting.streams [] :=
    (Wire.readIntegers_eq_ok_iff (by decide)).mpr
      ⟨(List.append_nil _).symm, Nat.not_lt.mp hstreams⟩
  rw [write_eq, read_head_append, readTail,
    Reader.bind_ok
      (Wire.readText_writeText (by decide) (Nat.not_lt.mp huserAgent)),
    Reader.bind_ok hintegers]
  rfl

theorem read_write_of_overlong {greeting : Greeting} {failure : WireError}
    (hsize : greeting.write.length < UInt64.size)
    (h : greeting.overlong? = some failure) :
    ∃ rest, read greeting.write = .error failure rest := by
  have huserAgentSize := Nat.lt_of_le_of_lt greeting.length_userAgent_le hsize
  have hstreamsSize := Nat.lt_of_le_of_lt greeting.length_streams_le hsize
  rw [write_eq, read_head_append, readTail]
  unfold overlong? at h
  split_ifs at h with huserAgent hstreams
  · cases h
    exact ⟨_, Reader.bind_error
      (Wire.readText_writeText_of_lt huserAgent huserAgentSize)⟩
  · cases h
    rw [Reader.bind_ok
      (Wire.readText_writeText (by decide) (Nat.not_lt.mp huserAgent)),
      ← List.append_nil (Wire.writeIntegers greeting.streams)]
    exact ⟨_, Reader.bind_error
      (Wire.readIntegers_writeIntegers_of_lt hstreams hstreamsSize)⟩

end Greeting

namespace CustomMessage

/-- A request that was read, written back with the bytes that its command was
read from. -/
theorem eq_append_of_read {bytes rest : Bytes} {message : CustomMessage}
    (h : read bytes = .ok message rest) :
    ∃ raw, bytes = Wire.writeBytes raw ++ message.data ∧ rest = [] ∧
      raw.length ≤ longestCommand ∧ message.command = Utf8.decode raw := by
  unfold read at h
  simp only [Reader.bind_eq_ok_iff, Reader.all_eq_ok_iff, Reader.pure_eq_ok_iff,
    Wire.readText_eq_ok_iff (show longestCommand < UInt64.size by decide)] at h
  obtain ⟨_, _, ⟨raw, rfl, hraw, rfl⟩, data, _, ⟨rfl, rfl⟩, rfl, rfl⟩ := h
  exact ⟨raw, rfl, rfl, hraw, rfl⟩

/-- The command, where it is longer than a reader takes. -/
def overlong? (message : CustomMessage) : Option WireError :=
  if longestCommand < (Utf8.encode message.command).length then
    some (.tooLarge "custom command" (Utf8.encode message.command).length
      longestCommand)
  else none

theorem read_write {message : CustomMessage} (h : message.overlong? = none) :
    read message.write = .ok message [] := by
  unfold overlong? at h
  split_ifs at h with hcommand
  rw [write, read,
    Reader.bind_ok
      (Wire.readText_writeText (by decide) (Nat.not_lt.mp hcommand))]
  rfl

theorem read_write_of_overlong {message : CustomMessage} {failure : WireError}
    (hsize : message.write.length < UInt64.size)
    (h : message.overlong? = some failure) :
    ∃ rest, read message.write = .error failure rest := by
  have hcommandSize : (Utf8.encode message.command).length < UInt64.size := by
    refine Nat.lt_of_le_of_lt ?_ hsize
    simp only [write, Wire.writeText, Wire.writeBytes, List.length_append]
    omega
  unfold overlong? at h
  split_ifs at h with hcommand
  cases h
  exact ⟨_,
    Reader.bind_error (Wire.readText_writeText_of_lt hcommand hcommandSize)⟩

end CustomMessage

end ObjectRelay
