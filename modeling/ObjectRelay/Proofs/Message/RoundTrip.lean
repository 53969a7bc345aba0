import ObjectRelay.Proofs.Message.Canonical

namespace ObjectRelay

namespace Message

variable {bytes rest payload : Bytes} {message : Message}

theorem readRecords_eq_ok_iff {records : List PeerRecord} :
    readRecords bytes = .ok records rest ↔
      bytes = writeRecords records ++ rest ∧
      records.length ≤ mostAddresses := by
  unfold readRecords writeRecords
  simp only [Reader.bind_eq_ok_iff,
    Reader.many_eq_ok_iff PeerRecord.inverts_readFull,
    Varint.readAtMost_eq_ok_iff (show mostAddresses < UInt64.size by decide)]
  constructor
  · intro hread
    obtain ⟨count, _, ⟨rfl, hcount⟩, rfl, rfl⟩ := hread
    exact ⟨(List.append_assoc _ _ _).symm, hcount⟩
  · intro hwritten
    obtain ⟨rfl, hcount⟩ := hwritten
    exact ⟨records.length, _, ⟨List.append_assoc _ _ _, hcount⟩, rfl, rfl⟩

theorem readRecords_writeRecords {records : List PeerRecord}
    (h : ¬ mostAddresses < records.length) :
    readRecords (writeRecords records) = .ok records [] :=
  readRecords_eq_ok_iff.mpr ⟨(List.append_nil _).symm, Nat.not_lt.mp h⟩

theorem length_flatMap_bytes (vectors : List InventoryVector) :
    (vectors.flatMap Octets.bytes).length = vectors.length * 32 := by
  simp [List.length_flatMap, Octets.length_bytes, List.map_const']

theorem readVectors_eq_ok_iff {vectors : List InventoryVector} :
    readVectors bytes = .ok vectors rest ↔
      bytes = writeVectors vectors ++ rest ∧ vectors.length ≤ mostVectors := by
  unfold readVectors writeVectors
  simp only [Reader.bind_eq_ok_iff, Reader.need_eq_ok_iff,
    Reader.many_eq_ok_iff (Reader.inverts_octets 32 "inventory vectors"),
    Varint.readAtMost_eq_ok_iff (show mostVectors < UInt64.size by decide)]
  constructor
  · intro hread
    obtain ⟨count, _, ⟨rfl, hcount⟩, _, _, ⟨rfl, -⟩, rfl, rfl⟩ := hread
    exact ⟨(List.append_assoc _ _ _).symm, hcount⟩
  · intro hwritten
    obtain ⟨rfl, hcount⟩ := hwritten
    refine ⟨vectors.length, _, ⟨List.append_assoc _ _ _, hcount⟩, (), _,
      ⟨rfl, ?_⟩, rfl, rfl⟩
    rw [List.length_append, length_flatMap_bytes]
    omega

theorem readVectors_writeVectors {vectors : List InventoryVector}
    (h : ¬ mostVectors < vectors.length) :
    readVectors (writeVectors vectors) = .ok vectors [] :=
  readVectors_eq_ok_iff.mpr ⟨(List.append_nil _).symm, Nat.not_lt.mp h⟩

def knownCommands : List String :=
  ["version", "verack", "addr", "inv", "getdata", "object", "custom"]

theorem reader?_eq_none_iff {command : String} :
    reader? command = none ↔ command ∉ knownCommands := by
  unfold reader? knownCommands
  split_ifs <;> simp_all

theorem read_of_not_mem {command : String} (h : command ∉ knownCommands) :
    read command payload = .ok (unknown command payload) := by
  rw [read, reader?_eq_none_iff.mpr h]

theorem read_of_reader? {command : String} {reader : Reader Message}
    (hreader : reader? command = some reader)
    (h : reader payload = .ok message []) :
    read command payload = .ok message := by
  rw [read, hreader]
  dsimp only
  rw [h]

theorem read_of_reader?_error {command : String} {reader : Reader Message}
    {failure : WireError} (hreader : reader? command = some reader)
    (h : reader payload = .error failure rest) :
    read command payload = .error (.wire failure) := by
  rw [read, hreader]
  dsimp only
  rw [h]

theorem read_eq_ok_iff {command : String} :
    read command payload = .ok message ↔
      (command ∉ knownCommands ∧ message = unknown command payload) ∨
        ∃ reader, reader? command = some reader ∧
          reader payload = .ok message [] := by
  constructor
  · intro h
    unfold read at h
    split at h
    · rename_i hreader
      cases h
      exact .inl ⟨reader?_eq_none_iff.mp hreader, rfl⟩
    · rename_i reader hreader
      split at h
      · rename_i hread
        cases h
        exact .inr ⟨reader, hreader, hread⟩
      · cases h
      · cases h
  · intro h
    rcases h with ⟨hcommand, rfl⟩ | ⟨reader, hreader, hread⟩
    · exact read_of_not_mem hcommand
    · exact read_of_reader? hreader hread

/-- The message with what the wire has of it. -/
def asRead : Message → Message
  | version greeting => version greeting.asRead
  | object carried => object carried.asRead
  | message => message

/-- The part of a message that is longer than its reader takes, though it is
written. -/
def overlong? : Message → Option WireError
  | version greeting => greeting.overlong?
  | custom message => message.overlong?
  | _ => none

/-- A message without a reader of its own goes by a name that has none. -/
def Named : Message → Prop
  | unknown command _ => command ∉ knownCommands
  | _ => True

theorem read_write (hnamed : message.Named) (h : message.write = .ok payload)
    (hlong : message.overlong? = none) :
    read message.command payload = .ok message.asRead := by
  cases message with
  | version greeting =>
      cases h
      exact read_of_reader? rfl
        (Reader.map_eq_ok_iff.mpr ⟨_, Greeting.read_write hlong, rfl⟩)
  | verack =>
      cases h
      rfl
  | addr records =>
      rw [write] at h
      split_ifs at h with hmost
      cases h
      exact read_of_reader? rfl
        (Reader.map_eq_ok_iff.mpr ⟨records,
          readRecords_writeRecords hmost, rfl⟩)
  | inv vectors =>
      rw [write] at h
      split_ifs at h with hmost
      cases h
      exact read_of_reader? rfl
        (Reader.map_eq_ok_iff.mpr ⟨vectors,
          readVectors_writeVectors hmost, rfl⟩)
  | getdata vectors =>
      rw [write] at h
      split_ifs at h with hmost
      cases h
      exact read_of_reader? rfl
        (Reader.map_eq_ok_iff.mpr ⟨vectors,
          readVectors_writeVectors hmost, rfl⟩)
  | object carried =>
      rw [write] at h
      cases hwrite : carried.write with
      | error failure =>
          rw [hwrite] at h
          cases h
      | ok bytes =>
          rw [hwrite] at h
          cases h
          refine read_of_reader? rfl
            (Reader.map_eq_ok_iff.mpr ⟨carried.asRead, ?_, rfl⟩)
          exact Object.reader_eq_ok_iff.mpr
            ⟨by rw [Object.write_asRead, hwrite], rfl, by
            simp [Object.asRead]⟩
  | custom message =>
      cases h
      exact read_of_reader? rfl
        (Reader.map_eq_ok_iff.mpr ⟨_, CustomMessage.read_write hlong, rfl⟩)
  | unknown command bytes =>
      cases h
      exact read_of_not_mem hnamed

theorem read_write_of_overlong {failure : WireError}
    (h : message.write = .ok payload) (hsize : payload.length < UInt64.size)
    (hlong : message.overlong? = some failure) :
    read message.command payload = .error (.wire failure) := by
  cases message with
  | version greeting =>
      cases h
      obtain ⟨rest, hread⟩ := Greeting.read_write_of_overlong hsize hlong
      exact read_of_reader?_error rfl (Reader.map_error hread)
  | custom message =>
      cases h
      obtain ⟨rest, hread⟩ := CustomMessage.read_write_of_overlong hsize hlong
      exact read_of_reader?_error rfl (Reader.map_error hread)
  | _ => cases hlong

/-- The one text in a payload is text, and not bytes that the reader had to
repair. -/
def TextValid (payload : Bytes) : Message → Prop
  | version _ =>
      ∀ raw rest, Wire.readBytes Greeting.longestUserAgent "user agent"
        (payload.drop Greeting.headSize) = .ok raw rest → Utf8.Valid raw
  | custom _ =>
      ∀ raw rest, Wire.readBytes CustomMessage.longestCommand "custom command"
        payload = .ok raw rest → Utf8.Valid raw
  | _ => True

end Message

theorem Greeting.write_of_read {payload : Bytes} {greeting : Greeting}
    (h : read payload = .ok greeting [])
    (htext : (Message.version greeting).TextValid payload) :
    greeting.write = payload := by
  obtain ⟨raw, hpayload, hlength, huserAgent⟩ := eq_head_append_of_read h
  have hraw : Utf8.Valid raw := by
    refine htext raw (Wire.writeIntegers greeting.streams) ?_
    rw [Wire.readBytes_eq_ok_iff (by decide), hpayload, List.append_nil,
      List.drop_left' (length_head greeting)]
    exact ⟨rfl, hlength⟩
  rw [write_eq, hpayload, Wire.writeText, huserAgent, Utf8.encode_decode hraw,
    List.append_nil]

theorem Greeting.readBytes_drop_write {greeting : Greeting}
    (h : greeting.overlong? = none) :
    Wire.readBytes longestUserAgent "user agent"
      (greeting.write.drop headSize) =
      .ok (Utf8.encode greeting.userAgent)
        (Wire.writeIntegers greeting.streams) := by
  unfold overlong? at h
  split_ifs at h with huserAgent hstreams
  rw [write_eq, List.drop_left' (length_head greeting),
    Wire.readBytes_eq_ok_iff (by decide)]
  exact ⟨rfl, Nat.not_lt.mp huserAgent⟩

theorem CustomMessage.readBytes_write {message : CustomMessage}
    (h : message.overlong? = none) :
    Wire.readBytes longestCommand "custom command" message.write =
      .ok (Utf8.encode message.command) message.data := by
  unfold overlong? at h
  split_ifs at h with hcommand
  rw [Wire.readBytes_eq_ok_iff (by decide)]
  exact ⟨rfl, Nat.not_lt.mp hcommand⟩

theorem CustomMessage.write_of_read {payload : Bytes} {message : CustomMessage}
    (h : read payload = .ok message [])
    (htext : (Message.custom message).TextValid payload) :
    message.write = payload := by
  obtain ⟨raw, hpayload, -, hlength, hcommand⟩ := eq_append_of_read h
  have hraw : Utf8.Valid raw :=
    htext raw message.data
      ((Wire.readBytes_eq_ok_iff (by decide)).mpr ⟨hpayload, hlength⟩)
  rw [write, hpayload, Wire.writeText, hcommand, Utf8.encode_decode hraw]

namespace Message

theorem write_of_reader? {command : String} {reader : Reader Message}
    {payload : Bytes} {message : Message}
    (hreader : reader? command = some reader)
    (h : reader payload = .ok message []) (htext : message.TextValid payload) :
    message.write = .ok payload := by
  unfold reader? at hreader
  split_ifs at hreader with hversion hverack haddr hinv hgetdata hobject hcustom
  · cases hreader
    obtain ⟨greeting, hread, rfl⟩ := Reader.map_eq_ok_iff.mp h
    rw [write, Greeting.write_of_read hread htext]
  · cases hreader
    obtain ⟨rfl, rfl⟩ := Reader.pure_eq_ok_iff.mp h
    rfl
  · cases hreader
    obtain ⟨records, hread, rfl⟩ := Reader.map_eq_ok_iff.mp h
    obtain ⟨rfl, hmost⟩ := readRecords_eq_ok_iff.mp hread
    rw [write, if_neg (Nat.not_lt.mpr hmost), List.append_nil]
  · cases hreader
    obtain ⟨vectors, hread, rfl⟩ := Reader.map_eq_ok_iff.mp h
    obtain ⟨rfl, hmost⟩ := readVectors_eq_ok_iff.mp hread
    rw [write, if_neg (Nat.not_lt.mpr hmost), List.append_nil]
  · cases hreader
    obtain ⟨vectors, hread, rfl⟩ := Reader.map_eq_ok_iff.mp h
    obtain ⟨rfl, hmost⟩ := readVectors_eq_ok_iff.mp hread
    rw [write, if_neg (Nat.not_lt.mpr hmost), List.append_nil]
  · cases hreader
    obtain ⟨carried, hread, rfl⟩ := Reader.map_eq_ok_iff.mp h
    obtain ⟨hwrite, -, -⟩ := Object.reader_eq_ok_iff.mp hread
    rw [write, hwrite]
    rfl
  · cases hreader
    obtain ⟨custom, hread, rfl⟩ := Reader.map_eq_ok_iff.mp h
    rw [write, CustomMessage.write_of_read hread htext]

theorem write_of_read {command : String} {payload : Bytes} {message : Message}
    (h : read command payload = .ok message)
    (htext : message.TextValid payload) :
    message.command = command ∧ message.write = .ok payload := by
  rcases read_eq_ok_iff.mp h with ⟨-, rfl⟩ | ⟨reader, hreader, hread⟩
  · exact ⟨rfl, rfl⟩
  · exact ⟨command_of_reader? hreader hread,
      write_of_reader? hreader hread htext⟩

theorem textValid_of_write {payload : Bytes} {message : Message}
    (h : message.write = .ok payload) (hlong : message.overlong? = none) :
    message.TextValid payload := by
  cases message with
  | version greeting =>
      cases h
      intro raw rest hraw
      rw [Greeting.readBytes_drop_write hlong] at hraw
      cases hraw
      exact ⟨greeting.userAgent, rfl⟩
  | custom message =>
      cases h
      intro raw rest hraw
      rw [CustomMessage.readBytes_write hlong] at hraw
      cases hraw
      exact ⟨message.command, rfl⟩
  | _ => trivial

end Message

end ObjectRelay
