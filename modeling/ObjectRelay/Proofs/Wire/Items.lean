import Mathlib.Data.List.Forall2
import ObjectRelay.Proofs.Message.Canonical
import ObjectRelay.Proofs.Message.Sizes

namespace ObjectRelay

/-! Values written one behind the other.  Each tells its reader where it ends,
so that the same kinds in the same order read them back, and what was read could
have been written in no other way. -/

namespace Wire

/-- A value with an encoding of its own. -/
inductive Item where
  | varint (value : UInt64)
  | bytes (data : Bytes)
  | text (content : String)
  | integers (values : List UInt64)
  | short (record : PeerRecord)
  | full (record : PeerRecord)

/-- What a reader expects next, and of counted values at most how much. -/
inductive Kind where
  | varint
  | bytes (limit : UInt64) (field : String)
  | text (limit : UInt64) (field : String)
  | integers (limit : UInt64) (field : String)
  | short
  | full

namespace Item

def write : Item → Bytes
  | varint value => Varint.write value
  | bytes data => writeBytes data
  | text content => writeText content
  | integers values => writeIntegers values
  | short record => record.writeShort
  | full record => record.writeFull

/-- The short layout leaves out the time and the stream of a record. -/
def asRead : Item → Item
  | short record => short { record with time := 0, stream := 0 }
  | item => item

end Item

namespace Kind

def read : Kind → Reader Item
  | varint => .varint <$> Varint.read
  | bytes limit field => .bytes <$> readBytes limit.toNat field
  | text limit field => .text <$> readText limit.toNat field
  | integers limit field => .integers <$> readIntegers limit.toNat field
  | short => .short <$> PeerRecord.readShort
  | full => .full <$> PeerRecord.readFull

/-- The item is of the kind, and within its limit. -/
inductive Fits : Kind → Item → Prop where
  | varint {value : UInt64} : Fits .varint (.varint value)
  | bytes {limit : UInt64} {field : String} {data : Bytes}
      (hlimit : data.length ≤ limit.toNat) :
      Fits (.bytes limit field) (.bytes data)
  | text {limit : UInt64} {field content : String}
      (hlimit : (Utf8.encode content).length ≤ limit.toNat) :
      Fits (.text limit field) (.text content)
  | integers {limit : UInt64} {field : String} {values : List UInt64}
      (hlimit : values.length ≤ limit.toNat) :
      Fits (.integers limit field) (.integers values)
  | short {record : PeerRecord} : Fits .short (.short record)
  | full {record : PeerRecord} : Fits .full (.full record)

/-- All but text, which is repaired where it is invalid, keep their bytes. -/
def Exact : Kind → Prop
  | text _ _ => False
  | _ => True

variable {kind : Kind} {item : Item} {bytes rest : Bytes}

theorem Fits.read_write (h : kind.Fits item) (rest : Bytes) :
    kind.read (item.write ++ rest) = .ok item.asRead rest := by
  cases h with
  | varint =>
      refine Reader.map_eq_ok_iff.mpr ⟨_, ?_, rfl⟩
      exact (Varint.inverts_read _ _ _).mpr rfl
  | bytes hlimit =>
      refine Reader.map_eq_ok_iff.mpr ⟨_, ?_, rfl⟩
      exact (readBytes_eq_ok_iff (UInt64.toNat_lt _)).mpr ⟨rfl, hlimit⟩
  | text hlimit =>
      refine Reader.map_eq_ok_iff.mpr ⟨_, ?_, rfl⟩
      exact readText_writeText (UInt64.toNat_lt _) hlimit
  | integers hlimit =>
      refine Reader.map_eq_ok_iff.mpr ⟨_, ?_, rfl⟩
      exact (readIntegers_eq_ok_iff (UInt64.toNat_lt _)).mpr ⟨rfl, hlimit⟩
  | @short record =>
      refine Reader.map_eq_ok_iff.mpr ⟨record.short, ?_, rfl⟩
      exact PeerRecord.readShort_eq_ok_iff.mpr ⟨rfl, record.short_short⟩
  | full =>
      refine Reader.map_eq_ok_iff.mpr ⟨_, ?_, rfl⟩
      exact (PeerRecord.inverts_readFull _ _ _).mpr rfl

theorem eq_write_of_read (hexact : kind.Exact)
    (h : kind.read bytes = .ok item rest) :
    bytes = item.write ++ rest := by
  cases kind with
  | varint =>
      obtain ⟨value, hread, rfl⟩ := Reader.map_eq_ok_iff.mp h
      exact (Varint.inverts_read _ _ _).mp hread
  | bytes limit field =>
      obtain ⟨data, hread, rfl⟩ := Reader.map_eq_ok_iff.mp h
      exact ((readBytes_eq_ok_iff limit.toNat_lt).mp hread).1
  | text limit field => exact absurd hexact id
  | integers limit field =>
      obtain ⟨values, hread, rfl⟩ := Reader.map_eq_ok_iff.mp h
      exact ((readIntegers_eq_ok_iff limit.toNat_lt).mp hread).1
  | short =>
      obtain ⟨record, hread, rfl⟩ := Reader.map_eq_ok_iff.mp h
      exact (PeerRecord.readShort_eq_ok_iff.mp hread).1
  | full =>
      obtain ⟨record, hread, rfl⟩ := Reader.map_eq_ok_iff.mp h
      exact (PeerRecord.inverts_readFull _ _ _).mp hread

end Kind

def readEach : List Kind → Reader (List Item)
  | [] => pure []
  | kind :: kinds => do
      let item ← kind.read
      let items ← readEach kinds
      return item :: items

theorem readEach_flatMap_write {kinds : List Kind} {items : List Item}
    (h : List.Forall₂ Kind.Fits kinds items) (rest : Bytes) :
    readEach kinds (items.flatMap Item.write ++ rest) =
      .ok (items.map Item.asRead) rest := by
  induction h with
  | nil => rfl
  | cons hfits _ ih =>
      rw [List.flatMap_cons, List.append_assoc, readEach,
        Reader.bind_ok (hfits.read_write _), Reader.bind_ok ih]
      rfl

theorem eq_flatMap_write_of_readEach {kinds : List Kind} {items : List Item}
    {bytes rest : Bytes} (hexact : ∀ kind ∈ kinds, kind.Exact)
    (h : readEach kinds bytes = .ok items rest) :
    bytes = items.flatMap Item.write ++ rest := by
  induction kinds generalizing bytes items with
  | nil =>
      obtain ⟨rfl, rfl⟩ := Reader.pure_eq_ok_iff.mp h
      rfl
  | cons kind kinds ih =>
      obtain ⟨item, middle, hitem, hrest⟩ := Reader.bind_eq_ok_iff.mp h
      obtain ⟨others, last, hothers, hpure⟩ := Reader.bind_eq_ok_iff.mp hrest
      obtain ⟨rfl, rfl⟩ := Reader.pure_eq_ok_iff.mp hpure
      have hlater :=
        ih (fun other hmem =>
          hexact other (List.mem_cons_of_mem kind hmem)) hothers
      rw [Kind.eq_write_of_read (hexact kind List.mem_cons_self) hitem, hlater,
        List.flatMap_cons, List.append_assoc]

/-- Whatever was written is read back and nothing behind it is touched, and a
reader takes no bytes but those that its writer makes of what it gave. -/
theorem items_read_back_in_one_form {kinds : List Kind} {items : List Item}
    (hfits : List.Forall₂ Kind.Fits kinds items) (rest : Bytes) :
    readEach kinds (items.flatMap Item.write ++ rest) =
      .ok (items.map Item.asRead) rest ∧
      (∀ (others : List Kind) (bytes : Bytes) (read : List Item)
        (unread : Bytes),
        (∀ kind ∈ others, kind.Exact) →
          readEach others bytes = .ok read unread →
          bytes = read.flatMap Item.write ++ unread) ∧
      (∀ (kind : Kind) (bytes : Bytes) (item : Item) (unread : Bytes),
        kind.Exact → kind.read bytes = .ok item unread →
        bytes = item.write ++ unread) ∧
      ∀ (value : UInt64) (bytes unread : Bytes),
        Varint.read bytes = .ok value unread →
        bytes.length = Varint.size value + unread.length := by
  refine ⟨readEach_flatMap_write hfits rest, ?_, ?_, ?_⟩
  · intro others bytes read unread hexact hread
    exact eq_flatMap_write_of_readEach hexact hread
  · intro kind bytes item unread hexact hread
    exact Kind.eq_write_of_read hexact hread
  · intro value bytes unread hread
    rw [(Varint.inverts_read _ _ _).mp hread, List.length_append,
      Varint.length_write]

/-- The least and the greatest values of neighbouring forms, within limits that
are just met. -/
theorem items_read_back_at_bounds :
    let record : PeerRecord := ⟨7, 1, 1, mapped ⟨[10, 0, 0, 1], rfl⟩, 8444⟩
    let kinds : List Kind :=
      [.varint, .varint, .bytes 1 "data", .text 3 "name", .integers 2 "list",
        .short, .full]
    let items : List Item :=
      [.varint 0xFC, .varint 0xFD, .bytes [0xFD], .text "né",
        .integers [0xFFFF, 0x10000], .short record, .full record]
    List.Forall₂ Kind.Fits kinds items ∧
      readEach kinds (items.flatMap Item.write ++ [0xFD, 0]) =
        .ok (items.map Item.asRead) [0xFD, 0] := by
  intro record kinds items
  have hfits : List.Forall₂ Kind.Fits kinds items :=
    .cons .varint
      (.cons .varint (.cons (.bytes (by decide)) (.cons (.text (by decide))
      (.cons (.integers (by decide)) (.cons .short (.cons .full .nil))))))
  exact ⟨hfits, (items_read_back_in_one_form hfits [0xFD, 0]).1⟩

end Wire

end ObjectRelay
