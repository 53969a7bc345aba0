import ObjectRelay.Object.Expiry
import ObjectRelay.Proofs.Message.Canonical
import ObjectRelay.Work.Trial

namespace ObjectRelay

/-! The bytes of an object are all that others see of it.  They are read back as
an object that has the same bytes, names and demands, whatever shape the payload
was given; and it is the same object where the shape is the one that the bytes
make out. -/

namespace Object

variable {object other : Object}

/-- Nothing that a node asks of an object tells the two apart. -/
structure Matches (left right : Object) : Prop where
  write : left.write = right.write
  vector : ∀ hasher, left.vector hasher = right.vector hasher
  initialHash : ∀ hasher, left.initialHash hasher = right.initialHash hasher
  bodyLength : left.bodyLength = right.bodyLength
  expiryViolation? : ∀ now, left.expiryViolation? now =
    right.expiryViolation? now
  checkWork : ∀ hasher difficulty now,
    left.checkWork hasher difficulty now = right.checkWork hasher difficulty now

theorem bodyLength_congr (hbody : object.body = other.body) :
    object.bodyLength = other.bodyLength := by
  rw [← length_body, ← length_body, hbody]

theorem initialHash_congr (hbody : object.body = other.body) (hasher : Hasher) :
    object.initialHash hasher = other.initialHash hasher := by
  rw [initialHash, initialHash, hbody]

theorem write_congr (hnonce : object.nonce? = other.nonce?)
    (hbody : object.body = other.body) :
    object.write = other.write := by
  rw [write, write, hnonce, hbody]

theorem expiryViolation?_congr (hexpires : object.expires = other.expires)
    (now : Int64) :
    object.expiryViolation? now = other.expiryViolation? now := by
  rw [expiryViolation?, expiryViolation?, lifetime, lifetime, hexpires]

theorem objectTarget_congr (hexpires : object.expires = other.expires)
    (hbody : object.body = other.body) (difficulty : Difficulty) (now : Int64) :
    difficulty.objectTarget object now = difficulty.objectTarget other now := by
  rw [Difficulty.objectTarget, Difficulty.objectTarget, lifetime, lifetime,
    hexpires, bodyLength_congr hbody]

/-- Beside the bytes the nonce and the expiration are read, which stand in the
bytes as well. -/
theorem matches_of_body_eq (hnonce : object.nonce? = other.nonce?)
    (hexpires : object.expires = other.expires)
    (hbody : object.body = other.body) :
    object.Matches other where
  write := write_congr hnonce hbody
  vector hasher := by rw [vector, vector, write_congr hnonce hbody]
  initialHash := initialHash_congr hbody
  bodyLength := bodyLength_congr hbody
  expiryViolation? := expiryViolation?_congr hexpires
  checkWork hasher difficulty now := by
    rw [checkWork, checkWork, hnonce,
      objectTarget_congr hexpires hbody difficulty now,
      initialHash_congr hbody hasher]

theorem asRead_eq_iff :
    object.asRead = object ↔
      object.payload =
        .ofBytes object.type object.version object.payload.bytes := by
  constructor
  · intro hsame
    exact (congrArg Object.payload hsame).symm
  · intro hpayload
    rw [asRead, ← hpayload]

theorem asRead_asRead (object : Object) :
    object.asRead.asRead = object.asRead := by
  simp [asRead]

theorem read_eq_ok_iff {bytes : Bytes} :
    read bytes = .ok object ↔ object.write = .ok bytes ∧
    object.asRead = object := by
  unfold read
  cases hread : reader bytes with
  | ok found rest =>
      obtain ⟨hwrite, -, hsame⟩ := reader_eq_ok_iff.mp hread
      constructor
      · intro h
        cases h
        exact ⟨hwrite, hsame⟩
      · intro hwritten
        have hagain := reader_eq_ok_iff.mpr ⟨hwritten.1, rfl, hwritten.2⟩
        rw [hread] at hagain
        cases hagain
        rfl
  | error failure rest =>
      constructor
      · intro h
        cases h
      · intro hwritten
        have hagain := reader_eq_ok_iff.mpr ⟨hwritten.1, rfl, hwritten.2⟩
        rw [hread] at hagain
        cases hagain

/-- Whatever its payload is called, an object is read back from its bytes. -/
theorem read_write_asRead {bytes : Bytes} (h : object.write = .ok bytes) :
    read bytes = .ok object.asRead :=
  read_eq_ok_iff.mpr ⟨(write_asRead object).trans h, asRead_asRead object⟩

/-- The vector is cut from the hash of the whole bytes, though these are hashed
part by part. -/
theorem exists_vector {bytes : Bytes} {nonce : Octets 8} {hasher : Hasher}
    {digestParts : List Bytes → Digest}
    (hparts : ∀ parts, digestParts parts = hasher.digest parts.flatten)
    (hnonce : object.nonce? = some nonce) (hwrite : object.write = .ok bytes) :
    ∃ vector, object.vector hasher = .ok vector ∧
      vector.bytes = (digestParts [(digestParts [bytes]).bytes]).bytes.take 32 ∧
      vector.bytes =
        (digestParts
          [(digestParts [nonce.bytes, object.body]).bytes]).bytes.take 32 := by
  obtain ⟨_, hsame, rfl⟩ := exists_nonce_of_write hwrite
  rw [hnonce] at hsame
  cases hsame
  refine ⟨.ofDigest (hasher.doubleDigest (nonce.bytes ++ object.body)),
    ?_, ?_, ?_⟩
  · rw [vector, hwrite]
    rfl
  · simp [hparts, InventoryVector.ofDigest, Octets.first, Hasher.doubleDigest]
  · simp [hparts, InventoryVector.ofDigest, Octets.first, Hasher.doubleDigest]

/-- What is read is written back byte for byte.  What has a nonce is written,
and read back as an object that no node tells from it; as the same one just when
its payload has the shape that its type, its version and its bytes make out.
The length of the body is counted without writing it, and the vector is cut from
the hash of all the bytes. -/
theorem read_write_keeps_identity :
    (∀ bytes object, read bytes = .ok object → object.write = .ok bytes) ∧
    (∀ object nonce, object.nonce? = some nonce →
      ∃ bytes other, object.write = .ok bytes ∧ read bytes = .ok other ∧
        other.Matches object ∧
        (other = object ↔
          object.payload =
            .ofBytes object.type object.version object.payload.bytes) ∧
        ∀ (hasher : Hasher) (digestParts : List Bytes → Digest),
          (∀ parts, digestParts parts = hasher.digest parts.flatten) →
          ∃ vector, object.vector hasher = .ok vector ∧
            vector.bytes =
              (digestParts [(digestParts [bytes]).bytes]).bytes.take 32 ∧
            vector.bytes =
              (digestParts
                [(digestParts [nonce.bytes, object.body]).bytes]).bytes.take
                  32) ∧
    ∀ object, bodyLength object = object.body.length := by
  refine ⟨fun bytes object hread => (read_eq_ok_iff.mp hread).1, ?_,
    fun object => ?_⟩
  · intro object nonce hnonce
    obtain ⟨bytes, hwrite, -⟩ := exists_write (Option.isSome_of_eq_some hnonce)
    refine ⟨bytes, object.asRead, hwrite, read_write_asRead hwrite, ?_,
      asRead_eq_iff, ?_⟩
    · exact matches_of_body_eq rfl rfl (body_asRead object)
    · intro hasher digestParts hparts
      exact exists_vector hparts hnonce hwrite
  · exact (length_body object).symm

/-- A letter under a type that nobody knows comes back as bytes that nobody
understands. -/
theorem oddLetter_keeps_identity :
    let oddLetter : Object :=
      ⟨some (.ofNat 8 0), 0, 42, 1, 1, .letter [1, 2, 3]⟩
    let hasher : Hasher := ⟨fun _ => .ofNat digestSize 0⟩
    ∃ bytes other vector, oddLetter.write = .ok bytes ∧ read bytes = .ok other ∧
      other ≠ oddLetter ∧
      other.Matches oddLetter ∧ other.write = .ok bytes ∧
      oddLetter.vector hasher = .ok vector ∧
      vector.bytes = (hasher.doubleDigest bytes).bytes.take 32 := by
  intro oddLetter hasher
  obtain ⟨bytes, other, hwrite, hread, hmatches, hsame, hvectors⟩ :=
    read_write_keeps_identity.2.1 oddLetter (.ofNat 8 0) rfl
  obtain ⟨vector, hvector, hwhole, -⟩ :=
    hvectors hasher (fun parts => hasher.digest parts.flatten) fun _ => rfl
  refine ⟨bytes, other, vector, hwrite, hread, ?_, hmatches, ?_, hvector, ?_⟩
  · intro heq
    cases hsame.mp heq
  · exact read_write_keeps_identity.1 bytes other hread
  · exact hwhole

end Object

end ObjectRelay
