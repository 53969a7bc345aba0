namespace ObjectRelay

abbrev Bytes := List UInt8

namespace Bytes

def bigEndian : Nat → Nat → Bytes
  | 0, _ => []
  | width + 1, value =>
      UInt8.ofNat (value / Nat.pow 256 width) :: bigEndian width value

def toNat (bytes : Bytes) : Nat :=
  bytes.foldl (fun total byte => total * 256 + byte.toNat) 0

@[simp] theorem bigEndian_zero (value : Nat) : bigEndian 0 value = [] := rfl

@[simp] theorem bigEndian_succ (width value : Nat) :
    bigEndian (width + 1) value =
      UInt8.ofNat (value / Nat.pow 256 width) :: bigEndian width value := rfl

@[simp] theorem length_bigEndian (width value : Nat) :
    (bigEndian width value).length = width := by
  induction width with
  | zero => rfl
  | succ width ih => simp [ih]

@[simp] theorem toNat_nil : toNat [] = 0 := rfl

theorem foldl_toNat (bytes : Bytes) (start : Nat) :
    bytes.foldl (fun total byte => total * 256 + byte.toNat) start =
      start * Nat.pow 256 bytes.length + toNat bytes := by
  induction bytes generalizing start with
  | nil => simp
  | cons byte rest ih =>
      have hrest : toNat (byte :: rest) =
          byte.toNat * Nat.pow 256 rest.length + toNat rest := by
        have h := ih (0 * 256 + byte.toNat)
        simpa [toNat] using h
      have hpow : Nat.pow 256 (rest.length + 1) =
          Nat.pow 256 rest.length * 256 := rfl
      rw [List.foldl_cons, ih, hrest, List.length_cons, hpow, Nat.add_mul,
        Nat.mul_assoc, Nat.mul_comm 256, Nat.add_assoc]

theorem toNat_append (first second : Bytes) :
    toNat (first ++ second) =
      toNat first * Nat.pow 256 second.length + toNat second := by
  rw [toNat, List.foldl_append]
  exact foldl_toNat second _

def hasAtLeast : Nat → Bytes → Bool
  | 0, _ => true
  | _ + 1, [] => false
  | count + 1, _ :: rest => hasAtLeast count rest

@[simp] theorem hasAtLeast_iff (count : Nat) (bytes : Bytes) :
    hasAtLeast count bytes = true ↔ count ≤ bytes.length := by
  induction count generalizing bytes with
  | zero => simp [hasAtLeast]
  | succ count ih =>
      cases bytes with
      | nil => simp [hasAtLeast]
      | cons byte rest => simp [hasAtLeast, ih]

end Bytes

end ObjectRelay
