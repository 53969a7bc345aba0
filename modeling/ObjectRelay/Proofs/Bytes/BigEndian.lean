import Mathlib.Tactic.Ring
import ObjectRelay.Bytes.Octets

namespace ObjectRelay

namespace Bytes

theorem toNat_cons (byte : UInt8) (rest : Bytes) :
    toNat (byte :: rest) = byte.toNat * 256 ^ rest.length + toNat rest := by
  have h := toNat_append [byte] rest
  simpa [toNat] using h

theorem toNat_bigEndian (width value : Nat) :
    toNat (bigEndian width value) = value % 256 ^ width := by
  induction width with
  | zero => simp [Nat.mod_one]
  | succ width ih =>
      rw [bigEndian_succ, toNat_cons, length_bigEndian, ih, Nat.pow_succ]
      rw [Nat.mod_mul, UInt8.toNat_ofNat']
      show value / 256 ^ width % 256 * 256 ^ width + value % 256 ^ width = _
      ring

theorem toNat_lt (bytes : Bytes) : toNat bytes < 256 ^ bytes.length := by
  induction bytes with
  | nil => simp
  | cons byte rest ih =>
      have hbyte : byte.toNat + 1 ≤ 256 := byte.toNat_lt
      calc
        toNat (byte :: rest) = byte.toNat * 256 ^ rest.length + toNat rest :=
          toNat_cons byte rest
        _ < byte.toNat * 256 ^ rest.length + 256 ^ rest.length :=
            Nat.add_lt_add_left ih _
        _ = (byte.toNat + 1) * 256 ^ rest.length := by ring
        _ ≤ 256 * 256 ^ rest.length := Nat.mul_le_mul_right _ hbyte
        _ = 256 ^ (byte :: rest).length := by
          rw [List.length_cons]
          ring

theorem bigEndian_mul_add (width high value : Nat) :
    bigEndian width (high * 256 ^ width + value) = bigEndian width value := by
  induction width generalizing high with
  | zero => rfl
  | succ width ih =>
      have hsplit : high * 256 ^ (width + 1) + value =
          high * 256 * 256 ^ width + value := by ring
      have hbyte : (high * 256 * 256 ^ width + value) / 256 ^ width =
          256 * high + value / 256 ^ width := by
        rw [Nat.add_comm, Nat.add_mul_div_right _ _ (Nat.pow_pos (by decide))]
        ring
      rw [hsplit, bigEndian_succ, bigEndian_succ, ih, Nat.pow_eq, hbyte]
      congr 1
      rw [← UInt8.toNat_inj]
      simp

theorem bigEndian_toNat (bytes : Bytes) :
    bigEndian bytes.length (toNat bytes) = bytes := by
  induction bytes with
  | nil => rfl
  | cons byte rest ih =>
      have hbyte : (byte.toNat * 256 ^ rest.length + toNat rest) / 256 ^
          rest.length =
          byte.toNat := by
        rw [Nat.add_comm, Nat.add_mul_div_right _ _ (Nat.pow_pos (by decide)),
          Nat.div_eq_of_lt (toNat_lt rest), Nat.zero_add]
      rw [toNat_cons, List.length_cons, bigEndian_succ, bigEndian_mul_add, ih,
        Nat.pow_eq, hbyte, UInt8.ofNat_toNat]

end Bytes

theorem Octets.ofNat_injOn {size left right : Nat} (hleft : left < 256 ^ size)
    (hright : right < 256 ^ size) (h : ofNat size left = ofNat size right) :
    left = right := by
  have hbytes := congrArg Octets.toNat h
  simpa [ofNat, toNat, Bytes.toNat_bigEndian, Nat.mod_eq_of_lt, hleft, hright]
    using hbytes

end ObjectRelay
