import Mathlib.Tactic.SplitIfs
import ObjectRelay.Frame.Command
import ObjectRelay.Proofs.Text.Utf8

namespace ObjectRelay

namespace Command

variable {command : String} {field : Bytes}

theorem lt_of_isVisible {byte : UInt8} (h : isVisible byte = true) :
    0x20 < byte.toNat ∧ byte.toNat < 0x7F := by
  rw [isVisible, Bool.and_eq_true, decide_eq_true_eq, decide_eq_true_eq,
    UInt8.le_iff_toNat_le, UInt8.le_iff_toNat_le] at h
  exact ⟨h.1, Nat.lt_succ_of_le h.2⟩

theorem ne_zero_of_isVisible {byte : UInt8} (h : isVisible byte = true) :
    (decide (byte ≠ 0)) = true := by
  have hvisible := lt_of_isVisible h
  rw [decide_eq_true_eq]
  intro hzero
  subst hzero
  simp at hvisible

theorem write_eq_ok_iff :
    write command = .ok field ↔
      (0 < (Utf8.encode command).length ∧
        (Utf8.encode command).length ≤ fieldSize ∧
        (Utf8.encode command).all isVisible = true) ∧
      field = Utf8.encode command ++
        List.replicate (fieldSize - (Utf8.encode command).length) 0 := by
  unfold write
  dsimp only
  split
  · rename_i hcommand
    rw [Except.ok.injEq, and_iff_right hcommand, eq_comm]
  · rename_i hcommand
    exact ⟨fun h => (by cases h), fun h => absurd h.1 hcommand⟩

theorem isVisible_ofNat {code : Nat} (hmore : 0x20 < code)
    (hless : code < 0x7F) :
    isVisible (UInt8.ofNat code) = true := by
  have hcode : (UInt8.ofNat code).toNat = code :=
    UInt8.toNat_ofNat_of_lt' (Nat.lt_trans hless (by decide))
  rw [isVisible, Bool.and_eq_true, decide_eq_true_eq, decide_eq_true_eq,
    UInt8.le_iff_toNat_le, UInt8.le_iff_toNat_le, hcode]
  exact ⟨hmore, Nat.le_of_lt_succ hless⟩

theorem exists_write_of_visible (hsome : 0 < command.length)
    (hmost : command.length ≤ fieldSize)
    (hvisible : ∀ character ∈ command.toList, 0x20 < character.toNat ∧
      character.toNat < 0x7F) :
    ∃ field, write command = .ok field := by
  have hbytes : Utf8.encode command =
      command.toList.map fun character => UInt8.ofNat character.toNat :=
    Utf8.encode_eq_map fun character hmem =>
      Nat.lt_trans (hvisible character hmem).2 (by decide)
  have hlength : (Utf8.encode command).length = command.length := by
    rw [hbytes, List.length_map, String.length_toList]
  refine ⟨_, write_eq_ok_iff.mpr ⟨⟨?_, ?_, ?_⟩, rfl⟩⟩
  · rwa [hlength]
  · rwa [hlength]
  · rw [hbytes, List.all_map, List.all_eq_true]
    intro character hmem
    exact isVisible_ofNat (hvisible character hmem).1
      (hvisible character hmem).2

theorem length_of_write (h : write command = .ok field) :
    field.length = fieldSize := by
  obtain ⟨⟨-, hmost, -⟩, rfl⟩ := write_eq_ok_iff.mp h
  rw [List.length_append, List.length_replicate]
  omega

theorem read_of_write (h : write command = .ok field) :
    read field = .ok command := by
  obtain ⟨⟨hsome, -, hvisible⟩, rfl⟩ := write_eq_ok_iff.mp h
  have hletters : ∀ byte ∈ Utf8.encode command, (decide (byte ≠ 0)) = true :=
    fun byte hmem =>
      ne_zero_of_isVisible (List.all_eq_true.mp hvisible byte hmem)
  have hname : (Utf8.encode command).isEmpty = false :=
    List.isEmpty_eq_false_iff.mpr (List.ne_nil_of_length_pos hsome)
  unfold read
  rw [List.takeWhile_append_of_pos hletters,
    List.dropWhile_append_of_pos hletters, List.takeWhile_replicate,
    List.dropWhile_replicate]
  simp [hname, hvisible, Utf8.decode_encode]

theorem write_of_read (hlength : field.length = fieldSize)
    (h : read field = .ok command) :
    write command = .ok field := by
  unfold read at h
  dsimp only at h
  split_ifs at h with hpadding hempty hvisible
  rw [Except.ok.injEq] at h
  subst h
  have hsplit : field.takeWhile (· ≠ 0) ++ field.dropWhile (· ≠ 0) = field :=
    List.takeWhile_append_dropWhile
  generalize field.takeWhile (· ≠ 0) = letters at *
  generalize field.dropWhile (· ≠ 0) = padding at *
  have hzeros : padding = List.replicate padding.length 0 := by
    refine List.eq_replicate_of_mem fun byte hmem => ?_
    simp only [List.any_eq_true, not_exists, not_and] at hpadding
    simpa using hpadding byte hmem
  have htext : Utf8.encode (Utf8.decode letters) = letters := by
    refine Utf8.encode_decode (Utf8.valid_of_ascii fun byte hmem => ?_)
    have hbyte := lt_of_isVisible (List.all_eq_true.mp hvisible byte hmem)
    omega
  rw [← hsplit, List.length_append] at hlength
  rw [write_eq_ok_iff, htext]
  refine ⟨⟨?_, by omega, hvisible⟩, ?_⟩
  · exact List.length_pos_iff.mpr (by simpa using hempty)
  · rw [← hsplit, ← hlength, Nat.add_sub_cancel_left, ← hzeros]

end Command

end ObjectRelay
