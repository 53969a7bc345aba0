import ObjectRelay.Wire.Varint

namespace ObjectRelay

namespace Reader

variable {α β : Type} {bytes rest : Bytes}

theorem bind_eq_ok_iff {first : Reader α} {next : α → Reader β} {value : β} :
    (first >>= next) bytes = .ok value rest ↔
      ∃ read middle, first bytes = .ok read middle ∧
        next read middle = .ok value rest := by
  cases hfirst : first bytes with
  | ok read middle =>
      rw [bind_ok hfirst]
      constructor
      · exact fun h => ⟨read, middle, rfl, h⟩
      · intro hread
        obtain ⟨_, _, hsame, h⟩ := hread
        cases hsame
        exact h
  | error failure middle =>
      rw [bind_error hfirst]
      constructor
      · intro h
        cases h
      · intro hread
        obtain ⟨_, _, hsame, -⟩ := hread
        cases hsame

theorem map_eq_ok_iff {reader : Reader α} {build : α → β} {value : β} :
    (build <$> reader) bytes = .ok value rest ↔
      ∃ read, reader bytes = .ok read rest ∧ value = build read := by
  show EStateM.map build reader bytes = _ ↔ _
  rw [EStateM.map]
  cases hreader : reader bytes with
  | ok read middle =>
      constructor
      · intro h
        cases h
        exact ⟨read, rfl, rfl⟩
      · intro hread
        obtain ⟨_, hsame, rfl⟩ := hread
        cases hsame
        rfl
  | error failure middle =>
      constructor
      · intro h
        cases h
      · intro hread
        obtain ⟨_, hsame, -⟩ := hread
        cases hsame

theorem map_error {reader : Reader α} {build : α → β} {failure : WireError}
    (h : reader bytes = .error failure rest) :
    (build <$> reader) bytes = .error failure rest := by
  show EStateM.map build reader bytes = _
  rw [EStateM.map, h]

theorem length_collect {item : Reader α} {count : Nat} {read values : List α}
    (h : collect item count read bytes = .ok values rest) :
    values.length = read.length + count := by
  induction count generalizing bytes read with
  | zero =>
      cases h
      exact List.length_reverse
  | succ count ih =>
      rw [collect] at h
      dsimp only at h
      split at h
      · rw [ih h, List.length_cons]
        omega
      · cases h

theorem length_many {item : Reader α} {count : Nat} {values : List α}
    (h : many count item bytes = .ok values rest) : values.length = count := by
  have hlength := length_collect h
  simpa using hlength

end Reader

theorem Varint.le_of_readAtMost {limit : Nat} {field : String}
    {bytes rest : Bytes} {value : Nat}
    (h : readAtMost limit field bytes = .ok value rest) : value ≤ limit := by
  obtain ⟨read, middle, -, hread⟩ := Reader.bind_eq_ok_iff.mp h
  split at hread
  · cases hread
  · cases hread
    omega

end ObjectRelay
