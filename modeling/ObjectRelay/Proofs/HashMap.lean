import Mathlib.Data.List.Basic
import Std.Data.HashMap

namespace ObjectRelay

variable {α β : Type} [BEq α] [Hashable α] {map : Std.HashMap α β}

theorem values_eq_map_toList (map : Std.HashMap α β) :
    map.values = map.toList.map Prod.snd := by
  rw [Std.HashMap.values, Std.DHashMap.values,
    Std.DHashMap.Internal.Raw.values_eq_values_toListModel,
    Std.Internal.List.values_eq_map,
    Std.HashMap.toList, Std.DHashMap.Const.toList,
    Std.DHashMap.Internal.Raw.Const.toList_eq_toListModel_map, List.map_map]
  rfl

theorem mem_values_iff [LawfulBEq α] {value : β} :
    value ∈ map.values ↔ ∃ key : α, map[key]? = some value := by
  rw [values_eq_map_toList, List.mem_map]
  constructor
  · rintro ⟨⟨key, _⟩, hmem, rfl⟩
    exact ⟨key, Std.HashMap.mem_toList_iff_getElem?_eq_some.mp hmem⟩
  · rintro ⟨key, hheld⟩
    exact ⟨(key, value),
      Std.HashMap.mem_toList_iff_getElem?_eq_some.mpr hheld, rfl⟩

theorem mem_keys_iff [LawfulBEq α] {key : α} :
    key ∈ map.keys ↔ ∃ value, map[key]? = some value := by
  rw [Std.HashMap.mem_keys, Std.HashMap.mem_iff_isSome_getElem?,
    Option.isSome_iff_exists]

theorem getElem?_foldl_erase_eq_some_iff [LawfulBEq α] (entries : List (α × β))
    (map : Std.HashMap α β) {key : α} {value : β} :
    (entries.foldl (fun map entry => map.erase entry.1) map)[key]? =
      some value ↔
      key ∉ entries.map Prod.fst ∧ map[key]? = some value := by
  induction entries generalizing map with
  | nil => simp
  | cons entry rest ih =>
      rw [List.foldl_cons, ih, Std.HashMap.getElem?_erase, List.map_cons,
        List.mem_cons, not_or]
      split
      · rename_i hsame
        have hkey : key = entry.1 := (beq_iff_eq.mp hsame).symm
        simp [hkey]
      · rename_i hother
        have hkey : key ≠ entry.1 :=
          fun hsame => hother (beq_iff_eq.mpr hsame.symm)
        simp [hkey]

theorem insertIfNew_eq_self {key : α} (h : map.contains key = true)
    (value : β) :
    map.insertIfNew key value = map := by
  obtain ⟨⟨⟨size, buckets⟩, hvalid⟩⟩ := map
  simp only [Std.HashMap.contains, Std.DHashMap.contains,
    Std.DHashMap.Internal.Raw₀.contains] at h
  simp only [Std.HashMap.insertIfNew, Std.DHashMap.insertIfNew,
    Std.DHashMap.Internal.Raw₀.insertIfNew, h]
  rfl

theorem erase_eq_self {key : α} (h : map.contains key = false) :
    map.erase key = map := by
  obtain ⟨⟨⟨size, buckets⟩, hvalid⟩⟩ := map
  simp only [Std.HashMap.contains, Std.DHashMap.contains,
    Std.DHashMap.Internal.Raw₀.contains] at h
  simp only [Std.HashMap.erase, Std.DHashMap.erase,
    Std.DHashMap.Internal.Raw₀.erase, h]
  rfl

end ObjectRelay
