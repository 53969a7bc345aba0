import Mathlib.Data.List.Basic
import ObjectRelay.Settings.Field

namespace ObjectRelay

open Toml (Value Entries)

variable {α β σ : Type}

namespace Form

/-- What is written in this form is read back. -/
def Lawful (form : Form α) : Prop :=
  ∀ value, form.read? (form.write value) = some value

theorem lawful_text : text.Lawful := fun _ => rfl

theorem lawful_flag : flag.Lawful := fun _ => rfl

theorem read?_below {bound value : Nat} (h : value < bound) :
    (below bound).read? ((below bound).write value) = some value := by
  have hbound : (0 : Int) ≤ value ∧ (value : Int) < bound := by omega
  simp only [below, if_pos hbound, Int.toNat_natCast]

theorem lawful_word16 : word16.Lawful := by
  intro value
  have hbound : value.toNat < UInt16.size := value.toNat_lt
  simp only [word16, map, read?_below hbound, Option.map_some,
    UInt16.ofNat_toNat]

theorem lawful_word64 : word64.Lawful := by
  intro value
  have hbound : value.toNat < UInt64.size := value.toNat_lt
  simp only [word64, map, read?_below hbound, Option.map_some,
    UInt64.ofNat_toNat]

theorem Lawful.list {form : Form α} (h : form.Lawful) : (list form).Lawful := by
  intro values
  show (values.map form.write).mapM form.read? = some values
  induction values with
  | nil => rfl
  | cons value values ih => simp [h value, ih]

end Form

namespace Field

variable {fields : List (Field σ)} {field : Field σ} {settings initial : σ}
  {form : Form α}

theorem write_cons (field : Field σ) (fields : List (Field σ)) (settings : σ) :
    write (field :: fields) settings =
      ((field.get? settings).map fun value => (field.name, value)).toList ++
        write fields settings := by
  cases hvalue : field.get? settings <;> simp [write, hvalue]

theorem mem_write_iff {entry : String × Value} :
    entry ∈ write fields settings ↔
      ∃ field ∈ fields, field.name = entry.1 ∧
        field.get? settings = some entry.2 := by
  obtain ⟨name, value⟩ := entry
  simp only [write, List.mem_filterMap, Option.map_eq_some_iff, Prod.mk.injEq]
  constructor
  · rintro ⟨field, hmem, value, hvalue, hname, rfl⟩
    exact ⟨field, hmem, hname, hvalue⟩
  · rintro ⟨field, hmem, hname, hvalue⟩
    exact ⟨field, hmem, value, hvalue, hname, rfl⟩

theorem keys_write_sublist (fields : List (Field σ)) (settings : σ) :
    ((write fields settings).map Prod.fst).Sublist (fields.map Field.name) := by
  induction fields with
  | nil => exact List.Sublist.refl []
  | cons field fields ih =>
      rw [write_cons, List.map_append, List.map_cons]
      cases field.get? settings with
      | none => exact ih.cons field.name
      | some value => exact ih.cons_cons field.name

theorem get?_write (hnames : (fields.map Field.name).Nodup)
    (hmem : field ∈ fields) :
    Entries.get? (write fields settings) field.name = field.get? settings := by
  induction fields with
  | nil => cases hmem
  | cons first fields ih =>
      rw [List.map_cons, List.nodup_cons] at hnames
      rw [write_cons]
      rcases List.mem_cons.mp hmem with rfl | hmem
      · cases hvalue : field.get? settings with
        | none =>
            refine List.lookup_eq_none_iff.mpr fun entry hentry => ?_
            have hkey := (keys_write_sublist fields settings).mem
              (List.mem_map_of_mem hentry)
            rw [bne_iff_ne]
            exact fun hsame => hnames.1 (hsame ▸ hkey)
        | some value => simp [Entries.get?]
      · have hother : field.name ≠ first.name := by
          intro hsame
          exact hnames.1 (hsame ▸ List.mem_map_of_mem hmem)
        have hmore := ih hnames.2 hmem
        cases first.get? settings with
        | none => exact hmore
        | some value =>
            rw [Entries.get?, Option.map_some, Option.toList_some,
              List.singleton_append, List.lookup_cons, beq_false_of_ne hother]
            exact hmore

/-- Each setting that has a value is put in its place. -/
def copyAll? (settings : σ) (fields : List (Field σ)) (initial : σ) :
    Option σ :=
  putAll? initial (fields.filterMap fun field =>
    (field.get? settings).map fun value => (field, value))

theorem read?_write (hnames : (fields.map Field.name).Nodup)
    (origin : Toml.Origin) (settings initial : σ) :
    read? fields initial (.table origin (write fields settings)) =
      copyAll? settings fields initial := by
  have hfound : (fields.filterMap fun field =>
      (Entries.get? (write fields settings) field.name).map fun value =>
        (field, value)) =
      fields.filterMap fun field => (field.get? settings).map fun value =>
        (field, value) :=
    List.filterMap_congr fun field hmem => by rw [get?_write hnames hmem]
  rw [read?, hfound, copyAll?]

@[simp] theorem copyAll?_nil (settings initial : σ) :
    copyAll? settings [] initial = some initial :=
  rfl

theorem copyAll?_of (h : form.Lawful) (name : String) (get : σ → α)
    (set : α → σ → σ) (fields : List (Field σ)) (settings initial : σ) :
    copyAll? settings (.of form name get set :: fields) initial =
      copyAll? settings fields (set (get settings) initial) := by
  simp [copyAll?, putAll?, of, h (get settings)]

theorem copyAll?_optional (h : form.Lawful) (name : String)
    (get? : σ → Option α) (set : Option α → σ → σ) (fields : List (Field σ))
    (settings initial : σ) :
    copyAll? settings (.optional form name get? set :: fields) initial =
      copyAll? settings fields
        (if (get? settings).isSome then set (get? settings) initial
          else initial) := by
  cases hvalue : get? settings with
  | none => simp [copyAll?, optional, hvalue]
  | some value => simp [copyAll?, putAll?, optional, hvalue, h value]

end Field

end ObjectRelay
