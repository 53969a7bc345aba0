import ObjectRelay.Proofs.Settings.Field
import ObjectRelay.Proofs.Toml.Sections
import ObjectRelay.Settings.File

namespace ObjectRelay

open Toml (Value Entries Bare)

variable {α σ : Type}

namespace Form

/-- The values that are written in this form are flat, if there is room for
them. -/
def Flat (form : Form α) : Prop :=
  ∀ value, NodeSettings.canWrite (form.write value) = true →
    (form.write value).Flat

theorem flat_text : text.Flat := fun value _ => .simple (.text value)

theorem flat_flag : flag.Flat := fun value _ => .simple (.boolean value)

theorem simple_integer {value : Nat}
    (h : NodeSettings.canWrite (.integer value) = true) :
    (Value.integer value).Simple :=
  .integer (of_decide_eq_true h)

theorem flat_word16 : word16.Flat := fun _ h => .simple (simple_integer h)

theorem flat_word64 : word64.Flat := fun _ h => .simple (simple_integer h)

theorem flat_texts : (list text).Flat := by
  intro values _
  refine .array fun value hmem => ?_
  obtain ⟨text, -, rfl⟩ := List.mem_map.mp hmem
  exact .text text

theorem flat_words : (list word64).Flat := by
  intro values h
  refine .array fun value hmem => ?_
  have hroom := List.all_eq_true.mp h value hmem
  obtain ⟨word, -, rfl⟩ := List.mem_map.mp hmem
  exact simple_integer hroom

end Form

namespace Field

variable {fields : List (Field σ)} {settings : σ} {form : Form α}

def Flat (field : Field σ) : Prop :=
  ∀ settings, ∀ value ∈ field.get? settings,
    NodeSettings.canWrite value = true → value.Flat

theorem flat_of (h : form.Flat) (name : String) (get : σ → α)
    (set : α → σ → σ) :
    (of form name get set).Flat := by
  rintro settings value ⟨⟩ hroom
  exact h _ hroom

theorem flat_optional (h : form.Flat) (name : String) (get? : σ → Option α)
    (set : Option α → σ → σ) : (optional form name get? set).Flat := by
  intro settings value hvalue hroom
  obtain ⟨found, -, rfl⟩ := Option.map_eq_some_iff.mp hvalue
  exact h found hroom

/-- The settings can be written to one section and told apart in it. -/
structure Group (fields : List (Field σ)) : Prop where
  bare : ∀ name ∈ fields.map Field.name, Bare name
  nodup : (fields.map Field.name).Nodup
  flat : ∀ field ∈ fields, field.Flat

theorem Group.plain_write (h : Group fields)
    (hroom : ∀ entry ∈ write fields settings,
      NodeSettings.canWrite entry.2 = true) :
    (write fields settings).Plain := by
  refine ⟨?bare, ?flat, (keys_write_sublist fields settings).nodup h.nodup⟩
  case bare =>
    intro entry hentry
    obtain ⟨field, hmem, hname, -⟩ := mem_write_iff.mp hentry
    exact hname ▸ h.bare field.name (List.mem_map_of_mem hmem)
  case flat =>
    intro entry hentry
    obtain ⟨field, hmem, -, hvalue⟩ := mem_write_iff.mp hentry
    exact h.flat field hmem settings entry.2 hvalue (hroom entry hentry)

end Field

theorem NetworkSettings.group_fields : Field.Group fields := by
  refine ⟨by decide, by decide, ?_⟩
  simp [fields, Field.flat_of, Field.flat_optional, Form.flat_text,
    Form.flat_flag, Form.flat_word16, Form.flat_word64, Form.flat_texts,
    Form.flat_words]

theorem WorkSettings.group_fields : Field.Group fields := by
  refine ⟨by decide, by decide, ?_⟩
  simp [fields, Field.flat_of, Form.flat_word64]

theorem InventorySettings.group_fields : Field.Group fields := by
  refine ⟨by decide, by decide, ?_⟩
  simp [fields, Field.flat_of, Form.flat_word64]

theorem NetworkSettings.copyAll?_fields (settings : NetworkSettings) :
    Field.copyAll? settings fields {} = some settings := by
  obtain ⟨_, _, _, _, _, _, _, _, _, userAgent?, _, _, _, _⟩ := settings
  simp only [fields, Field.copyAll?_of Form.lawful_text,
    Field.copyAll?_of Form.lawful_word16, Field.copyAll?_of Form.lawful_word64,
    Field.copyAll?_of Form.lawful_flag,
    Field.copyAll?_of Form.lawful_word64.list,
    Field.copyAll?_of Form.lawful_text.list,
    Field.copyAll?_optional Form.lawful_text, Field.copyAll?_nil]
  cases userAgent? with
  | none => rfl
  | some userAgent => rfl

theorem WorkSettings.copyAll?_fields (settings : WorkSettings) :
    Field.copyAll? settings fields {} = some settings := by
  simp only [fields, Field.copyAll?_of Form.lawful_word64, Field.copyAll?_nil]

theorem InventorySettings.copyAll?_fields (settings : InventorySettings) :
    Field.copyAll? settings fields {} = some settings := by
  simp only [fields, Field.copyAll?_of Form.lawful_word64, Field.copyAll?_nil]

namespace NodeSettings

open Toml.Document (tableOf)

variable {settings : NodeSettings} {text : String}

theorem canPrint_iff :
    settings.canPrint = true ↔ ∀ entry ∈ settings.sections,
      ∀ inner ∈ entry.2, canWrite inner.2 = true := by
  simp only [canPrint, List.all_eq_true]

theorem plain_sections
    (hroom : ∀ entry ∈ settings.sections, ∀ inner ∈ entry.2,
      canWrite inner.2 = true) :
    settings.sections.Plain := by
  simp only [sections, List.forall_mem_cons] at hroom
  refine ⟨?bare, ?plain, ?nodup⟩
  case bare =>
    simp only [sections, List.forall_mem_cons]
    decide
  case plain =>
    simp only [sections, List.forall_mem_cons]
    exact ⟨NetworkSettings.group_fields.plain_write hroom.1,
      WorkSettings.group_fields.plain_write hroom.2.1,
      InventorySettings.group_fields.plain_write hroom.2.2.1,
      fun _ hmem => nomatch hmem⟩
  case nodup =>
    show ["network", "pow", "inventory"].Nodup
    decide

theorem restore_section {fields : List (Field σ)} {held initial : σ}
    {entries : Entries} {name : String} (hfields : Field.Group fields)
    (hget : entries.get? name = some (.table .header (Field.write fields held)))
    (hcopy : Field.copyAll? held fields initial = some held) :
    NodeSettings.section? fields initial entries name = some held := by
  rw [section?, hget]
  exact (Field.read?_write hfields.nodup .header held initial).trans hcopy

theorem ofEntries?_sections (settings : NodeSettings) :
    ofEntries? (settings.sections.map tableOf) = some settings := by
  have hnetwork : section? NetworkSettings.fields {}
      (settings.sections.map tableOf) "network" = some settings.network :=
    restore_section NetworkSettings.group_fields
      (by simp [sections, tableOf, Entries.get?])
      (NetworkSettings.copyAll?_fields settings.network)
  have hwork : section? WorkSettings.fields {}
      (settings.sections.map tableOf) "pow" = some settings.work :=
    restore_section WorkSettings.group_fields
      (by simp [sections, tableOf, Entries.get?, List.lookup_cons])
      (WorkSettings.copyAll?_fields settings.work)
  have hinventory : section? InventorySettings.fields {}
      (settings.sections.map tableOf) "inventory" = some settings.inventory :=
    restore_section InventorySettings.group_fields
      (by simp [sections, tableOf, Entries.get?, List.lookup_cons])
      (InventorySettings.copyAll?_fields settings.inventory)
  rw [ofEntries?, hnetwork, hwork, hinventory]
  rfl

end NodeSettings

namespace SettingsFormat

variable {settings : NodeSettings} {text : String}

theorem print_toml_eq_ok_iff :
    toml.print settings = .ok text ↔
      settings.canPrint = true ∧ settings.sections.print = text := by
  show (if settings.canPrint then _ else _) = _ ↔ _
  split
  · rename_i hprint
    rw [Except.ok.injEq, and_iff_right hprint]
  · rename_i hprint
    refine iff_of_false (by rintro ⟨⟩) ?_
    exact fun h => hprint h.1

theorem readsBack_toml : toml.ReadsBack := by
  intro settings text h
  obtain ⟨hprint, rfl⟩ := print_toml_eq_ok_iff.mp h
  have hplain :=
    NodeSettings.plain_sections (NodeSettings.canPrint_iff.mp hprint)
  show Toml.Document.read? _ >>= _ = _
  rw [Toml.Document.read?_print hplain, Option.bind_eq_bind, Option.bind_some,
    NodeSettings.ofEntries?_sections]

end SettingsFormat

end ObjectRelay
