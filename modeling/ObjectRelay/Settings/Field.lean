import ObjectRelay.Toml.Value

namespace ObjectRelay

open Toml (Value Entries)

structure Form (α : Type) where
  read? : Value → Option α
  write : α → Value

namespace Form

def text : Form String where
  read?
    | .text text => some text
    | _ => none
  write := .text

def flag : Form Bool where
  read?
    | .boolean value => some value
    | _ => none
  write := .boolean

def below (bound : Nat) : Form Nat where
  read?
    | .integer value =>
      if 0 ≤ value ∧ value < bound then some value.toNat else none
    | _ => none
  write value := .integer value

def map (form : Form α) (wrap : α → β) (unwrap : β → α) : Form β where
  read? value := (form.read? value).map wrap
  write value := form.write (unwrap value)

def word16 : Form UInt16 := (below UInt16.size).map UInt16.ofNat UInt16.toNat

def word64 : Form UInt64 := (below UInt64.size).map UInt64.ofNat UInt64.toNat

def list (form : Form α) : Form (List α) where
  read?
    | .array values => values.mapM form.read?
    | .tables tables => (tables.map (Value.table .header)).mapM form.read?
    | _ => none
  write values := .array (values.map form.write)

end Form

structure Field (σ : Type) where
  name : String
  put? : Value → σ → Option σ
  get? : σ → Option Value

namespace Field

def of (form : Form α) (name : String) (get : σ → α) (set : α → σ → σ) :
    Field σ where
  name := name
  put? value settings := (form.read? value).map fun value => set value settings
  get? settings := some (form.write (get settings))

def optional (form : Form α) (name : String) (get? : σ → Option α)
    (set : Option α → σ → σ) : Field σ where
  name := name
  put? value settings :=
    (form.read? value).map fun value => set (some value) settings
  get? settings := (get? settings).map form.write

def putAll? (settings : σ) (found : List (Field σ × Value)) : Option σ :=
  found.foldlM (fun settings (field, value) => field.put? value settings)
    settings

/-- Settings may be named, in any order and with others among them, or stand in
their own order in an array.  A date names none of them. -/
def read? (fields : List (Field σ)) (settings : σ) : Value → Option σ
  | .table _ entries =>
      putAll? settings (fields.filterMap fun field =>
        (Entries.get? entries field.name).map fun value => (field, value))
  | .array values => putAll? settings (fields.zip values)
  | .tables tables =>
    putAll? settings (fields.zip (tables.map (Value.table .header)))
  | .moment _ => some settings
  | _ => none

def write (fields : List (Field σ)) (settings : σ) : Entries :=
  fields.filterMap fun field => (field.get? settings).map fun value =>
    (field.name, value)

end Field

end ObjectRelay
