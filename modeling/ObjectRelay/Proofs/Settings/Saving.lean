import ObjectRelay.Proofs.Settings.File
import ObjectRelay.Settings.Arguments

namespace ObjectRelay.NodeSettings

variable {format : SettingsFormat} {settings held : NodeSettings}
  {arguments : Arguments} {file? : Option String} {text : String}
  {peers : List String}

/-- The settings with more peers to connect to. -/
def connecting (settings : NodeSettings) (peers : List String) : NodeSettings :=
  { settings with
    network := { settings.network with
      connect := settings.network.connect ++ peers } }

theorem connecting_nil (settings : NodeSettings) :
    settings.connecting [] = settings := by
  simp [connecting]

theorem connecting_connecting (settings : NodeSettings)
    (first second : List String) :
    (settings.connecting first).connecting second =
      settings.connecting (first ++ second) := by
  simp [connecting]

theorem connecting_eq_self_iff :
    settings.connecting peers = settings ↔ peers = [] := by
  constructor
  · intro h
    exact List.append_right_eq_self.mp (congrArg (·.network.connect) h)
  · rintro rfl
    exact connecting_nil settings

theorem check_connecting (settings : NodeSettings) (peers : List String) :
    (settings.connecting peers).check = settings.check := rfl

/-- What replaces a setting does so once; the peers to connect to are added to
the others. -/
theorem override_override (settings : NodeSettings) (arguments : Arguments) :
    (settings.override arguments).override arguments =
      (settings.override arguments).connecting arguments.connect := by
  have htwice {α : Type} (given? : Option α) (held : α) :
      given?.getD (given?.getD held) = given?.getD held := by
    cases given? <;> rfl
  simp only [override, connecting, htwice, Bool.and_assoc, Bool.and_self]

def adopt (arguments : Arguments) (held : NodeSettings) :
    Except SettingsError NodeSettings := do
  (held.override arguments).check
  return held.override arguments

theorem load_none (format : SettingsFormat) (arguments : Arguments) :
    load format none arguments = adopt arguments {} := by
  unfold load
  rfl

theorem load_some (format : SettingsFormat) (text : String)
    (arguments : Arguments) : load format (some text) arguments =
      (ofFile format text).bind (adopt arguments) := by
  unfold load
  rfl

theorem adopt_eq_ok_iff :
    adopt arguments held = .ok settings ↔
      held.override arguments = settings ∧ settings.check = .ok () := by
  unfold adopt
  cases hcheck : (held.override arguments).check with
  | error failure =>
      refine iff_of_false (by rintro ⟨⟩) ?_
      rintro ⟨rfl, hfine⟩
      cases hcheck.symm.trans hfine
  | ok =>
      constructor
      · rintro ⟨⟩
        exact ⟨rfl, hcheck⟩
      · rintro ⟨rfl, -⟩
        rfl

/-- The settings have taken up the command line, and a node can run with
them. -/
structure Loaded (arguments : Arguments) (settings : NodeSettings) : Prop where
  override_eq : settings.override arguments =
    settings.connecting arguments.connect
  check_eq : settings.check = .ok ()

theorem loaded_of_load (h : load format file? arguments = .ok settings) :
    Loaded arguments settings := by
  obtain ⟨held, hadopt⟩ : ∃ held, adopt arguments held = .ok settings := by
    cases file? with
    | none =>
        rw [load_none] at h
        exact ⟨{}, h⟩
    | some text =>
        rw [load_some] at h
        cases hfile : ofFile format text with
        | error failure =>
            rw [hfile] at h
            cases h
        | ok held =>
            rw [hfile] at h
            exact ⟨held, h⟩
  obtain ⟨rfl, hcheck⟩ := adopt_eq_ok_iff.mp hadopt
  exact ⟨override_override held arguments, hcheck⟩

theorem Loaded.connecting (h : Loaded arguments settings)
    (peers : List String) :
    Loaded arguments (settings.connecting peers) := by
  refine ⟨?_, (check_connecting settings peers).trans h.check_eq⟩
  have hmore : (settings.connecting peers).override arguments =
      { settings.override arguments with
        network := { (settings.override arguments).network with
          connect := settings.network.connect ++ peers ++
            arguments.connect } } := rfl
  rw [hmore, h.override_eq]
  rfl

theorem toFile_eq_ok_iff :
    settings.toFile format = .ok text ↔ format.print settings = .ok text := by
  unfold toFile
  cases format.print settings with
  | error reason => exact iff_of_false nofun nofun
  | ok written =>
      exact Iff.of_eq
        (by rw [Except.mapError, Except.ok.injEq, Except.ok.injEq])

theorem ofFile_of_toFile (hformat : format.ReadsBack)
    (h : settings.toFile format = .ok text) :
    ofFile format text = .ok settings := by
  rw [ofFile, hformat settings text (toFile_eq_ok_iff.mp h)]

theorem Loaded.load_eq (h : Loaded arguments settings)
    (hformat : format.ReadsBack) (hsave : settings.toFile format = .ok text) :
    load format (some text) arguments =
      .ok (settings.connecting arguments.connect) := by
  rw [load_some, ofFile_of_toFile hformat hsave]
  exact adopt_eq_ok_iff.mpr ⟨h.override_eq, h.check_eq⟩

def reload (format : SettingsFormat) (arguments : Arguments)
    (settings : NodeSettings) : Except SettingsError NodeSettings := do
  load format (some (← settings.toFile format)) arguments

def reloads (format : SettingsFormat) (arguments : Arguments) :
    Nat → NodeSettings → Except SettingsError NodeSettings
  | 0, settings => .ok settings
  | count + 1, settings =>
      reload format arguments settings >>= reloads format arguments count

/-- The settings can be saved, and so can they with any more peers. -/
def Savable (format : SettingsFormat) (settings : NodeSettings) : Prop :=
  ∀ peers, ∃ text, (settings.connecting peers).toFile format = .ok text

theorem Savable.connecting (h : Savable format settings)
    (peers : List String) : Savable format (settings.connecting peers) := by
  intro more
  rw [connecting_connecting]
  exact h (peers ++ more)

theorem Loaded.reload_eq (h : Loaded arguments settings)
    (hformat : format.ReadsBack) (hsave : settings.toFile format = .ok text) :
    reload format arguments settings =
      .ok (settings.connecting arguments.connect) := by
  rw [reload, hsave]
  exact h.load_eq hformat hsave

theorem Loaded.reloads_eq (h : Loaded arguments settings)
    (hformat : format.ReadsBack) (hsavable : Savable format settings)
    (count : Nat) :
    reloads format arguments count settings = .ok (settings.connecting
      (List.replicate count arguments.connect).flatten) := by
  induction count generalizing settings with
  | zero =>
      rw [List.replicate_zero, List.flatten_nil, connecting_nil]
      rfl
  | succ count ih =>
      obtain ⟨text, hsave⟩ := hsavable []
      rw [connecting_nil] at hsave
      have hmore := ih (h.connecting arguments.connect)
        (hsavable.connecting arguments.connect)
      rw [connecting_connecting, ← List.flatten_cons,
        ← List.replicate_succ] at hmore
      rw [reloads, h.reload_eq hformat hsave]
      exact hmore

/-- In a notation that is read back as it is written, settings that were saved
are loaded again with the peers of the command line added once more.  So they
stay as they are just when it gives no peers, and otherwise grow for as long as
they are saved and loaded. -/
theorem reload_stable_iff (hformat : format.ReadsBack)
    (hload : load format file? arguments = .ok settings)
    (hsave : settings.toFile format = .ok text) :
    load format (some text) arguments =
        .ok (settings.connecting arguments.connect) ∧
      (load format (some text) arguments = .ok settings ↔
        arguments.connect = []) ∧
      (Savable format settings → ∀ count,
        reloads format arguments count settings = .ok (settings.connecting
          (List.replicate count arguments.connect).flatten)) := by
  have hloaded := loaded_of_load hload
  have hread := hloaded.load_eq hformat hsave
  refine ⟨hread, ?_, hloaded.reloads_eq hformat⟩
  rw [hread, Except.ok.injEq, connecting_eq_self_iff]

theorem canWrite_texts (texts : List String) :
    canWrite ((Form.list Form.text).write texts) = true := by
  refine List.all_eq_true.mpr fun value hmem => ?_
  obtain ⟨text, -, rfl⟩ := List.mem_map.mp hmem
  rfl

theorem canWrite_write_iff {σ : Type} {fields : List (Field σ)} {settings : σ} :
    (∀ entry ∈ Field.write fields settings, canWrite entry.2 = true) ↔
      ∀ field ∈ fields, ∀ value ∈ field.get? settings,
        canWrite value = true := by
  constructor
  · intro h field hmem value hvalue
    exact h (field.name, value)
      (Field.mem_write_iff.mpr ⟨field, hmem, rfl, hvalue⟩)
  · intro h entry hentry
    obtain ⟨field, hmem, -, hvalue⟩ := Field.mem_write_iff.mp hentry
    exact h field hmem entry.2 hvalue

theorem savable_toml (h : settings.canPrint = true) :
    Savable .toml settings := by
  intro peers
  refine ⟨_, toFile_eq_ok_iff.mpr
    (SettingsFormat.print_toml_eq_ok_iff.mpr ⟨?_, rfl⟩)⟩
  rw [canPrint_iff] at h ⊢
  simp only [sections, List.forall_mem_cons, canWrite_write_iff] at h ⊢
  simp only [connecting, NetworkSettings.fields, List.forall_mem_cons, Field.of,
    Field.optional, Option.mem_some_iff, forall_eq', canWrite_texts,
    List.not_mem_nil, false_implies, implies_true] at h ⊢
  exact h

/-- A node is told of one peer, and saves its settings time and again. -/
theorem newcomer_connects_again :
    let arguments : Arguments :=
      { connect := ["10.0.0.1:8444"], writesSettings := true }
    let settings : NodeSettings :=
      { network := { connect := ["10.0.0.1:8444"] } }
    SettingsFormat.toml.ReadsBack ∧
      ∃ text, load .toml none arguments = .ok settings ∧
        settings.toFile .toml = .ok text ∧
        load .toml (some text) arguments =
          .ok (settings.connecting ["10.0.0.1:8444"]) ∧
        load .toml (some text) arguments ≠ .ok settings ∧
        ∀ count, reloads .toml arguments count settings = .ok
          (settings.connecting (List.replicate count "10.0.0.1:8444")) := by
  intro arguments settings
  have hload : load .toml none arguments = .ok settings := by decide
  have hprint : settings.canPrint = true := by decide
  have hsave : settings.toFile .toml = .ok settings.sections.print :=
    toFile_eq_ok_iff.mpr
      (SettingsFormat.print_toml_eq_ok_iff.mpr ⟨hprint, rfl⟩)
  obtain ⟨hread, hstable, hagain⟩ :=
    reload_stable_iff SettingsFormat.readsBack_toml hload hsave
  refine ⟨SettingsFormat.readsBack_toml, _, hload, hsave, hread, ?_, ?_⟩
  · intro hsame
    cases hstable.mp hsame
  · intro count
    rw [hagain (savable_toml hprint), List.flatten_replicate_singleton]

end NodeSettings

end ObjectRelay
