import ApiTypings.Proofs.Outcomes
import ApiTypings.Settings.Source

/-! # How bad settings are reported

A fault of the configuration is reported for a file that is asked for and missing, and for a file
that gives fields the wrong values. All else that can be wrong with settings comes out as a fault of
its own: a file that cannot be read or does not hold named fields, the variable of a list that is no
JSON, and, where no file gives fields, variables with the wrong values. -/

namespace ApiTypings

open Outcomes

/-- Is the fault one of the configuration? -/
def SettingsFault.isConfiguration : SettingsFault → Bool
  | configuration .. => true
  | _ => false

namespace Environment

variable {env : Environment} {field : String} {names : List String} {fault : SettingsFault}

/-- The variable of a list is there and is no JSON. -/
def Broken (env : Environment) (field : String) : Prop :=
  field ∈ Settings.listNames ∧
    ∃ text e, env.value? field = some text ∧ Json.parse text.toList = .error e

/-- The first broken one of some variables. -/
inductive FirstBroken (env : Environment) : List String → String → Prop
  | here {name : String} {rest : List String} : env.Broken name →
      FirstBroken env (name :: rest) name
  | there {name field : String} {rest : List String} : ¬env.Broken name →
      FirstBroken env rest field → FirstBroken env (name :: rest) field

theorem field?_eq_error_iff :
    env.field? field = .error fault ↔ env.Broken field ∧ fault = .badVariable field := by
  unfold field? Broken
  cases env.value? field with
  | none => simp
  | some text =>
    by_cases hl : field ∈ Settings.listNames
    · cases hp : Json.parse text.toList with
      | error e => simp [hl, hp, eq_comm]
      | ok value => cases value <;> simp [hl, hp]
    · simp [hl]

theorem fieldsOf_eq_error_iff : env.fieldsOf names = .error fault ↔
    ∃ field, env.FirstBroken names field ∧ fault = .badVariable field := by
  induction names with
  | nil => exact ⟨nofun, nofun⟩
  | cons name rest ih =>
    rw [fieldsOf]
    cases hf : env.field? name with
    | error f =>
      obtain ⟨hb, rfl⟩ := field?_eq_error_iff.mp hf
      constructor
      · rintro ⟨⟩
        exact ⟨name, .here hb, rfl⟩
      · rintro ⟨field, h, rfl⟩
        cases h with
        | here => rfl
        | there hn _ => exact absurd hb hn
    | ok value? =>
      have hb : ¬env.Broken name := fun hb => by
        cases hf.symm.trans (field?_eq_error_iff.mpr ⟨hb, rfl⟩)
      have hnext : (∃ field, env.FirstBroken (name :: rest) field ∧ fault = .badVariable field) ↔
          ∃ field, env.FirstBroken rest field ∧ fault = .badVariable field := by
        refine exists_congr fun field => and_congr_left' ⟨fun h => ?_, .there hb⟩
        cases h with
        | here h => exact absurd h hb
        | there _ h => exact h
      rw [hnext, ← ih]
      cases env.fieldsOf rest with
      | error f => rfl
      | ok others => exact ⟨nofun, nofun⟩

end Environment

namespace Settings

/-! ## Files -/

/-- A file that settings are read from: one of settings alone, with the name it is reported by, or
that of a project. -/
inductive SettingsFile where
  | yaml (path : Path) (source : String)
  | project (path : Path)

def SettingsFile.path : SettingsFile → Path
  | yaml path _ | project path => path

/-- The file is the selected one: that which is asked for, or else the first that is there. -/
inductive Selected (w : Workspace) (asked : Option String) : SettingsFile → Prop
  | asked {name : String} : nonEmpty? asked = some name → w.contains (Path.ofString name) = true →
      Selected w asked (.yaml (Path.ofString name) name)
  | standard {earlier later : List String} {name : String} : nonEmpty? asked = none →
      fileNames = earlier ++ name :: later →
      (∀ other ∈ earlier, w.contains (w.path.child other) = false) →
      w.contains (w.path.child name) = true →
      Selected w asked (.yaml (w.path.child name) (w.path.child name).text)
  | project : nonEmpty? asked = none →
      (∀ name ∈ fileNames, w.contains (w.path.child name) = false) →
      w.contains (w.path.child projectName) = true →
      Selected w asked (.project (w.path.child projectName))

/-- What a file gives. -/
def SettingsFile.given (w : Workspace) : SettingsFile → Except SettingsFault (Option GivenFields)
  | yaml path source => givenByYaml w path source
  | project path => givenByProject w path

/-- A file is selected, or the one that is asked for is missing, or there is none. -/
inductive Lookup (w : Workspace) (asked : Option String) :
    Except SettingsFault (Option GivenFields) → Prop
  | selected {file : SettingsFile} : Selected w asked file → Lookup w asked (file.given w)
  | missing {name : String} : nonEmpty? asked = some name →
      w.contains (Path.ofString name) = false → Lookup w asked
        (.error (.configuration "Configuration file not found" (some name) none))
  | nothing : nonEmpty? asked = none →
      (∀ name ∈ projectName :: fileNames, w.contains (w.path.child name) = false) →
      Lookup w asked (.ok none)

theorem lookup_given (w : Workspace) (asked : Option String) :
    Lookup w asked (Settings.given w asked) := by
  unfold Settings.given
  cases ha : nonEmpty? asked with
  | some name =>
    dsimp only
    split
    next hc => exact .selected (.asked ha hc)
    next hc => exact .missing ha (by simpa using hc)
  | none =>
    dsimp only
    split
    next file hf =>
      rw [List.find?_map] at hf
      obtain ⟨name, hname, rfl⟩ := Option.map_eq_some_iff.mp hf
      obtain ⟨hc, earlier, later, hsplit, hearlier⟩ := List.find?_eq_some_iff_append.mp hname
      exact .selected (.standard ha hsplit (by simpa using hearlier) hc)
    next hf =>
      rw [List.find?_map, Option.map_eq_none_iff, List.find?_eq_none] at hf
      have hfiles : ∀ name ∈ fileNames, w.contains (w.path.child name) = false := by
        simpa using hf
      split
      next hc => exact .selected (.project ha hfiles hc)
      next hc => exact .nothing ha (List.forall_mem_cons.mpr ⟨by simpa using hc, hfiles⟩)

/-- What is wrong with the tools of a project: they hold something other than fields for the
settings, or nothing can be looked up in them. -/
inductive BadTools : Json → SettingsFault → Prop
  | fields {tools : List (String × Json)} {value : Json} : tools.lookup "discotyper" = some value →
      (∀ fields, value ≠ .object fields) → BadTools (.object tools) (.notFields (kindName value))
  | list {items : List Json} : .string "discotyper" ∈ items →
      BadTools (.array items) (.notFields "list")
  | text {text : String} : 1 < (text.splitOn "discotyper").length →
      BadTools (.string text) (.notFields "str")
  | scalar {value : Json} : (∀ tools, value ≠ .object tools) → (∀ items, value ≠ .array items) →
      (∀ text, value ≠ .string text) → BadTools value (.notTables (kindName value))

/-- What is wrong with a file, so that its fields cannot be had. -/
inductive Unusable (w : Workspace) : SettingsFile → SettingsFault → Prop
  | unreadable {file : SettingsFile} {cause : Cause} :
      w.readText file.path = .error cause → Unusable w file (.unreadable cause)
  | badYaml {path : Path} {source : String} {text : List Char} {fault : Yaml.SyntaxFault} :
      w.readText path = .ok text → Yaml.parse text = .error fault →
      Unusable w (.yaml path source) (.badYaml fault)
  | notFields {path : Path} {source : String} {text : List Char} {value : Yaml} :
      w.readText path = .ok text → Yaml.parse text = .ok value → value.isEmpty = false →
      (∀ entries, value ≠ .map entries) →
      Unusable w (.yaml path source) (.notFields (kindName value.toJson))
  | unnamedField {path : Path} {source : String} {text : List Char}
      {entries : List (Yaml × Yaml)} :
      w.readText path = .ok text → Yaml.parse text = .ok (.map entries) →
      Yaml.hasTextKeys entries = false → Unusable w (.yaml path source) .unnamedField
  | badToml {path : Path} {text : List Char} {fault : Toml.Fault} :
      w.readText path = .ok text → Toml.parse text = .error fault →
      Unusable w (.project path) (.badToml fault)
  | badTools {path : Path} {text : List Char} {project tools : Json} {fault : SettingsFault} :
      w.readText path = .ok text → Toml.parse text = .ok project →
      project.get? "tool" = some tools → BadTools tools fault → Unusable w (.project path) fault

section
variable {w : Workspace} {path : Path} {fault : SettingsFault} {project : Json}

theorem fieldsOfYaml_eq_error_iff {value : Yaml} : fieldsOfYaml value = .error fault ↔
    (∃ entries, value = .map entries ∧ Yaml.hasTextKeys entries = false ∧ fault = .unnamedField) ∨
      (∀ entries, value ≠ .map entries) ∧ fault = .notFields (kindName value.toJson) := by
  cases value with
  | map entries =>
    cases hk : Yaml.hasTextKeys entries <;> simp [fieldsOfYaml, hk, eq_comm (a := fault)]
  | _ => simp [fieldsOfYaml, eq_comm (a := fault)]

theorem fieldsOfTable_eq_error_iff {value : Json} : fieldsOfTable value = .error fault ↔
    (∀ fields, value ≠ .object fields) ∧ fault = .notFields (kindName value) := by
  cases value <;> simp [fieldsOfTable, eq_comm (a := fault)]

theorem projectTable?_eq_some_iff {value : Json} : projectTable? project = .ok (some value) ↔
    ∃ tools, project.get? "tool" = some (.object tools) ∧
      tools.lookup "discotyper" = some value := by
  unfold projectTable?
  split
  next ht => simp [ht]
  next tools ht => simp [ht]
  next items ht => split <;> simp [ht]
  next text ht => split <;> simp [ht]
  next tools hobject _ _ ht =>
    rw [ht]
    refine ⟨nofun, ?_⟩
    rintro ⟨fields, hf, -⟩
    exact absurd (Option.some.inj hf) (hobject fields)

theorem any_named_iff {items : List Json} :
    (items.any fun item => item matches .string "discotyper") = true ↔
      .string "discotyper" ∈ items := by
  rw [List.any_eq_true]
  constructor
  · rintro ⟨item, hm, h⟩
    split at h
    · exact hm
    · cases h
  · exact fun hm => ⟨_, hm, rfl⟩

theorem badTools_array_iff {items : List Json} : BadTools (.array items) fault ↔
    .string "discotyper" ∈ items ∧ fault = .notFields "list" := by
  constructor
  · intro h
    cases h with
    | list hm => exact ⟨hm, rfl⟩
    | scalar _ ha _ => exact absurd rfl (ha items)
  · rintro ⟨hm, rfl⟩
    exact .list hm

theorem badTools_string_iff {text : String} : BadTools (.string text) fault ↔
    1 < (text.splitOn "discotyper").length ∧ fault = .notFields "str" := by
  constructor
  · intro h
    cases h with
    | text hm => exact ⟨hm, rfl⟩
    | scalar _ _ hs => exact absurd rfl (hs text)
  · rintro ⟨hm, rfl⟩
    exact .text hm

/-- Tools that are tables are looked up in, whatever they hold. -/
theorem projectTable?_eq_error_iff : projectTable? project = .error fault ↔
    ∃ tools, project.get? "tool" = some tools ∧ (∀ fields, tools ≠ .object fields) ∧
      BadTools tools fault := by
  unfold projectTable?
  split
  next ht => simp [ht]
  next tools ht => simp [ht]
  next items ht =>
    simp only [ht, Option.some.injEq, exists_eq_left', badTools_array_iff]
    split
    next hm => simp [any_named_iff.mp hm, eq_comm (a := fault)]
    next hm => simp [mt any_named_iff.mpr hm]
  next text ht =>
    simp only [ht, Option.some.injEq, exists_eq_left', badTools_string_iff]
    split
    next hm => simp [hm, eq_comm (a := fault)]
    next hm => simp [hm]
  next tools hobject harray hstring ht =>
    simp only [ht, Option.some.injEq, exists_eq_left']
    constructor
    · rintro ⟨⟩
      exact ⟨hobject, .scalar hobject harray hstring⟩
    · rintro ⟨-, h⟩
      cases h with
      | fields => exact absurd rfl (hobject _)
      | list => exact absurd rfl (harray _)
      | text => exact absurd rfl (hstring _)
      | scalar => rfl

theorem loadYaml_eq_ok_iff {value : Yaml} : loadYaml w path = .ok value ↔
    ∃ text read, w.readText path = .ok text ∧ Yaml.parse text = .ok read ∧
      value = if read.isEmpty then .map [] else read := by
  simp only [loadYaml, bind_eq_ok_iff, mapError_eq_ok_iff, pure, Except.pure, Except.ok.injEq,
    eq_comm (b := value), exists_and_left]

theorem loadYaml_eq_error_iff : loadYaml w path = .error fault ↔
    (∃ cause, w.readText path = .error cause ∧ fault = .unreadable cause) ∨
      ∃ text e, w.readText path = .ok text ∧ Yaml.parse text = .error e ∧ fault = .badYaml e := by
  simp only [loadYaml, bind_eq_error_iff, mapError_eq_error_iff, mapError_eq_ok_iff, pure,
    Except.pure, reduceCtorEq, and_false, exists_false, or_false, eq_comm (a := fault),
    exists_and_left]

theorem givenByYaml_eq_error_iff {source : String} :
    givenByYaml w path source = .error fault ↔ Unusable w (.yaml path source) fault := by
  simp only [givenByYaml, bind_eq_error_iff, loadYaml_eq_error_iff, loadYaml_eq_ok_iff,
    fieldsOfYaml_eq_error_iff]
  constructor
  · rintro ((⟨cause, hr, rfl⟩ | ⟨text, e, hr, hp, rfl⟩) |
      ⟨_, ⟨text, read, hr, hp, rfl⟩, (⟨entries, he, hk, rfl⟩ | ⟨hne, rfl⟩) | ⟨_, _, h⟩⟩)
    · exact .unreadable hr
    · exact .badYaml hr hp
    · split at he
      · cases he
        cases hk
      · exact .unnamedField hr (he ▸ hp) hk
    · split at hne
      · exact absurd rfl (hne [])
      next hempty =>
        rw [if_neg hempty]
        exact .notFields hr hp (by simpa using hempty) hne
    · cases h
  · intro h
    cases h with
    | unreadable hr => exact .inl (.inl ⟨_, hr, rfl⟩)
    | badYaml hr hp => exact .inl (.inr ⟨_, _, hr, hp, rfl⟩)
    | notFields hr hp hempty hne =>
      refine .inr ⟨_, ⟨_, _, hr, hp, rfl⟩, .inl (.inr ?_)⟩
      rw [hempty, if_neg Bool.false_ne_true]
      exact ⟨hne, rfl⟩
    | @unnamedField _ _ _ entries hr hp hk =>
      refine .inr ⟨_, ⟨_, _, hr, hp, rfl⟩, .inl (.inl ⟨entries, ?_, hk, rfl⟩)⟩
      -- A map without entries would be as good as an empty file, but its keys are texts.
      refine if_neg fun hempty => ?_
      rw [List.isEmpty_iff.mp hempty] at hk
      cases hk

theorem givenByProject_eq_error_iff :
    givenByProject w path = .error fault ↔ Unusable w (.project path) fault := by
  simp only [givenByProject, bind_eq_error_iff, mapError_eq_error_iff, mapError_eq_ok_iff,
    projectTable?_eq_error_iff]
  constructor
  · rintro (⟨cause, hr, rfl⟩ | ⟨text, hr, ⟨e, hp, rfl⟩ | ⟨project, hp,
      ⟨tools, ht, -, hbad⟩ | ⟨_ | table, ht, h⟩⟩⟩)
    · exact .unreadable hr
    · exact .badToml hr hp
    · exact .badTools hr hp ht hbad
    · cases h
    · obtain ⟨tools, ht, hl⟩ := projectTable?_eq_some_iff.mp ht
      rcases bind_eq_error_iff.mp h with h | ⟨_, _, h⟩
      · obtain ⟨hne, rfl⟩ := fieldsOfTable_eq_error_iff.mp h
        exact .badTools hr hp ht (.fields hl hne)
      · cases h
  · intro h
    cases h with
    | unreadable hr => exact .inl ⟨_, hr, rfl⟩
    | badToml hr hp => exact .inr ⟨_, hr, .inl ⟨_, hp, rfl⟩⟩
    | badTools hr hp ht hbad =>
      refine .inr ⟨_, hr, .inr ⟨_, hp, ?_⟩⟩
      cases hbad with
      | @fields tools value hl hne =>
        refine .inr ⟨some value, projectTable?_eq_some_iff.mpr ⟨tools, ht, hl⟩, ?_⟩
        exact bind_eq_error_iff.mpr (.inl (fieldsOfTable_eq_error_iff.mpr ⟨hne, rfl⟩))
      | list hm => exact .inl ⟨_, ht, nofun, .list hm⟩
      | text hm => exact .inl ⟨_, ht, nofun, .text hm⟩
      | scalar ho ha hs => exact .inl ⟨_, ht, ho, .scalar ho ha hs⟩

theorem given_eq_error_iff {file : SettingsFile} :
    file.given w = .error fault ↔ Unusable w file fault := by
  cases file with
  | yaml path source => exact givenByYaml_eq_error_iff
  | project path => exact givenByProject_eq_error_iff

end

/-! ## Settings -/

/-- What is reported as a fault of the configuration. -/
inductive Reported (w : Workspace) (env : Environment) (asked : Option String) :
    SettingsFault → Prop
  | missing {name : String} : nonEmpty? asked = some name →
      w.contains (Path.ofString name) = false → Reported w env asked
        (.configuration "Configuration file not found" (some name) none)
  | values {file : SettingsFile} {given : GivenFields} {others : List (String × Json)}
      {faults : List Fault} :
      Selected w asked file → file.given w = .ok (some given) → env.fields = .ok others →
      ofFields (given.fields ++ others) = .invalid faults → Reported w env asked
        (.configuration "Invalid configuration" (some given.source)
          (nonEmpty? (faults.head?.map Fault.location)))

/-- What comes out as it is. -/
inductive Unreported (w : Workspace) (env : Environment) (asked : Option String) :
    SettingsFault → Prop
  | file {file : SettingsFile} {fault : SettingsFault} :
      Selected w asked file → Unusable w file fault → Unreported w env asked fault
  | list {given? : Option GivenFields} {field : String} :
      given w asked = .ok given? → env.FirstBroken fieldNames field →
      Unreported w env asked (.badVariable field)
  | values {others : List (String × Json)} {faults : List Fault} :
      given w asked = .ok none → env.fields = .ok others → ofFields others = .invalid faults →
      Unreported w env asked (.invalid faults)

section
variable {w : Workspace} {env : Environment} {asked : Option String} {fault : SettingsFault}
  {file : SettingsFile}

theorem toExcept_eq_error_iff {α : Type} {checked : Checked α} {faults : List Fault} :
    checked.toExcept = .error faults ↔ checked = .invalid faults := by
  cases checked <;> simp [Checked.toExcept]

theorem create_eq_error_iff {fields : List (String × Json)} : create env fields = .error fault ↔
    (∃ field, env.FirstBroken fieldNames field ∧ fault = .badVariable field) ∨
      ∃ others faults, env.fields = .ok others ∧ ofFields (fields ++ others) = .invalid faults ∧
        fault = .invalid faults := by
  simp only [create, bind_eq_error_iff, Environment.fields, Environment.fieldsOf_eq_error_iff,
    mapError_eq_error_iff, toExcept_eq_error_iff, eq_comm (a := fault), exists_and_left]

theorem Reported.isConfiguration (h : Reported w env asked fault) : fault.isConfiguration := by
  cases h <;> rfl

theorem Unusable.not_isConfiguration (h : Unusable w file fault) :
    fault.isConfiguration = false := by
  cases h with
  | badTools _ _ _ h => cases h <;> rfl
  | _ => rfl

theorem Unreported.not_isConfiguration (h : Unreported w env asked fault) :
    fault.isConfiguration = false := by
  cases h with
  | file _ h => exact h.not_isConfiguration
  | _ => rfl

theorem Selected.given_eq (h : Selected w asked file) : Settings.given w asked = file.given w := by
  cases h with
  | asked ha hc => simp only [Settings.given, ha, hc, if_true, SettingsFile.given]
  | @standard earlier later name ha hs he hc =>
    have hearlier : earlier.find? (w.contains ∘ w.path.child) = none :=
      List.find?_eq_none.mpr (by simpa using he)
    have hhere : (w.contains ∘ w.path.child) name = true := hc
    have hfind : (fileNames.map w.path.child).find? w.contains = some (w.path.child name) := by
      rw [List.find?_map, hs, List.find?_append, hearlier, List.find?_cons_of_pos hhere]
      rfl
    simp only [Settings.given, ha, hfind, SettingsFile.given]
  | project ha hf hc =>
    have hfind : (fileNames.map w.path.child).find? w.contains = none := by
      rw [List.find?_map, List.find?_eq_none.mpr (by simpa using hf)]
      rfl
    simp only [Settings.given, ha, hfind, hc, if_true, SettingsFile.given]

/-- The fields of a file are given by a file that is selected. -/
theorem selected_of_given {given : GivenFields} (h : Settings.given w asked = .ok (some given)) :
    ∃ file, Selected w asked file ∧ file.given w = .ok (some given) := by
  have hl := lookup_given w asked
  generalize Settings.given w asked = outcome at h hl
  cases hl with
  | selected hs => exact ⟨_, hs, h⟩
  | missing => cases h
  | nothing => cases h

theorem given_eq_error_cases (h : Settings.given w asked = .error fault) :
    Reported w env asked fault ∨ Unreported w env asked fault := by
  have hl := lookup_given w asked
  generalize Settings.given w asked = outcome at h hl
  cases hl with
  | selected hs => exact .inr (.file hs (given_eq_error_iff.mp h))
  | missing ha hc =>
    cases h
    exact .inl (.missing ha hc)
  | nothing => cases h

theorem find_eq_error_iff : find w env asked = .error fault ↔
    Reported w env asked fault ∨ Unreported w env asked fault := by
  rw [find, bind_eq_error_iff]
  constructor
  · rintro (h | ⟨_ | given, hg, h⟩)
    · exact given_eq_error_cases h
    · rcases create_eq_error_iff.mp h with ⟨field, hb, rfl⟩ | ⟨others, faults, hv, hf, rfl⟩
      · exact .inr (.list hg hb)
      · exact .inr (.values hg hv hf)
    · obtain ⟨cause, hcreate, rfl⟩ := mapError_eq_error_iff.mp h
      rcases create_eq_error_iff.mp hcreate with ⟨field, hb, rfl⟩ | ⟨others, faults, hv, hf, rfl⟩
      · exact .inr (.list hg hb)
      · obtain ⟨file, hs, hfile⟩ := selected_of_given hg
        exact .inl (.values hs hfile hv hf)
  · rintro (h | h)
    · cases h with
      | missing ha hc => exact .inl (by simp [Settings.given, ha, hc])
      | @values file given others faults hs hg hv hf =>
        refine .inr ⟨some given, hs.given_eq.trans hg, ?_⟩
        refine mapError_eq_error_iff.mpr ⟨.invalid faults, ?_, rfl⟩
        exact create_eq_error_iff.mpr (.inr ⟨others, faults, hv, hf, rfl⟩)
    · cases h with
      | file hs hu => exact .inl (hs.given_eq.trans (given_eq_error_iff.mpr hu))
      | @list given? field hg hb =>
        have hc : ∀ fields, create env fields = .error (.badVariable field) := fun fields =>
          create_eq_error_iff.mpr (.inl ⟨field, hb, rfl⟩)
        refine .inr ⟨given?, hg, ?_⟩
        cases given? with
        | none => exact hc []
        | some given => exact mapError_eq_error_iff.mpr ⟨_, hc given.fields, rfl⟩
      | values hg hv hf =>
        exact .inr ⟨none, hg, create_eq_error_iff.mpr (.inr ⟨_, _, hv, hf, rfl⟩)⟩

/-- A file that is asked for and missing, and a file whose fields have the wrong values together
with the variables, are reported as faults of the configuration. Whatever else is wrong with a file
or with the variables comes out as it is. -/
theorem configuration_faults (w : Workspace) (env : Environment) (asked : Option String) :
    (∀ fault, find w env asked = .error fault ∧ fault.isConfiguration = true ↔
      Reported w env asked fault) ∧
    ∀ fault, find w env asked = .error fault ∧ fault.isConfiguration = false ↔
      Unreported w env asked fault := by
  constructor
  · intro fault
    constructor
    · rintro ⟨hf, hc⟩
      rcases find_eq_error_iff.mp hf with h | h
      · exact h
      · exact nomatch hc.symm.trans h.not_isConfiguration
    · exact fun h => ⟨find_eq_error_iff.mpr (.inl h), h.isConfiguration⟩
  · intro fault
    constructor
    · rintro ⟨hf, hc⟩
      rcases find_eq_error_iff.mp hf with h | h
      · exact nomatch hc.symm.trans h.isConfiguration
      · exact h
    · exact fun h => ⟨find_eq_error_iff.mpr (.inr h), h.not_isConfiguration⟩

/-- A file that is no YAML is refused, and that is not reported as a fault of the configuration. -/
theorem unclosed_list_not_reported :
    let w : Workspace := ⟨⟨[(["c.yaml"], .file (Utf8.encode "output: ["))]⟩, []⟩
    find w [] (some "c.yaml") = .error (.badYaml .unclosedBracket) ∧
      ¬∀ env asked fault, find w env asked = .error fault → fault.isConfiguration = true := by
  intro w
  have hf : find w [] (some "c.yaml") = .error (.badYaml .unclosedBracket) := rfl
  exact ⟨hf, fun h => Bool.false_ne_true (h [] _ _ hf)⟩

end

end Settings

end ApiTypings
