import ApiTypings.CommandLine.Run
import ApiTypings.Proofs.Reordering
import ApiTypings.Proofs.SettingsFaults

/-! # The layers of the settings

A field of the settings is given by the command line, or else by the selected file, or else by its
variable, or else it has its default. Each field goes through these layers by itself. Files are
looked for in an order, and those behind the selected one play no part. -/

namespace ApiTypings

open Outcomes

/-- The fields of the settings. -/
inductive SettingsField where
  | output | directoryUrl | service | url | allVersions | excludedApis | excludedResources
  | typescriptVersion | definitionsBy | templatesDir | timeout

namespace SettingsField

/-- What a file calls the field, and what follows the mark in the name of its variable. -/
def name : SettingsField → String
  | output => "output"
  | directoryUrl => "directory_url"
  | service => "service"
  | url => "url"
  | allVersions => "all_versions"
  | excludedApis => "excluded_apis"
  | excludedResources => "excluded_resources"
  | typescriptVersion => "typescript_version"
  | definitionsBy => "definitions_by"
  | templatesDir => "templates_dir"
  | timeout => "timeout"

def Value : SettingsField → Type
  | output | directoryUrl | typescriptVersion => String
  | service | url | templatesDir => Option String
  | allVersions => Bool
  | excludedApis | excludedResources | definitionsBy => List String
  | timeout => Float

def get : (field : SettingsField) → Settings → field.Value
  | output => Settings.output
  | directoryUrl => Settings.directoryUrl
  | service => Settings.service
  | url => Settings.url
  | allVersions => Settings.allVersions
  | excludedApis => Settings.excludedApis
  | excludedResources => Settings.excludedResources
  | typescriptVersion => Settings.typescriptVersion
  | definitionsBy => Settings.definitionsBy
  | templatesDir => Settings.templatesDir
  | timeout => Settings.timeout

/-- The value that something written stands for. -/
def check : (field : SettingsField) → Json → Checked field.Value
  | output | directoryUrl | typescriptVersion => Json.asString
  | service | url | templatesDir => Json.orNull Json.asString
  | allVersions => Json.asBool
  | excludedApis | excludedResources | definitionsBy => Json.asListOf Json.asString
  | timeout => Settings.asFloat

/-- The value that the command line gives. The flag for all versions can only be set. -/
def option? : (field : SettingsField) → GenerateOptions → Option field.Value
  | output, o => o.out.map fun out => (Path.ofString out).text
  | service, o => o.service.map some
  | url, o => o.url.map some
  | allVersions, o => if o.allVersions then some true else none
  | directoryUrl, _ | excludedApis, _ | excludedResources, _ | typescriptVersion, _
  | definitionsBy, _ | templatesDir, _ | timeout, _ => none

end SettingsField

/-- What the variable of a field says. A list is written as JSON, and null says nothing; any other
field is written as it is. -/
inductive Environment.Says (env : Environment) (field : SettingsField) : Json → Prop
  | text {text : String} : field.name ∉ Settings.listNames → env.value? field.name = some text →
      Says env field (.string text)
  | list {text : String} {value : Json} : field.name ∈ Settings.listNames →
      env.value? field.name = some text → Json.parse text.toList = .ok value → value ≠ .null →
      Says env field value

/-- The value of a field from the first layer that gives it one, under the options of the command
line, the fields of the selected file and the variables. -/
inductive Layered (o : GenerateOptions) (file : List (String × Json)) (env : Environment)
    (field : SettingsField) : field.Value → Prop
  | option {a : field.Value} : field.option? o = some a → Layered o file env field a
  | file {value : Json} {a : field.Value} : field.option? o = none →
      file.lookup field.name = some value → field.check value = .valid a →
      Layered o file env field a
  | variable {value : Json} {a : field.Value} : field.option? o = none →
      file.lookup field.name = none → env.Says field value → field.check value = .valid a →
      Layered o file env field a
  | default : field.option? o = none → file.lookup field.name = none →
      (∀ value, ¬env.Says field value) → Layered o file env field (field.get Settings.defaults)

/-! ## Fields that are checked -/

namespace Checked

variable {α β : Type} {x : Checked α} {a : α} {b : β}

theorem map_eq_valid_iff {f : α → β} : f <$> x = .valid b ↔ ∃ a, x = .valid a ∧ f a = b := by
  cases x with
  | valid a => simp [Functor.map, map]
  | invalid faults => simp [Functor.map, map]

theorem seq_eq_valid_iff {f : Checked (α → β)} :
    f <*> x = .valid b ↔ ∃ g, f = .valid g ∧ ∃ a, x = .valid a ∧ g a = b := by
  cases f <;> cases x <;> simp [Seq.seq, apply]

theorem within_eq_valid_iff {step : PathStep} : x.within step = .valid a ↔ x = .valid a := by
  cases x <;> simp [within]

theorem toExcept_eq_ok_iff : x.toExcept = .ok a ↔ x = .valid a := by
  cases x <;> simp [toExcept]

end Checked

namespace Json

variable {α : Type} {check : Json → Checked α} {fields : List (String × Json)} {key : String}

theorem optionalField_eq_fieldOr :
    optionalField key check fields = fieldOr key none (orNull check) fields := by
  unfold optionalField fieldOr
  cases fields.lookup key with
  | none => rfl
  | some value => cases value <;> rfl

theorem fieldOr_eq_valid_iff {default a : α} : fieldOr key default check fields = .valid a ↔
    (fields.lookup key = none ∧ default = a) ∨
      ∃ value, fields.lookup key = some value ∧ check value = .valid a := by
  unfold fieldOr
  cases fields.lookup key with
  | none => simp
  | some value => simp [Checked.within_eq_valid_iff]

end Json

theorem SettingsField.read_eq_of_known {fields : List (String × Json)} {s : Settings}
    (h : Settings.known fields = .valid s) (field : SettingsField) :
    Json.fieldOr field.name (field.get Settings.defaults) field.check fields =
      .valid (field.get s) := by
  simp only [Settings.known, Json.optionalField_eq_fieldOr, Checked.seq_eq_valid_iff,
    Checked.map_eq_valid_iff] at h
  obtain ⟨_, ⟨_, ⟨_, ⟨_, ⟨_, ⟨_, ⟨_, ⟨_, ⟨_, ⟨_, ⟨_, houtput, rfl⟩, _, hdirectoryUrl, rfl⟩,
    _, hservice, rfl⟩, _, hurl, rfl⟩, _, hallVersions, rfl⟩, _, hexcludedApis, rfl⟩,
    _, hexcludedResources, rfl⟩, _, htypescriptVersion, rfl⟩, _, hdefinitionsBy, rfl⟩,
    _, htemplatesDir, rfl⟩, _, htimeout, rfl⟩ := h
  cases field with
  | output => exact houtput
  | directoryUrl => exact hdirectoryUrl
  | service => exact hservice
  | url => exact hurl
  | allVersions => exact hallVersions
  | excludedApis => exact hexcludedApis
  | excludedResources => exact hexcludedResources
  | typescriptVersion => exact htypescriptVersion
  | definitionsBy => exact hdefinitionsBy
  | templatesDir => exact htemplatesDir
  | timeout => exact htimeout

theorem SettingsField.name_mem (field : SettingsField) : field.name ∈ Settings.fieldNames := by
  cases field <;> decide

theorem Settings.known_of_ofFields {fields : List (String × Json)} {s : Settings}
    (h : ofFields fields = .valid s) : known fields = .valid s := by
  obtain ⟨_, hknown, _, _, rfl⟩ := Checked.seq_eq_valid_iff.mp h
  obtain ⟨s, hs, rfl⟩ := Checked.map_eq_valid_iff.mp hknown
  exact hs

/-! ## The environment -/

namespace Environment

variable {env : Environment} {names : List String} {given : List (String × Json)}

/-- The variables give a field what its own variable does. -/
theorem lookup_fieldsOf (h : env.fieldsOf names = .ok given) (field : String) :
    (field ∈ names → env.field? field = .ok (given.lookup field)) ∧
      (field ∉ names → given.lookup field = none) := by
  induction names generalizing given with
  | nil =>
    cases h
    exact ⟨nofun, fun _ => rfl⟩
  | cons name rest ih =>
    obtain ⟨value?, hvalue, h⟩ := bind_eq_ok_iff.mp h
    obtain ⟨others, hothers, h⟩ := bind_eq_ok_iff.mp h
    obtain ⟨hmem, hnot⟩ := ih hothers
    cases value? with
    | none =>
      cases h
      refine ⟨fun hm => ?_, fun hn => hnot (List.not_mem_of_not_mem_cons hn)⟩
      by_cases hrest : field ∈ rest
      · exact hmem hrest
      · cases (List.mem_cons.mp hm).resolve_right hrest
        rw [hvalue, hnot hrest]
    | some value =>
      cases h
      rw [Entries.lookup_cons, List.mem_cons]
      by_cases hname : field = name
      · cases hname
        exact ⟨fun _ => by rw [if_pos rfl, hvalue], fun hn => absurd (.inl rfl) hn⟩
      · rw [if_neg hname, or_iff_right hname]
        exact ⟨hmem, hnot⟩

theorem says_iff {field : SettingsField} {value : Json} :
    env.Says field value ↔ env.field? field.name = .ok (some value) := by
  unfold field?
  constructor
  · intro h
    cases h with
    | text hn hv => simp [hv, hn]
    | list hm hv hp hne =>
      rw [hv]
      simp [hm, hp]
  · intro h
    cases hv : env.value? field.name with
    | none => simp [hv] at h
    | some text =>
      by_cases hm : field.name ∈ Settings.listNames
      · simp only [hv, List.contains_iff_mem.mpr hm, if_true] at h
        split at h
        next => cases h
        next parsed hne hp =>
          cases h
          exact .list hm hv hp hne
        next => cases h
      · simp only [hv, List.contains_iff_mem, hm, if_false] at h
        cases h
        exact .text hm hv

theorem says_iff_of_fields (h : env.fields = .ok given) (field : SettingsField) (value : Json) :
    env.Says field value ↔ given.lookup field.name = some value := by
  rw [says_iff, (lookup_fieldsOf h field.name).1 field.name_mem, Except.ok.injEq]

end Environment

/-! ## The selected file -/

namespace Settings

/-- The fields in a file. A key that stands twice in a mapping has its last value. -/
inductive SettingsFile.Holds (w : Workspace) : SettingsFile → List (String × Json) → Prop
  | mapping {path : Path} {source : String} {text : List Char} {entries : List (Yaml × Yaml)} :
      w.readText path = .ok text → Yaml.parse text = .ok (.map entries) →
      Yaml.hasTextKeys entries = true →
      Holds w (.yaml path source) (Entries.ofList (Yaml.entriesToJson entries))
  | empty {path : Path} {source : String} {text : List Char} {value : Yaml} :
      w.readText path = .ok text → Yaml.parse text = .ok value → value.isEmpty = true →
      Holds w (.yaml path source) []
  | table {path : Path} {text : List Char} {project : Json} {tools fields : List (String × Json)} :
      w.readText path = .ok text → Toml.parse text = .ok project →
      project.get? "tool" = some (.object tools) →
      tools.lookup "discotyper" = some (.object fields) → Holds w (.project path) fields
  | noTable {path : Path} {text : List Char} {project : Json} :
      w.readText path = .ok text → Toml.parse text = .ok project →
      (∀ tools, project.get? "tool" = some (.object tools) → tools.lookup "discotyper" = none) →
      Holds w (.project path) []

/-- The fields of the selected file; there are none if no file is selected. -/
inductive FileFields (w : Workspace) (asked : Option String) : List (String × Json) → Prop
  | selected {file : SettingsFile} {fields : List (String × Json)} :
      Selected w asked file → file.Holds w fields → FileFields w asked fields
  | nothing : nonEmpty? asked = none →
      (∀ name ∈ projectName :: fileNames, w.contains (w.path.child name) = false) →
      FileFields w asked []

/-- The fields that a file gives, or none where no file does. -/
def fieldsOfGiven (given? : Option GivenFields) : List (String × Json) :=
  given?.elim [] GivenFields.fields

section
variable {w w' : Workspace} {asked : Option String} {file : SettingsFile}
  {fields : List (String × Json)} {given? : Option GivenFields}

theorem fieldsOfYaml_eq_ok_iff {value : Yaml} : fieldsOfYaml value = .ok fields ↔
    ∃ entries, value = .map entries ∧ Yaml.hasTextKeys entries = true ∧
      Entries.ofList (Yaml.entriesToJson entries) = fields := by
  cases value with
  | map entries => cases hk : Yaml.hasTextKeys entries <;> simp [fieldsOfYaml, hk]
  | _ => simp [fieldsOfYaml]

theorem fieldsOfTable_eq_ok_iff {value : Json} :
    fieldsOfTable value = .ok fields ↔ value = .object fields := by
  cases value <;> simp [fieldsOfTable]

theorem lookup_eq_none_of_projectTable? {project : Json} (h : projectTable? project = .ok none)
    (tools : List (String × Json)) (ht : project.get? "tool" = some (.object tools)) :
    tools.lookup "discotyper" = none := by
  rw [projectTable?, ht] at h
  exact Except.ok.inj h

theorem holds_of_given (h : file.given w = .ok given?) : file.Holds w (fieldsOfGiven given?) := by
  cases file with
  | yaml path source =>
    obtain ⟨value, hload, h⟩ := bind_eq_ok_iff.mp h
    obtain ⟨fields, hfields, h⟩ := bind_eq_ok_iff.mp h
    cases h
    obtain ⟨text, read, hr, hp, rfl⟩ := loadYaml_eq_ok_iff.mp hload
    obtain ⟨entries, he, hk, rfl⟩ := fieldsOfYaml_eq_ok_iff.mp hfields
    split at he
    next hempty =>
      cases he
      exact .empty hr hp hempty
    next =>
      cases he
      exact .mapping hr hp hk
  | project path =>
    obtain ⟨text, hr, h⟩ := bind_eq_ok_iff.mp h
    obtain ⟨project, hp, h⟩ := bind_eq_ok_iff.mp h
    obtain ⟨table?, ht, h⟩ := bind_eq_ok_iff.mp h
    have hr := mapError_eq_ok_iff.mp hr
    have hp := mapError_eq_ok_iff.mp hp
    cases table? with
    | none =>
      cases h
      exact .noTable hr hp (lookup_eq_none_of_projectTable? ht)
    | some table =>
      obtain ⟨fields, hfields, h⟩ := bind_eq_ok_iff.mp h
      cases h
      cases fieldsOfTable_eq_ok_iff.mp hfields
      obtain ⟨tools, htool, hl⟩ := projectTable?_eq_some_iff.mp ht
      exact .table hr hp htool hl

theorem fileFields_of_given (h : Settings.given w asked = .ok given?) :
    FileFields w asked (fieldsOfGiven given?) := by
  have hl := lookup_given w asked
  generalize Settings.given w asked = outcome at h hl
  cases hl with
  | selected hs => exact .selected hs (holds_of_given h)
  | missing => cases h
  | nothing ha hn =>
    cases h
    exact .nothing ha hn

theorem find?_fileNames {earlier later : List String} {name : String}
    (hs : fileNames = earlier ++ name :: later)
    (he : ∀ other ∈ earlier, w.contains (w.path.child other) = false)
    (hc : w.contains (w.path.child name) = true) :
    fileNames.find? (fun name => w.contains (w.path.child name)) = some name :=
  List.find?_eq_some_iff_append.mpr
    ⟨hc, earlier, later, hs, fun other ho => by rw [he other ho]; rfl⟩

/-- No more than one file is selected. -/
theorem Selected.unique {file' : SettingsFile} (h : Selected w asked file)
    (h' : Selected w asked file') : file' = file := by
  cases h with
  | asked ha hc =>
    cases h' with
    | asked ha' =>
      cases ha.symm.trans ha'
      rfl
    | standard ha' => exact nomatch ha.symm.trans ha'
    | project ha' => exact nomatch ha.symm.trans ha'
  | @standard _ _ name ha hs he hc =>
    have hfind := find?_fileNames hs he hc
    cases h' with
    | asked ha' => exact nomatch ha.symm.trans ha'
    | standard _ hs' he' hc' =>
      cases hfind.symm.trans (find?_fileNames hs' he' hc')
      rfl
    | project _ hf => exact nomatch hc.symm.trans (hf name (List.mem_of_find?_eq_some hfind))
  | project ha hf hc =>
    cases h' with
    | asked ha' => exact nomatch ha.symm.trans ha'
    | @standard _ _ name _ hs' he' hc' =>
      have hfind := find?_fileNames hs' he' hc'
      exact nomatch hc'.symm.trans (hf name (List.mem_of_find?_eq_some hfind))
    | project => rfl

theorem SettingsFile.Holds.unique {fields' : List (String × Json)} (h : file.Holds w fields)
    (h' : file.Holds w fields') : fields' = fields := by
  cases h with
  | mapping hr hp =>
    cases h' with
    | mapping hr' hp' =>
      cases hr.symm.trans hr'
      cases hp.symm.trans hp'
      rfl
    | empty hr' hp' he' =>
      cases hr.symm.trans hr'
      cases hp.symm.trans hp'
      rw [List.isEmpty_iff.mp he']
      rfl
  | empty hr hp he =>
    cases h' with
    | mapping hr' hp' =>
      cases hr.symm.trans hr'
      cases hp.symm.trans hp'
      rw [List.isEmpty_iff.mp he]
      rfl
    | empty => rfl
  | table hr hp ht hl =>
    cases h' with
    | table hr' hp' ht' hl' =>
      cases hr.symm.trans hr'
      cases hp.symm.trans hp'
      cases ht.symm.trans ht'
      cases hl.symm.trans hl'
      rfl
    | noTable hr' hp' hn' =>
      cases hr.symm.trans hr'
      cases hp.symm.trans hp'
      exact nomatch hl.symm.trans (hn' _ ht)
  | noTable hr hp hn =>
    cases h' with
    | table hr' hp' ht' hl' =>
      cases hr.symm.trans hr'
      cases hp.symm.trans hp'
      exact nomatch hl'.symm.trans (hn _ ht')
    | noTable => rfl

theorem Selected.not_nothing (h : Selected w asked file) (ha : nonEmpty? asked = none)
    (hn : ∀ name ∈ projectName :: fileNames, w.contains (w.path.child name) = false) : False := by
  cases h with
  | asked ha' => exact nomatch ha.symm.trans ha'
  | @standard _ _ name _ hs _ hc =>
    exact nomatch hc.symm.trans (hn name (.tail _ (hs ▸ List.mem_append_right _ (.head _))))
  | project _ _ hc => exact nomatch hc.symm.trans (hn projectName (.head _))

theorem FileFields.unique {fields' : List (String × Json)} (h : FileFields w asked fields)
    (h' : FileFields w asked fields') : fields' = fields := by
  cases h with
  | selected hs hh =>
    cases h' with
    | selected hs' hh' =>
      cases hs.unique hs'
      exact hh.unique hh'
    | nothing ha hn => exact (hs.not_nothing ha hn).elim
  | nothing ha hn =>
    cases h' with
    | selected hs' => exact (hs'.not_nothing ha hn).elim
    | nothing => rfl

/-! ## Files that are looked for -/

/-- The files that are looked for, the first one preferred. -/
def candidates (w : Workspace) (asked : Option String) : List Path :=
  match nonEmpty? asked with
  | some name => [Path.ofString name]
  | none => (fileNames ++ [projectName]).map w.path.child

/-- The first of some files that is there is the same in both workspaces, and so is its text. Behind
it they may differ. -/
inductive AgreeThrough (w w' : Workspace) : List Path → Prop
  | nil : AgreeThrough w w' []
  | found {path : Path} {later : List Path} : w.contains path = true → w'.contains path = true →
      w'.readText path = w.readText path → AgreeThrough w w' (path :: later)
  | absent {path : Path} {later : List Path} : w.contains path = false →
      w'.contains path = false → AgreeThrough w w' later → AgreeThrough w w' (path :: later)

theorem AgreeThrough.find? {paths later : List Path} (h : AgreeThrough w w' (paths ++ later)) :
    (∃ path, paths.find? w.contains = some path ∧ paths.find? w'.contains = some path ∧
      w'.readText path = w.readText path) ∨
    paths.find? w.contains = none ∧ paths.find? w'.contains = none ∧ AgreeThrough w w' later := by
  induction paths with
  | nil => exact .inr ⟨rfl, rfl, h⟩
  | cons path rest ih =>
    cases h with
    | found hc hc' hr =>
      exact .inl ⟨path, List.find?_cons_of_pos hc, List.find?_cons_of_pos hc', hr⟩
    | absent hc hc' h =>
      rw [List.find?_cons_of_neg (Bool.eq_false_iff.mp hc),
        List.find?_cons_of_neg (Bool.eq_false_iff.mp hc')]
      exact ih h

theorem givenByYaml_congr {path : Path} (hr : w'.readText path = w.readText path)
    (source : String) : givenByYaml w' path source = givenByYaml w path source := by
  simp only [givenByYaml, loadYaml, hr]

/-- Files behind the selected one give nothing. -/
theorem given_congr (hp : w'.path = w.path) (h : AgreeThrough w w' (candidates w asked)) :
    Settings.given w' asked = Settings.given w asked := by
  unfold candidates at h
  unfold Settings.given
  cases ha : nonEmpty? asked with
  | some name =>
    rw [ha] at h
    dsimp only at h ⊢
    cases h with
    | found hc hc' hr => rw [if_pos hc, if_pos hc', givenByYaml_congr hr]
    | absent hc hc' => rw [if_neg (Bool.eq_false_iff.mp hc'), if_neg (Bool.eq_false_iff.mp hc)]
  | none =>
    rw [ha] at h
    dsimp only at h ⊢
    rw [List.map_append] at h
    rw [hp]
    rcases h.find? with ⟨path, hf, hf', hr⟩ | ⟨hf, hf', h⟩
    · rw [hf, hf']
      exact givenByYaml_congr hr _
    · rw [hf, hf']
      dsimp only
      cases h with
      | found hc hc' hr =>
        rw [if_pos hc, if_pos hc']
        simp only [givenByProject, hr]
      | absent hc hc' => rw [if_neg (Bool.eq_false_iff.mp hc'), if_neg (Bool.eq_false_iff.mp hc)]

theorem find_congr (hp : w'.path = w.path) (h : AgreeThrough w w' (candidates w asked))
    (env : Environment) : Settings.find w' env asked = Settings.find w env asked := by
  rw [Settings.find, Settings.find, given_congr hp h]

end

end Settings

/-! ## The layers -/

section
variable {o placed : GenerateOptions} {w w' : Workspace} {env : Environment} {found : Settings}

/-- What is found has gone through the layers below the command line. -/
theorem layered_of_find (h : Settings.find w env o.config = .ok found) :
    ∃ file, Settings.FileFields w o.config file ∧ ∀ field : SettingsField,
      field.option? o = none → Layered o file env field (field.get found) := by
  obtain ⟨given?, hgiven, h⟩ := bind_eq_ok_iff.mp h
  have hcreate : Settings.create env (Settings.fieldsOfGiven given?) = .ok found := by
    cases given? with
    | none => exact h
    | some given => exact mapError_eq_ok_iff.mp h
  obtain ⟨others, hothers, hfields⟩ := bind_eq_ok_iff.mp hcreate
  have hknown := Settings.known_of_ofFields
    (Checked.toExcept_eq_ok_iff.mp (mapError_eq_ok_iff.mp hfields))
  refine ⟨_, Settings.fileFields_of_given hgiven, fun field ho => ?_⟩
  have hvariable := Environment.says_iff_of_fields hothers field
  rcases Json.fieldOr_eq_valid_iff.mp (field.read_eq_of_known hknown) with
    ⟨hn, hd⟩ | ⟨value, hl, hv⟩
  · rw [List.lookup_append, Option.or_eq_none_iff] at hn
    rw [← hd]
    exact .default ho hn.1 fun value hv => nomatch hn.2.symm.trans ((hvariable value).mp hv)
  · rw [List.lookup_append] at hl
    cases hfile : (Settings.fieldsOfGiven given?).lookup field.name with
    | some first =>
      rw [hfile] at hl
      cases hl
      exact .file ho hfile hv
    | none =>
      rw [hfile, Option.none_or] at hl
      exact .variable ho hfile ((hvariable value).mpr hl) hv

theorem GenerateOptions.eq_of_existingOut (h : o.existingOut w = some placed) :
    placed = { o with out := o.out.map fun out => (Path.ofString out).text } := by
  unfold existingOut at h
  split at h
  next hout =>
    cases h
    rw [hout]
    exact congrArg (fun out => { o with out }) hout
  next out hout =>
    dsimp only at h
    split at h
    · cases h
      rw [hout]
      rfl
    · cases h

/-- An option takes the place of what is found. -/
theorem SettingsField.get_override (hout : o.existingOut w = some placed)
    (field : SettingsField) : field.get (found.override placed.overrides) =
      (field.option? o).getD (field.get found) := by
  cases GenerateOptions.eq_of_existingOut hout
  obtain ⟨_, url, service, out, allVersions, _, _, _⟩ := o
  cases field with
  | output => cases out <;> rfl
  | service => cases service <;> rfl
  | url => cases url <;> rfl
  | allVersions => cases allVersions <;> rfl
  | _ => rfl

theorem GenerateOptions.settings_of_find (hout : o.existingOut w = some placed)
    (hfound : Settings.find w env o.config = .ok found) :
    placed.settings w env = .ok (found.override placed.overrides) := by
  have hconfig : placed.config = o.config := by rw [eq_of_existingOut hout]
  rw [settings, hconfig, hfound]

/-- The generator runs under the settings that the command line makes of what is found. -/
theorem Command.run_generate {settings : Settings} {web : Web} {lines : List String}
    (hout : o.existingOut w = some placed) (hs : placed.settings w env = .ok settings)
    (hl : Console.linesOf ["Output directory: " ++ settings.output] = (lines, none)) :
    (Command.generate o).run w env web = GenerateOptions.generateWith w web settings lines := by
  simp only [run, hout, GenerateOptions.generate, hs, hl]

/-- The generator runs under settings of which each field has the value of the first layer that
gives it one: its option, the only selected file, its variable, its default. What later files hold,
and whether they are there, does not change them. -/
theorem settings_layered (hout : o.existingOut w = some placed)
    (hfound : Settings.find w env o.config = .ok found) :
    ∃ settings file,
      (∀ (web : Web) (lines : List String),
        Console.linesOf ["Output directory: " ++ settings.output] = (lines, none) →
        (Command.generate o).run w env web =
          GenerateOptions.generateWith w web settings lines) ∧
      Settings.FileFields w o.config file ∧
      (∀ other, Settings.FileFields w o.config other → other = file) ∧
      (∀ field : SettingsField, Layered o file env field (field.get settings)) ∧
      ∀ w' : Workspace, w'.path = w.path →
        Settings.AgreeThrough w w' (Settings.candidates w o.config) →
        placed.settings w' env = .ok settings := by
  obtain ⟨file, hfile, hlayers⟩ := layered_of_find hfound
  have hs := GenerateOptions.settings_of_find hout hfound
  refine ⟨_, file, fun web lines hl => Command.run_generate hout hs hl, hfile,
    fun _ hother => hfile.unique hother, fun field => ?_, fun w' hp ha => ?_⟩
  · rw [field.get_override hout]
    cases ho : field.option? o with
    | some a => exact .option ho
    | none => exact hlayers field ho
  · have hconfig : placed.config = o.config := by rw [GenerateOptions.eq_of_existingOut hout]
    rw [← hs, GenerateOptions.settings, GenerateOptions.settings, hconfig,
      Settings.find_congr hp ha]

end

namespace Sketches

def settingsFile : Location × Node :=
  (["discotyper.yaml"], .file (Utf8.encode "output: ./types\nservice: null\n"))

def projectFile : Location × Node :=
  (["pyproject.toml"], .file (Utf8.encode "[tool.discotyper]\noutput = \"./other\"\n"))

def workspace : Workspace := ⟨⟨[settingsFile, projectFile]⟩, []⟩

def environment : Environment :=
  [("DISCOTYPER_SERVICE", "drive"), ("DISCOTYPER_TYPESCRIPT_VERSION", "4.5")]

def options : GenerateOptions := { GenerateOptions.empty with allVersions := true }

def found : Settings :=
  { Settings.defaults with output := "./types", typescriptVersion := "4.5" }

/-- The file says that there is no service, and the variable that would name one does not count.
Without the project the settings are the same. -/
theorem each_layer_gives :
    options.existingOut workspace = some options ∧
    Settings.find workspace environment options.config = .ok found ∧
    ∃ settings file,
      Settings.FileFields workspace none file ∧
      (∀ field : SettingsField, Layered options file environment field (field.get settings)) ∧
      settings.allVersions = true ∧ settings.output = "./types" ∧ settings.service = none ∧
      settings.typescriptVersion = "4.5" ∧ settings.excludedResources = ["debugger"] ∧
      options.settings ⟨⟨[settingsFile]⟩, []⟩ environment = .ok settings := by
  have hfound : Settings.find workspace environment options.config = .ok found := rfl
  obtain ⟨settings, file, -, hfile, -, hlayers, hlater⟩ :=
    settings_layered (o := options) (w := workspace) rfl hfound
  have hsame := hlater workspace rfl (.found rfl rfl rfl)
  have hs : options.settings workspace environment = .ok (found.override options.overrides) := rfl
  cases hs.symm.trans hsame
  exact ⟨rfl, hfound, _, file, hfile, hlayers, rfl, rfl, rfl, rfl, rfl,
    hlater ⟨⟨[settingsFile]⟩, []⟩ rfl (.found rfl rfl rfl)⟩

end Sketches

end ApiTypings
