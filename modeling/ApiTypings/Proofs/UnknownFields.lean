import ApiTypings.Proofs.DocumentKeys
import ApiTypings.Proofs.PackageWriting
import ApiTypings.Proofs.WrittenText
import Mathlib.Logic.Relation

/-! # Fields that are not known

A document is made of records. A record has fields by their names, and some of them hold records
again, alone or in a list or a map. What is put under other names into the records of a document, at
any depth, is not seen: what is read stays the same, and so do the faults that are found. -/

namespace ApiTypings

/-- The records that documents are made of. -/
inductive RecordKind where
  | schema | schemaRef | method | resource | scope | oauth2 | auth | description
  | directoryItem | directory
deriving DecidableEq

/-- What a field of a record holds. -/
inductive Content where
  /-- A value in which there are no records. -/
  | plain
  | record (kind : RecordKind)
  | list (kind : RecordKind)
  | map (kind : RecordKind)
deriving DecidableEq

namespace RecordKind

/-- Fields without records in them. -/
def plain (names : List String) : Entries Content := names.map (·, .plain)

/-- The fields of a record. What a reference refers to may stand under either of two names. -/
def fields : RecordKind → Entries Content
  | schema =>
    plain ["id", "type", "$ref", "field_ref", "description", "default", "required", "format",
      "pattern", "minimum", "maximum", "enum", "enumDescriptions", "repeated", "location",
      "readOnly", "deprecated"] ++
    [("items", .record schema), ("properties", .map schema),
      ("additionalProperties", .record schema)]
  | schemaRef => plain ["$ref", "field_ref", "parameterName"]
  | method =>
    plain ["id", "path", "flatPath", "httpMethod", "description", "parameterOrder", "scopes",
      "supportsMediaDownload", "supportsMediaUpload"] ++
    [("parameters", .map schema), ("request", .record schemaRef), ("response", .record schemaRef)]
  | resource => [("methods", .map method), ("resources", .map resource)]
  | scope => plain ["description"]
  | oauth2 => [("scopes", .map scope)]
  | auth => [("oauth2", .record oauth2)]
  | description =>
    plain ["kind", "discoveryVersion", "id", "name", "version", "revision", "title",
      "description", "ownerDomain", "ownerName", "documentationLink", "protocol", "rootUrl",
      "servicePath", "baseUrl", "batchPath", "labels"] ++
    [("parameters", .map schema), ("auth", .record auth), ("schemas", .map schema),
      ("methods", .map method), ("resources", .map resource)]
  | directoryItem =>
    plain ["kind", "id", "name", "version", "title", "description", "discoveryRestUrl",
      "documentationLink", "preferred"]
  | directory => plain ["kind", "discoveryVersion"] ++ [("items", .list directoryItem)]

/-- What is read from a record. -/
def Value : RecordKind → Type
  | schema => Schema
  | schemaRef => SchemaRef
  | method => Method
  | resource => Resource
  | scope => Scope
  | oauth2 => OAuth2
  | auth => Auth
  | description => Description
  | directoryItem => DirectoryItem
  | directory => Directory

def check : (kind : RecordKind) → Json → Checked kind.Value
  | schema => Schema.ofJson
  | schemaRef => SchemaRef.ofJson
  | method => Method.ofJson
  | resource => Resource.ofJson
  | scope => Scope.ofJson
  | oauth2 => OAuth2.ofJson
  | auth => Auth.ofJson
  | description => Description.ofJson
  | directoryItem => DirectoryItem.ofJson
  | directory => Directory.ofJson

end RecordKind

namespace Content

/-- What is read from a field. A plain value is taken as it is. -/
def Value : Content → Type
  | plain => Json
  | record kind => kind.Value
  | list kind => List kind.Value
  | map kind => Entries kind.Value

def check : (content : Content) → Json → Checked content.Value
  | plain => .valid
  | record kind => kind.check
  | list kind => Json.asListOf kind.check
  | map kind => Json.asMapOf kind.check

end Content

/-- The second value has one field more than the first, in a record that does not know it. -/
inductive AddsField : Content → Json → Json → Prop
  | here {kind : RecordKind} {before after : List (String × Json)} {key : String} {value : Json} :
      key ∉ Entries.keys kind.fields →
      AddsField (.record kind) (.object (before ++ after))
        (.object (before ++ (key, value) :: after))
  | field {kind : RecordKind} {content : Content} {before after : List (String × Json)}
      {key : String} {value value' : Json} :
      kind.fields.lookup key = some content → AddsField content value value' →
      AddsField (.record kind) (.object (before ++ (key, value) :: after))
        (.object (before ++ (key, value') :: after))
  | item {kind : RecordKind} {before after : List Json} {value value' : Json} :
      AddsField (.record kind) value value' →
      AddsField (.list kind) (.array (before ++ value :: after))
        (.array (before ++ value' :: after))
  | entry {kind : RecordKind} {before after : List (String × Json)} {key : String}
      {value value' : Json} :
      AddsField (.record kind) value value' →
      AddsField (.map kind) (.object (before ++ (key, value) :: after))
        (.object (before ++ (key, value') :: after))

/-- The second value has any number of fields more, each in a record that does not know it. -/
def AddsFields (content : Content) : Json → Json → Prop :=
  Relation.ReflTransGen (AddsField content)

/-! ## Values that are read alike -/

namespace Json

variable {α : Type} {check : Json → Checked α} {fields fields' : List (String × Json)}
  {key : String}

/-- A check finds the same in both values, and both are null or neither is. -/
structure ReadAlike (check : Json → Checked α) (value value' : Json) : Prop where
  isNull_eq : value'.isNull = value.isNull
  check_eq : check value' = check value

theorem ReadAlike.refl (value : Json) : ReadAlike check value value := ⟨rfl, rfl⟩

theorem optionalField_congr
    (h : Option.Rel (ReadAlike check) (fields.lookup key) (fields'.lookup key)) :
    optionalField key check fields' = optionalField key check fields := by
  rw [optionalField_eq, optionalField_eq]
  generalize fields.lookup key = value?, fields'.lookup key = value'? at h
  cases h with
  | none => rfl
  | some h => simp only [h.isNull_eq, h.check_eq]

theorem fieldOr_congr {default : α}
    (h : Option.Rel (ReadAlike check) (fields.lookup key) (fields'.lookup key)) :
    fieldOr key default check fields' = fieldOr key default check fields := by
  unfold fieldOr
  generalize fields.lookup key = value?, fields'.lookup key = value'? at h
  cases h with
  | none => rfl
  | some h => simp only [h.check_eq]

theorem checkItems_congr {items items' : List Json} (h : items'.map check = items.map check)
    (start : Nat) : checkItems check start items' = checkItems check start items := by
  induction items generalizing items' start with
  | nil => rw [List.map_eq_nil_iff.mp h]
  | cons item rest ih =>
    obtain ⟨item', rest', rfl, hi, hr⟩ := List.map_eq_cons_iff.mp h
    rw [checkItems, checkItems, hi, ih hr]

theorem checkEntries_congr
    (h : Entries.mapValues check fields' = Entries.mapValues check fields) :
    checkEntries check fields' = checkEntries check fields := by
  induction fields generalizing fields' with
  | nil => rw [List.map_eq_nil_iff.mp h]
  | cons e rest ih =>
    obtain ⟨⟨k, value⟩, rest', rfl, he, hr⟩ := List.map_eq_cons_iff.mp h
    obtain ⟨rfl, hv⟩ := Prod.mk.inj he
    dsimp only at hv
    rw [checkEntries, checkEntries, hv, ih hr]

end Json

/-! ## Records that are read alike -/

theorem Schema.schemaField_eq (key : String) (fields : List (String × Json)) :
    schemaField key fields = Json.optionalField key ofJson fields := by
  induction fields with
  | nil => rw [schemaField]; rfl
  | cons e rest ih => rw [schemaField, Json.optionalField_cons, ih]

theorem Schema.schemaMapField_eq (key : String) (fields : List (String × Json)) :
    schemaMapField key fields = Json.optionalField key mapOfJson fields := by
  induction fields with
  | nil => rw [schemaMapField]; rfl
  | cons e rest ih =>
    obtain ⟨k, value⟩ := e
    unfold schemaMapField
    rw [Json.optionalField_cons, ih]
    split
    next => cases value <;> rfl
    next => rfl

/-- The fields that a record knows are read alike. -/
def SameKnown (kind : RecordKind) (fields fields' : List (String × Json)) : Prop :=
  ∀ (key : String) (content : Content), kind.fields.lookup key = some content →
    Option.Rel (Json.ReadAlike content.check) (fields.lookup key) (fields'.lookup key)

namespace SameKnown

variable {kind : RecordKind} {fields fields' : List (String × Json)} {key : String} {α : Type}
  {check : Json → Checked α}

theorem lookup_eq (h : SameKnown kind fields fields') (hk : kind.fields.lookup key = some .plain) :
    fields'.lookup key = fields.lookup key := by
  have hr := h key .plain hk
  generalize fields.lookup key = value?, fields'.lookup key = value'? at hr
  cases hr with
  | none => rfl
  | some hr => exact congrArg some (Checked.valid.inj hr.check_eq)

theorem optionalField_eq (h : SameKnown kind fields fields')
    (hk : kind.fields.lookup key = some .plain) :
    Json.optionalField key check fields' = Json.optionalField key check fields := by
  rw [Json.optionalField, Json.optionalField, h.lookup_eq hk]

theorem fieldOr_eq (h : SameKnown kind fields fields')
    (hk : kind.fields.lookup key = some .plain) (default : α) :
    Json.fieldOr key default check fields' = Json.fieldOr key default check fields := by
  rw [Json.fieldOr, Json.fieldOr, h.lookup_eq hk]

theorem requiredField_eq (h : SameKnown kind fields fields')
    (hk : kind.fields.lookup key = some .plain) :
    Json.requiredField key check fields' = Json.requiredField key check fields := by
  rw [Json.requiredField, Json.requiredField, h.lookup_eq hk]

theorem refField_eq (h : SameKnown kind fields fields')
    (hr : kind.fields.lookup "$ref" = some .plain)
    (hf : kind.fields.lookup "field_ref" = some .plain) :
    Schema.refField fields' = Schema.refField fields := by
  rw [Schema.refField, Schema.refField, h.lookup_eq hr, h.optionalField_eq hr,
    h.optionalField_eq hf]

theorem record_eq (h : SameKnown kind fields fields') (record : RecordKind)
    (hk : kind.fields.lookup key = some (.record record)) :
    Json.optionalField key record.check fields' = Json.optionalField key record.check fields :=
  Json.optionalField_congr (h key _ hk)

theorem map_eq (h : SameKnown kind fields fields') (record : RecordKind)
    (hk : kind.fields.lookup key = some (.map record)) :
    Json.optionalField key (Json.asMapOf record.check) fields' =
      Json.optionalField key (Json.asMapOf record.check) fields :=
  Json.optionalField_congr (h key _ hk)

-- The checks are named here as they stand where whole records are read.

theorem schema_eq (h : SameKnown kind fields fields')
    (hk : kind.fields.lookup key = some (.record .schema)) :
    Json.optionalField key Schema.ofJson fields' = Json.optionalField key Schema.ofJson fields :=
  h.record_eq .schema hk

theorem schemaMap_eq (h : SameKnown kind fields fields')
    (hk : kind.fields.lookup key = some (.map .schema)) :
    Json.optionalField key Schema.mapOfJson fields' =
      Json.optionalField key Schema.mapOfJson fields := by
  rw [Schema.mapOfJson_eq]
  exact h.map_eq .schema hk

theorem schemaRef_eq (h : SameKnown kind fields fields')
    (hk : kind.fields.lookup key = some (.record .schemaRef)) :
    Json.optionalField key SchemaRef.ofJson fields' =
      Json.optionalField key SchemaRef.ofJson fields := h.record_eq .schemaRef hk

theorem methodMap_eq (h : SameKnown kind fields fields')
    (hk : kind.fields.lookup key = some (.map .method)) :
    Json.optionalField key (Json.asMapOf Method.ofJson) fields' =
      Json.optionalField key (Json.asMapOf Method.ofJson) fields := h.map_eq .method hk

theorem resourceMap_eq (h : SameKnown kind fields fields')
    (hk : kind.fields.lookup key = some (.map .resource)) :
    Json.optionalField key Resource.mapOfJson fields' =
      Json.optionalField key Resource.mapOfJson fields := by
  rw [Resource.mapOfJson_eq]
  exact h.map_eq .resource hk

end SameKnown

/-- A check looks at nothing but the fields that the record knows. -/
theorem RecordKind.check_congr {kind : RecordKind} {fields fields' : List (String × Json)}
    (h : SameKnown kind fields fields') :
    kind.check (.object fields') = kind.check (.object fields) := by
  cases kind with
  | schema =>
    change Schema.ofJson (.object fields') = Schema.ofJson (.object fields)
    simp (disch := decide) only [Schema.ofJson, Schema.schemaField_eq, Schema.schemaMapField_eq,
      h.optionalField_eq, h.refField_eq, h.schema_eq, h.schemaMap_eq]
  | schemaRef =>
    change SchemaRef.ofJson (.object fields') = SchemaRef.ofJson (.object fields)
    simp (disch := decide) only [SchemaRef.ofJson, h.optionalField_eq, h.refField_eq]
  | method =>
    change Method.ofJson (.object fields') = Method.ofJson (.object fields)
    simp (disch := decide) only [Method.ofJson, h.optionalField_eq, h.schemaMap_eq, h.schemaRef_eq]
  | resource =>
    change Resource.ofJson (.object fields') = Resource.ofJson (.object fields)
    simp (disch := decide) only [Resource.ofJson, Resource.childrenField_eq, h.methodMap_eq,
      h.resourceMap_eq]
  | scope => exact congrArg (Scope.mk <$> ·) (h.optionalField_eq (by decide))
  | oauth2 => exact congrArg (OAuth2.mk <$> ·) (h.map_eq .scope (by decide))
  | auth => exact congrArg (Auth.mk <$> ·) (h.record_eq .oauth2 (by decide))
  | description =>
    change Description.ofJson (.object fields') = Description.ofJson (.object fields)
    have hauth : Json.optionalField "auth" Auth.ofJson fields' =
        Json.optionalField "auth" Auth.ofJson fields := h.record_eq .auth (by decide)
    simp (disch := decide) only [Description.ofJson, h.optionalField_eq, h.fieldOr_eq,
      h.requiredField_eq, h.schemaMap_eq, h.methodMap_eq, h.resourceMap_eq, hauth]
  | directoryItem =>
    change DirectoryItem.ofJson (.object fields') = DirectoryItem.ofJson (.object fields)
    simp (disch := decide) only [DirectoryItem.ofJson, h.optionalField_eq, h.fieldOr_eq,
      h.requiredField_eq]
  | directory =>
    change Directory.ofJson (.object fields') = Directory.ofJson (.object fields)
    have hitems : Json.fieldOr "items" [] (Json.asListOf DirectoryItem.ofJson) fields' =
        Json.fieldOr "items" [] (Json.asListOf DirectoryItem.ofJson) fields :=
      Json.fieldOr_congr (h "items" (.list .directoryItem) (by decide))
    simp (disch := decide) only [Directory.ofJson, h.optionalField_eq, h.fieldOr_eq, hitems]

/-! ## Adding fields -/

/-- The faults that a check finds. -/
def Checked.faults {α : Type} : Checked α → List Fault
  | valid _ => []
  | invalid faults => faults

section
variable {kind : RecordKind} {content : Content} {before after : List (String × Json)}
  {key : String} {value value' json json' : Json}

theorem sameKnown_of_unknown (hk : key ∉ Entries.keys kind.fields) :
    SameKnown kind (before ++ after) (before ++ (key, value) :: after) := by
  intro k content hl
  have hne : k ≠ key := by
    rintro rfl
    exact nomatch (Entries.lookup_eq_none_iff.mpr hk).symm.trans hl
  have he : (before ++ (key, value) :: after).lookup k = (before ++ after).lookup k := by
    rw [List.lookup_append, List.lookup_append, Entries.lookup_cons, if_neg hne]
  rw [he]
  cases (before ++ after).lookup k with
  | none => exact .none
  | some value => exact .some (.refl value)

theorem sameKnown_of_field (hl : kind.fields.lookup key = some content)
    (h : Json.ReadAlike content.check value value') :
    SameKnown kind (before ++ (key, value) :: after) (before ++ (key, value') :: after) := by
  intro k content' hk
  simp only [List.lookup_append, Entries.lookup_cons]
  cases before.lookup k with
  | some first => exact .some (.refl first)
  | none =>
    by_cases hkey : k = key
    · cases hkey
      cases hl.symm.trans hk
      simpa using h
    · rw [if_neg hkey, if_neg hkey]
      cases after.lookup k with
      | none => exact .none
      | some value => exact .some (.refl value)

/-- No field but a default, which may be anything, holds the number five. -/
theorem RecordKind.faults_ne_of_five : ∀ key ∈ Entries.keys kind.fields, key ≠ "default" →
    (kind.check (.object [(key, .number (.integer 5))])).faults ≠
      (kind.check (.object [])).faults := by
  cases kind <;> decide +kernel

/-- A name is one of a record's fields exactly if a value under it may change what is read. -/
theorem RecordKind.mem_fields_iff : key ∈ Entries.keys kind.fields ↔
    ∃ before after value, kind.check (.object (before ++ (key, value) :: after)) ≠
      kind.check (.object (before ++ after)) := by
  constructor
  · intro hk
    refine ⟨[], [], .number (.integer 5), fun he => ?_⟩
    by_cases hd : key = "default"
    · subst hd
      cases kind with
      | schema => cases he
      | _ => exact absurd hk (by decide)
    · exact faults_ne_of_five key hk hd (congrArg Checked.faults he)
  · rintro ⟨before, after, value, hne⟩
    by_contra hk
    exact hne (check_congr (sameKnown_of_unknown hk))

/-- An unknown field is not seen, wherever it is added. -/
theorem AddsField.readAlike (h : AddsField content json json') :
    Json.ReadAlike content.check json json' := by
  induction h with
  | here hk => exact ⟨rfl, RecordKind.check_congr (sameKnown_of_unknown hk)⟩
  | field hl _ ih => exact ⟨rfl, RecordKind.check_congr (sameKnown_of_field hl ih)⟩
  | item _ ih =>
    refine ⟨rfl, Json.checkItems_congr ?_ 0⟩
    rw [List.map_append, List.map_append, List.map_cons, List.map_cons]
    exact congrArg _ (congrArg (· :: _) ih.check_eq)
  | entry _ ih =>
    refine ⟨rfl, Json.checkEntries_congr ?_⟩
    simp only [Entries.mapValues, List.map_append, List.map_cons]
    exact congrArg _ (congrArg (fun read => (_, read) :: _) ih.check_eq)

/-- Nor are any number of them. -/
theorem AddsFields.check_eq (h : AddsFields content json json') :
    content.check json' = content.check json := by
  induction h with
  | refl => rfl
  | tail _ h ih => exact h.readAlike.check_eq.trans ih

/-- What is loaded is what the check makes of the document. -/
theorem Loader.load_congr {α : Type} {check : Json → Checked α} {l l' : Loader}
    {w w' : Workspace} {source : String} (hr : l.read w source = .ok json)
    (hr' : l'.read w' source = .ok json') (hc : check json' = check json) :
    load check l' w' source = load check l w source := by
  simp only [load, hr, hr', hc]

/-- Fields may be added to the records of a description or of a directory, under names that those
records do not know: the same is read from the document, or the same faults are found in it. So what
is loaded from a source stays the same as well, whether it is a document or a failure. -/
theorem unknown_fields_ignored (json json' : Json) :
    (AddsFields (.record .description) json json' →
      Description.ofJson json' = Description.ofJson json ∧
      ∀ (l l' : Loader) (w w' : Workspace) (source : String),
        l.read w source = .ok json → l'.read w' source = .ok json' →
        l'.description w' source = l.description w source) ∧
    (AddsFields (.record .directory) json json' →
      Directory.ofJson json' = Directory.ofJson json ∧
      ∀ (l l' : Loader) (w w' : Workspace) (source : String),
        l.read w source = .ok json → l'.read w' source = .ok json' →
        l'.directory w' source = l.directory w source) := by
  constructor
  · intro h
    have hc : Description.ofJson json' = Description.ofJson json := h.check_eq
    exact ⟨hc, fun _ _ _ _ _ hr hr' => Loader.load_congr hr hr' hc⟩
  · intro h
    have hc : Directory.ofJson json' = Directory.ofJson json := h.check_eq
    exact ⟨hc, fun _ _ _ _ _ hr hr' => Loader.load_congr hr hr' hc⟩

end

namespace Boards

/-- A description, with more fields in it and in its schema. -/
def description (icons order : List (String × Json)) : Json :=
  .object ([("name", .string "boards"), ("version", .string "v1"),
    ("schemas", .object [("Board", .object ([("type", .string "object")] ++ order))])] ++ icons)

def icons : List (String × Json) := [("icons", .array [])]

def order : List (String × Json) := [("ordered", .bool true)]

/-- A listing that does not say where the description is, with more fields in its item. -/
def listing (labels : List (String × Json)) : Json :=
  .object [("items", .array [.object ([("name", .string "boards")] ++ labels)])]

def labels : List (String × Json) := [("labels", .null)]

theorem description_extended :
    AddsFields (.record .description) (description [] []) (description icons order) := by
  have hicons : AddsField (.record .description) (description [] []) (description icons []) :=
    .here (by decide)
  refine .tail (.single hicons) (@AddsField.field _ (.map .schema) [_, _] _ _ _ _ rfl ?_)
  exact @AddsField.entry _ [] _ _ _ _ (@AddsField.here _ [_] [] _ _ (by decide))

theorem listing_extended :
    AddsFields (.record .directory) (listing []) (listing labels) := by
  refine .single (@AddsField.field _ (.list .directoryItem) [] _ _ _ _ rfl ?_)
  exact @AddsField.item _ [] _ _ _ (@AddsField.here _ [_] [] _ _ (by decide))

def loader : Loader := ⟨fun _ => .unreachable "no network", true, ⟨"/", []⟩⟩

def workspace (text : String) : Workspace :=
  ⟨⟨[(["boards.json"], .file (Utf8.encode text))]⟩, []⟩

theorem read_text {text : String} {json : Json} (hn : '\r' ∉ text.toList)
    (hp : Json.parse text.toList = .ok json) :
    loader.read (workspace text) "boards.json" = .ok json :=
  Loader.read_of_file (Url.isWebAddress_of_not_mem (by decide)) rfl (decodeText_encode hn) hp

def text : String :=
  "\x7b\"name\":\"boards\",\"version\":\"v1\"," ++
    "\"schemas\":\x7b\"Board\":\x7b\"type\":\"object\"\x7d\x7d\x7d"

def extendedText : String :=
  "\x7b\"name\":\"boards\",\"version\":\"v1\"," ++
    "\"schemas\":\x7b\"Board\":\x7b\"type\":\"object\",\"ordered\":true\x7d\x7d,\"icons\":[]\x7d"

theorem read_plain : loader.read (workspace text) "boards.json" = .ok (description [] []) :=
  read_text (by decide +kernel) (by cbv)

theorem read_extended :
    loader.read (workspace extendedText) "boards.json" = .ok (description icons order) :=
  read_text (by decide +kernel) (by cbv)

/-- The description is loaded with its schema, and the listing is refused for the version and the
address that are missing. -/
theorem further_fields_ignored :
    AddsFields (.record .description) (description [] []) (description icons order) ∧
    Description.ofJson (description icons order) = Description.ofJson (description [] []) ∧
    loader.description (workspace extendedText) "boards.json" =
      loader.description (workspace text) "boards.json" ∧
    AddsFields (.record .directory) (listing []) (listing labels) ∧
    Directory.ofJson (listing labels) = .invalid
      [⟨[.field "items", .index 0, .field "version"], .missing⟩,
        ⟨[.field "items", .index 0, .field "discoveryRestUrl"], .missing⟩] := by
  obtain ⟨hread, hload⟩ := (unknown_fields_ignored _ _).1 description_extended
  obtain ⟨hlisting, -⟩ := (unknown_fields_ignored _ _).2 listing_extended
  exact ⟨description_extended, hread, hload _ _ _ _ _ read_plain read_extended,
    listing_extended, hlisting⟩

end Boards

end ApiTypings
