import ApiTypings.Proofs.StructuralType
import ApiTypings.Proofs.StubWriting

/-! # Example values have the declared types

Types refer to named schemas, values unfold them. The two agree as long as every schema that
declares something is an object: then what the interface of a name asks for is what the value of the
schema has. -/

namespace ApiTypings

theorem Schema.shape_of_properties {s : Schema} {properties : Entries Schema}
    (ho : s.type = some "object") (hp : s.properties = some properties) :
    s.shape = .ok (.object properties s.additionalProperties) := by
  simp [Schema.shape, Shape.ofFields, ho, hp]

theorem Schema.shape_of_values {s : Schema} {values : Schema} (ho : s.type = some "object")
    (hp : s.properties = none) (ha : s.additionalProperties = some values) :
    s.shape = .ok (.map values) := by
  simp [Schema.shape, Shape.ofFields, ho, hp, ha]

namespace Stub

open StructuralType SchemaTable

/-- The members of a value that is an object. -/
def Value.members? : Value → Option (Entries Value)
  | .object members => some members
  | .entry value => some [(mapKey, value)]
  | .literal .emptyObject => some []
  | .undefined | .literal _ | .array _ => none

mutual

/-- A value has a type. An interface is what the schema of its name declares, and nothing is asked
of what is left undefined. -/
inductive Conforms (table : SchemaTable) : Value → StructuralType → Prop
  | undefined (type : StructuralType) : Conforms table .undefined type
  | any (value : Value) : Conforms table value .any
  | number : Conforms table (.literal .number) (.primitive "number")
  | boolean : Conforms table (.literal .boolean) (.primitive "boolean")
  | string : Conforms table (.literal .string) (.primitive "string")
  | one {value : Value} {name : String} : Conforms table value (.primitive name) →
      Conforms table value (.oneOrMany name)
  | many {value : Value} {name : String} : Conforms table value (.array (.primitive name)) →
      Conforms table value (.oneOrMany name)
  | array {item : Value} {type : StructuralType} : Conforms table item type →
      Conforms table (.array item) (.array type)
  | record {value : Value} {members : Entries Value} {type : StructuralType} :
      value.members? = some members → (∀ m ∈ members, Conforms table m.2 type) →
      Conforms table value (.record type)
  /-- Every required field is there, and every member has the type that is declared for it. -/
  | object {value : Value} {members : Entries Value} {fields : List (Field StructuralType)}
      {index : Option StructuralType} : value.members? = some members →
      (∀ field ∈ fields, field.required → field.name ∈ Entries.keys members) →
      (∀ m ∈ members, ConformsMember table fields index m.1 m.2) →
      Conforms table value (.object fields index)
  | interface {value : Value} {name : String} {schema : Schema} {type : StructuralType} :
      table.lookup name = some schema → ofInterface table schema = .ok type →
      Conforms table value type → Conforms table value (.interface name)

/-- A member is a listed one, or one that only the index signature covers. -/
inductive ConformsMember (table : SchemaTable) : List (Field StructuralType) →
    Option StructuralType → String → Value → Prop
  | field {fields : List (Field StructuralType)} {index : Option StructuralType}
      {field : Field StructuralType} {value : Value} : field ∈ fields →
      Conforms table value field.type → ConformsMember table fields index field.name value
  | index {fields : List (Field StructuralType)} {type : StructuralType} {name : String}
      {value : Value} : (∀ field ∈ fields, field.name ≠ name) → Conforms table value type →
      ConformsMember table fields (some type) name value

end

variable {table : SchemaTable}

theorem conforms_ofKind? {kind : String} {literal : Literal}
    (h : Literal.ofKind? kind = some literal) :
    Conforms table (.literal literal) (.primitive (TypeExpr.primitiveName kind)) := by
  unfold Literal.ofKind? at h
  split at h
  next hk =>
    simp only [Bool.or_eq_true, beq_iff_eq] at hk
    cases h
    rcases hk with (rfl | rfl) | rfl
    · exact .number
    · exact .number
    · exact .any _
  split at h
  next hk => cases h; cases eq_of_beq hk; exact .boolean
  split at h
  next hk => cases h; cases eq_of_beq hk; exact .string
  split at h
  next hk => cases h; cases eq_of_beq hk; exact .any _
  next => cases h

theorem Conforms.primitiveOf {value : Value} {kind : String}
    (h : Conforms table value (.primitive (TypeExpr.primitiveName kind))) (repeated : Bool) :
    Conforms table value (primitiveOf kind repeated) := by
  cases repeated with
  | false => exact h
  | true => exact .one h

/-- Members made of the same properties as the fields have the types of the fields. -/
theorem Conforms.object_of_properties {properties : Entries Schema} {members : Entries Value}
    {fields : List (Field StructuralType)} {index : Option StructuralType}
    {R : Schema → Value → Prop} (hm : Entries.InStep R properties members)
    (hf : List.Forall₂ (fun e field => ∃ type, ofSchema table e.2 = .ok type ∧
      fieldOf e.1 e.2 type = field) properties fields)
    (hc : ∀ e ∈ properties, ∀ value type, R e.2 value → ofSchema table e.2 = .ok type →
      Conforms table value type) :
    Conforms table (.object members) (.object fields index) := by
  have hmf := Outcomes.forall₂_of_common hm hf
  refine .object rfl ?_ ?_
  · intro field hfield _
    obtain ⟨m, hm, e, _, ⟨he, _⟩, type, _, rfl⟩ := Outcomes.exists_right_of_mem hmf.flip hfield
    exact he ▸ List.mem_map_of_mem hm
  · intro m hm
    obtain ⟨field, hfield, e, hmem, ⟨he, hr⟩, type, ht, rfl⟩ := Outcomes.exists_right_of_mem hmf hm
    exact he ▸ .field hfield (hc e hmem m.2 type hr ht)

/-! ## Named schemas -/

/-- A schema that declares something and is an object declares as its interface what it is typed
as, a map being an object all of whose members are covered by the index signature. -/
theorem Conforms.interface_of_schema {name : String} {target : Schema} {type : StructuralType}
    (hl : table.lookup name = some target) (hd : target.isEmpty = false)
    (ho : target.type = some "object") (ht : ofSchema table target = .ok type) {value : Value}
    (hc : Conforms table value type) : Conforms table value (.interface name) := by
  rw [ofSchema_eq] at ht
  cases hp : target.properties with
  | some properties =>
    rw [Schema.shape_of_properties ho hp] at ht
    refine .interface hl ?_ hc
    rw [ofInterface, hp]
    exact ht
  | none =>
    cases ha : target.additionalProperties with
    | none => simp [Schema.isEmpty, hp, ha, Entries.orEmpty] at hd
    | some values =>
      rw [Schema.shape_of_values ho hp ha] at ht
      obtain ⟨index, hi, rfl⟩ := Outcomes.map_eq_ok_iff.mp ht
      have hd : ofInterface table target = .ok (.object [] (some index)) := by
        rw [ofInterface, hp, ha, Option.map_some, hi]
        rfl
      refine .interface hl hd ?_
      cases hc with
      | undefined => exact .undefined _
      | record hv hall => exact .object hv (by simp) fun m hm => .index (by simp) (hall m hm)

/-- The schemas of the table that an expansion unfolds: those of the references it follows. -/
def Unfolds (table : SchemaTable) (start : List String × Schema) (target : Schema) : Prop :=
  ∃ path node name, Visits table start (path, node) ∧ node.shape = .ok (.reference name) ∧
    name ∉ path ∧ table.lookup name = some target

theorem Unfolds.head {a b : List String × Schema} {target : Schema} (ho : Opens table a b)
    (h : Unfolds table b target) : Unfolds table a target := by
  obtain ⟨path, node, name, hv, hr⟩ := h
  exact ⟨path, node, name, .head ho hv, hr⟩

/-! ## Expansions -/

theorem expand_conforms (objects : ∀ name s, table.lookup name = some s → s.isEmpty = false →
      s.type = some "object") {path : List String} {s : Schema} {value : Value}
    {type : StructuralType}
    (hu : ∀ t, Unfolds table (path, s) t → ∃ type, ofSchema table t = .ok type)
    (hv : expand table path s = .ok value) (ht : ofSchema table s = .ok type) :
    Conforms table value type := by
  induction path, s using expansionInduction table generalizing value type with
  | step path s ih =>
    -- What a step unfolds is unfolded from here as well, so its types are known.
    have ih {path' t} (ho : Opens table (path, s) (path', t)) {value type} :=
      @ih path' t ho value type fun target h => hu target (h.head ho)
    cases hs : s.shape with
    | error fault => rw [expand_of_fault hs] at hv; cases hv
    | ok shape =>
      rw [ofSchema_eq, hs] at ht
      cases shape with
      | primitive kind repeated =>
        cases ht
        rw [expand_of_primitive hs] at hv
        cases hk : Literal.ofKind? kind with
        | none => rw [hk] at hv; cases hv
        | some literal =>
          rw [hk] at hv
          cases hv
          exact (conforms_ofKind? hk).primitiveOf repeated
      | array item =>
        rw [expand_of_array hs] at hv
        obtain ⟨v, hv', rfl⟩ := Outcomes.map_eq_ok_iff.mp hv
        obtain ⟨t, ht', rfl⟩ := Outcomes.map_eq_ok_iff.mp ht
        exact .array (ih (.part hs (List.mem_singleton_self _)) hv' ht')
      | object properties additional =>
        rw [expand_of_object hs] at hv
        obtain ⟨members, hm, rfl⟩ := Outcomes.map_eq_ok_iff.mp hv
        obtain ⟨fields, index, hf, rfl⟩ := objectOf_eq_ok ht
        refine .object_of_properties (Entries.collect_mapValues_eq_ok_iff.mp hm)
          (fieldsOf_eq_ok hf) fun e he v t hv ht => ?_
        exact ih (.part hs (List.mem_map_of_mem (Entries.mem_sortByKey.mp he))) hv ht
      | map values =>
        rw [expand_of_map hs] at hv
        obtain ⟨v, hv', rfl⟩ := Outcomes.map_eq_ok_iff.mp hv
        obtain ⟨t, ht', rfl⟩ := Outcomes.map_eq_ok_iff.mp ht
        refine .record rfl fun m hm => ?_
        cases List.mem_singleton.mp hm
        exact ih (.part hs (List.mem_singleton_self _)) hv' ht'
      | reference name =>
        rw [expand_of_reference hs] at hv
        by_cases hn : name ∈ path
        · rw [expandReference_of_mem hn] at hv
          cases hv
          exact .undefined _
        cases hl : table.lookup name with
        | none => rw [expandReference_of_undefined hn hl] at hv; cases hv
        | some target =>
          rw [expandReference_of_lookup hn hl] at hv
          obtain ⟨empty, he, rfl⟩ := Outcomes.map_eq_ok_iff.mp ht
          simp only [SchemaTable.isEmpty, resolve, hl, Except.map, Except.ok.injEq] at he
          cases empty with
          | true => exact .any value
          | false =>
            -- The value is one of the schema; only here a type is given by name.
            obtain ⟨t, ht⟩ := hu target ⟨path, s, name, .refl, hs, hn, hl⟩
            have hc := ih (.reference hs hn hl) hv ht
            exact hc.interface_of_schema hl he (objects name target hl he) ht

/-- Where every schema that declares something is an object, the value that is written has the type
that is printed, provided that there are types for the schema and for those that are unfolded. Any
names may be open at the start. -/
theorem written_value_conforms (table : SchemaTable) (schema : Schema) {session after : Session}
    {type : TypeExpr}
    (objects : ∀ name s, table.lookup name = some s → s.isEmpty = false → s.type = some "object")
    (typed : TypeExpr.ofSchema table schema = .ok type)
    (unfolded : ∀ target, Unfolds table (session.guard.names, schema) target →
      ∃ type, TypeExpr.ofSchema table target = .ok type)
    (written : writeValue table schema session = some (after, none)) :
    ∃ value form, expand table session.guard.names schema = .ok value ∧
      value.code.run session.page = (after.page, (none : Option RenderFault)) ∧
      ofSchema table schema = .ok form ∧ form.expr = type ∧ Conforms table value form := by
  have hw := writes_value table schema session rfl
  obtain ⟨value, hv⟩ := writeValue_succeeds_iff.mp ⟨after, written⟩
  rw [hv, written] at hw
  obtain ⟨page, hpage, hw⟩ := hw
  cases hw
  rw [expr_ofSchema] at typed
  obtain ⟨form, hf, he⟩ := Outcomes.map_eq_ok_iff.mp typed
  refine ⟨value, form, hv, hpage, hf, he, expand_conforms objects ?_ hv hf⟩
  intro target ht
  obtain ⟨t, ht⟩ := unfolded target ht
  rw [expr_ofSchema] at ht
  obtain ⟨form, hf, _⟩ := Outcomes.map_eq_ok_iff.mp ht
  exact ⟨form, hf⟩

/-- Folders with files that are listed under the names of folders again. -/
def folderTable : SchemaTable :=
  [("Folder", { Schema.blank with
      type := some "object"
      properties := some [("files", { Schema.blank with
        type := some "array"
        required := some true
        items := some { Schema.blank with ref := some "File" } })] }),
    ("File", { Schema.blank with
      type := some "object"
      additionalProperties := some { Schema.blank with ref := some "Folder" } })]

def folderReference : Schema := { Schema.blank with ref := some "Folder" }

/-- The folder inside the file is the one that is being written. -/
def folderValue : Value := .object [("files", .array (.entry .undefined))]

theorem expand_folderReference : expand folderTable [] folderReference = .ok folderValue := by
  rw [expand_of_reference rfl, expandReference_of_lookup (by simp) rfl, expand_of_object rfl]
  have hf : expand folderTable ["File", "Folder"] folderReference = .ok .undefined := by
    rw [expand_of_reference rfl, expandReference_of_mem (by simp)]
  have ha : expand folderTable ["Folder"] { Schema.blank with
      type := some "array"
      required := some true
      items := some { Schema.blank with ref := some "File" } } =
      .ok (.array (.entry .undefined)) := by
    rw [expand_of_array rfl, expand_of_reference rfl,
      expandReference_of_lookup (by simp) rfl, expand_of_map rfl]
    exact congrArg _ (congrArg _ hf)
  simp only [Entries.sortByKey, List.foldr, Entries.insertByKey, Entries.mapValues, List.map, ha]
  rfl

theorem written_value_conforms_folder :
    ∃ after value form,
      writeValue folderTable folderReference Session.start = some (after, none) ∧
      value.code.run Page.empty = (after.page, (none : Option RenderFault)) ∧
      Conforms folderTable value form ∧ form.expr = .inline "Folder" := by
  obtain ⟨after, written⟩ : ∃ after, writeValue folderTable folderReference Session.start =
      some (after, none) := writeValue_succeeds_iff.mpr ⟨_, expand_folderReference⟩
  have objects : ∀ e ∈ folderTable, e.2.isEmpty = false → e.2.type = some "object" := by
    simp [folderTable]
  have typed : ∀ e ∈ folderTable, ∃ type, TypeExpr.ofSchema folderTable e.2 = .ok type := by
    simp only [folderTable, List.forall_mem_cons, List.not_mem_nil]
    exact ⟨⟨_, rfl⟩, ⟨_, rfl⟩, by simp⟩
  obtain ⟨value, form, _, hr, _, he, hc⟩ := written_value_conforms folderTable folderReference
    (fun _ _ h => objects _ (Entries.mem_of_lookup h)) rfl
    (fun _ ⟨_, _, _, _, _, _, h⟩ => typed _ (Entries.mem_of_lookup h)) written
  exact ⟨after, value, form, written, hr, hc, he⟩

end Stub

end ApiTypings
