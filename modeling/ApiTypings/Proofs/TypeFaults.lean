import ApiTypings.Proofs.CodeEffect
import ApiTypings.Proofs.TypedParts

/-! # The fault of a type

A type is made of a schema and of all that it spans before any of it is written. Among these
schemas, taken depth first, with properties in key order and the type of further ones behind them,
the first that is broken by itself gives the fault; where none is broken there is a type, and
writing it cannot fail any more. -/

namespace ApiTypings

open Outcomes

/-! ## Depth first -/

namespace Shape

variable {α β : Type}

/-- The same shape with its properties in key order. -/
def sorted : Shape α → Shape α
  | object properties additional => object (Entries.sortByKey properties) additional
  | shape => shape

theorem sorted_mapParts (f : α → β) (shape : Shape α) :
    (shape.mapParts f).sorted = shape.sorted.mapParts f := by
  cases shape with
  | primitive | array | map | reference => rfl
  | object => simp [mapParts, sorted, Entries.sortByKey_mapValues]

theorem mem_parts_sorted {shape : Shape α} {part : α} :
    part ∈ shape.sorted.parts ↔ part ∈ shape.parts := by
  cases shape with
  | primitive | array | map | reference => rfl
  | object properties additional =>
    have hp := ((Entries.sortByKey_perm properties).map Prod.snd).mem_iff (a := part)
    simp only [sorted, parts, List.mem_append, hp]

end Shape

namespace Schema

variable {s t : Schema}

/-- The schema and all that it spans, depth first: properties in key order, and the type of further
ones behind them. -/
def nodes : Schema → List Schema :=
  byShape fun s shape =>
    s :: match shape with
      | .ok shape => shape.sorted.parts.flatMap Prod.snd
      | .error _ => []

theorem nodes_of_fault {fault : SchemaFault} (h : s.shape = .error fault) : s.nodes = [s] := by
  rw [nodes, byShape_eq, h]
  rfl

theorem nodes_of_shape {shape : Shape Schema} (h : s.shape = .ok shape) :
    s.nodes = s :: shape.sorted.parts.flatMap nodes := by
  rw [nodes, byShape_eq, h]
  simp only [Except.map, Shape.sorted_mapParts, Shape.parts_mapParts, List.flatMap_map]

theorem mem_nodes : t ∈ s.nodes ↔ s.Spans t := by
  constructor
  · intro h
    induction s using shapeInduction with
    | step s ih =>
      cases hs : s.shape with
      | error fault =>
        rw [nodes_of_fault hs] at h
        cases List.mem_singleton.mp h
        exact .refl
      | ok shape =>
        rw [nodes_of_shape hs] at h
        rcases List.mem_cons.mp h with rfl | h
        · exact .refl
        · obtain ⟨part, hp, ht⟩ := List.mem_flatMap.mp h
          have hp := Shape.mem_parts_sorted.mp hp
          exact .head ⟨shape, hs, hp⟩ (ih shape hs part hp ht)
  · intro h
    induction h using Relation.ReflTransGen.head_induction_on with
    | refl =>
      cases ht : t.shape with
      | error fault => simp [nodes_of_fault ht]
      | ok shape => simp [nodes_of_shape ht]
    | head hp _ ih =>
      obtain ⟨shape, hs, hp⟩ := hp
      rw [nodes_of_shape hs]
      exact List.mem_cons_of_mem _
        (List.mem_flatMap.mpr ⟨_, Shape.mem_parts_sorted.mpr hp, ih⟩)

/-! ## Broken schemas -/

/-- What is wrong with a schema by itself. -/
inductive Broken (table : SchemaTable) (s : Schema) : SchemaFault → Prop
  | items (ht : s.type = some "array") (hi : s.items = none) :
    Broken table s (.missingProperty "items" "array")
  | shapeless (ht : nonEmpty? s.type = none) (hr : nonEmpty? s.ref = none) :
    Broken table s .shapeless
  | undefined {name : String} (ht : nonEmpty? s.type = none) (hr : nonEmpty? s.ref = some name)
    (hl : table.lookup name = none) : Broken table s (.undefined name)

theorem shape_of_untyped (h : nonEmpty? s.type = none) :
    s.shape = match nonEmpty? s.ref with
      | some name => .ok (.reference name)
      | none => .error .shapeless := by
  have ha : s.type ≠ some "array" := fun he => by rw [he] at h; cases h
  have ho : (s.type == some "object") = false := by
    rw [beq_eq_false_iff_ne]
    exact fun he => by rw [he] at h; cases h
  simp only [shape, Shape.ofFields, ho, h, beq_iff_eq, ha, if_false]
  cases nonEmpty? s.ref <;> rfl

theorem untyped_of_reference {name : String} (h : s.shape = .ok (.reference name)) :
    nonEmpty? s.type = none ∧ nonEmpty? s.ref = some name := by
  unfold shape Shape.ofFields at h
  split at h
  · split at h <;> cases h
  · split at h
    · cases h
    · cases h
    · split at h
      · cases h
      next ht hr => cases h; exact ⟨ht, hr⟩
      · cases h

theorem broken_of_shape {table : SchemaTable} {fault : SchemaFault} (h : s.shape = .error fault) :
    Broken table s fault := by
  unfold shape Shape.ofFields at h
  split at h
  next ha =>
    split at h
    · cases h
    next hi => cases h; exact .items (beq_iff_eq.mp ha) hi
  · split at h
    · cases h
    · cases h
    · split at h
      · cases h
      · cases h
      next ht hr => cases h; exact .shapeless ht hr

/-- The fault of a schema by itself. -/
def ownFault? (table : SchemaTable) (s : Schema) : Option SchemaFault :=
  match s.shape with
  | .error fault => some fault
  | .ok (.reference name) => fault? (table.resolve name)
  | .ok _ => none

theorem ownFault?_eq_some_iff {table : SchemaTable} {fault : SchemaFault} :
    s.ownFault? table = some fault ↔ Broken table s fault := by
  unfold ownFault?
  constructor
  · intro h
    split at h
    next hs => cases h; exact broken_of_shape hs
    next name hs =>
      obtain ⟨ht, hr⟩ := untyped_of_reference hs
      rw [SchemaTable.resolve] at h
      cases hl : table.lookup name with
      | some schema => rw [hl] at h; cases h
      | none => rw [hl] at h; cases h; exact .undefined ht hr hl
    · cases h
  · intro h
    cases h with
    | items ht hi =>
      have hs : s.shape = .error (.missingProperty "items" "array") := by
        simp [shape, Shape.ofFields, ht, hi]
      rw [hs]
    | shapeless ht hr => rw [shape_of_untyped ht, hr]
    | undefined ht hr hl =>
      rw [shape_of_untyped ht, hr]
      simp only [SchemaTable.resolve, hl, fault?]

end Schema

/-! ## The first fault -/

namespace TypeExpr

variable {table : SchemaTable}

theorem ofSchema_eq (table : SchemaTable) (s : Schema) :
    ofSchema table s =
      ofShape table (s.shape.map (Shape.mapParts fun t => (t, ofSchema table t))) :=
  Schema.byShape_eq _ s

theorem fault?_fieldsOf (properties : Entries (Schema × Except SchemaFault TypeExpr)) :
    fault? (fieldsOf properties) =
      ((Entries.sortByKey properties).map Prod.snd).findSome? fun part => fault? part.2 := by
  rw [fieldsOf, fault?_mapM, List.findSome?_map]
  exact congrArg (List.findSome? · _) (funext fun e => fault?_map _ _)

/-- The type of further properties comes after those that are listed. -/
theorem fault?_membersOf (properties : Entries (Schema × Except SchemaFault TypeExpr))
    (additional : Option (Schema × Except SchemaFault TypeExpr)) :
    fault? (membersOf properties additional) =
      (Shape.object properties additional).sorted.parts.findSome? fun part => fault? part.2 := by
  rw [Shape.sorted, Shape.parts, List.findSome?_append, ← fault?_fieldsOf, membersOf]
  refine fault?_bind fun fields => ?_
  rcases additional with _ | ⟨_, _ | type⟩ <;> rfl

/-- The type of a shape has the fault of a reference, or the first one among its parts. -/
theorem fault?_ofShape (shape : Shape (Schema × Except SchemaFault TypeExpr)) :
    fault? (ofShape table (.ok shape)) =
      match shape with
      | .reference name => fault? (table.resolve name)
      | shape => shape.sorted.parts.findSome? fun part => fault? part.2 := by
  cases shape with
  | primitive kind repeated => rfl
  | array item => rcases item with ⟨_, _ | type⟩ <;> rfl
  | object properties additional =>
    rw [ofShape, fault?_map, fault?_membersOf]
  | map value => rcases value with ⟨_, _ | type⟩ <;> rfl
  | reference name =>
    rw [ofShape, fault?_map, reference, fault?_map, SchemaTable.isEmpty, fault?_map]

/-- The fault of a type is that of the first schema with one. -/
theorem fault?_ofSchema (table : SchemaTable) (s : Schema) :
    fault? (ofSchema table s) = s.nodes.findSome? (Schema.ownFault? table) := by
  induction s using Schema.shapeInduction with
  | step s ih =>
    rw [ofSchema_eq]
    cases hs : s.shape with
    | error fault =>
      rw [Schema.nodes_of_fault hs, List.findSome?_singleton, Schema.ownFault?, hs]
      rfl
    | ok shape =>
      have hparts : shape.sorted.parts.map (fun t => fault? (ofSchema table t)) =
          shape.sorted.parts.map fun t => t.nodes.findSome? (Schema.ownFault? table) :=
        List.map_congr_left fun t ht => ih shape hs t (Shape.mem_parts_sorted.mp ht)
      have hfirst : ((shape.mapParts fun t => (t, ofSchema table t)).sorted.parts.findSome?
            fun part => fault? part.2) =
          (shape.sorted.parts.flatMap Schema.nodes).findSome? (Schema.ownFault? table) := by
        rw [Shape.sorted_mapParts, Shape.parts_mapParts, List.findSome?_map, findSome?_flatMap]
        have hfirst := congrArg (List.findSome? id) hparts
        simpa only [List.findSome?_map, Function.comp_def, id] using hfirst
      rw [Schema.nodes_of_shape hs, List.findSome?_cons, ← hfirst, Except.map, fault?_ofShape,
        Schema.ownFault?, hs]
      cases shape with
      | primitive | array | map | object => rfl
      | reference name =>
        simp only [Shape.mapParts]
        cases fault? (table.resolve name) <;> rfl

/-! ## Writing -/

section
variable {ε : Type}

theorem operand_eq (type : TypeExpr) : Code.operand (type.operand : Operand ε) = type.code := by
  cases type <;> rfl

theorem adds_property {type : Operand ε} (h : (Code.operand type).Adds) (name : String)
    (required : Bool) : (Code.property name type required).Adds := by
  cases type with
  | inline text => exact Code.adds_line _
  | block code => exact ((Code.adds_beginLine _).append h).append (Code.adds_endLine _)
  | unwritable asType asProperty =>
    obtain ⟨_, hf⟩ := h Page.empty
    exact absurd (congrArg Prod.snd hf) (Option.some_ne_none _)

theorem adds_fieldCode {type : Operand ε} (h : (Code.operand type).Adds) (name : String)
    (required : Bool) (description : Option String) :
    (fieldCode name type required description).Adds :=
  (Code.adds_comment _ _).append (adds_property h name required)

mutual

theorem adds_code : (type : TypeExpr) → (type.code : Code ε).Adds
  | .inline text => Code.adds_text text
  | .array item => ((Code.adds_text _).append (adds_code item)).append (Code.adds_text _)
  | .object fields => Code.adds_anonymousType (adds_fieldsCode fields)
  | .record value => ((Code.adds_text _).append (adds_code value)).append (Code.adds_text _)

theorem adds_fieldsCode : (fields : List (Field TypeExpr)) → (fieldsCode fields : Code ε).Adds
  | [] => Code.adds_nil
  | ⟨name, type, required, description⟩ :: rest => by
    rw [fieldsCode_cons]
    have htype := adds_code type
    rw [← operand_eq] at htype
    exact (adds_fieldCode htype name required description).append (adds_fieldsCode rest)

end

end

/-- A schema has no type exactly if one of the schemas that it spans is broken by itself, and the
fault is that of the first one, depth first with properties in key order and the type of further
ones behind them. Whatever type there is adds text to any page, and nothing else happens to the
page. -/
theorem fails_at_first_broken (table : SchemaTable) (s : Schema) :
    ((∃ fault, ofSchema table s = .error fault) ↔
      ∃ node fault, s.Spans node ∧ node.Broken table fault) ∧
    (∀ fault, ofSchema table s = .error fault ↔
      ∃ before node after, s.nodes = before ++ node :: after ∧ node.Broken table fault ∧
        ∀ t ∈ before, ∀ other, ¬t.Broken table other) ∧
    ∀ type, ofSchema table s = .ok type → ∀ page : Page,
      ∃ text, (Code.operand (type.operand : Operand ε)).run page = (page.append text, none) := by
  refine ⟨?_, fun fault => ?_, fun type _ => ?_⟩
  · simp only [← fault?_eq_some_iff, fault?_ofSchema, ← Option.isSome_iff_exists,
      List.findSome?_isSome_iff, Schema.mem_nodes]
    simp only [Option.isSome_iff_exists, Schema.ownFault?_eq_some_iff, exists_and_left]
  · rw [← fault?_eq_some_iff, fault?_ofSchema, List.findSome?_eq_some_iff]
    simp only [Schema.ownFault?_eq_some_iff, Option.eq_none_iff_forall_ne_some, ne_eq]
  · rw [operand_eq]
    exact adds_code type

end TypeExpr

end ApiTypings
