import ApiTypings.Declarations
import ApiTypings.Proofs.CodeEffect
import ApiTypings.Proofs.ResourceTree
import ApiTypings.Proofs.StructuralType

/-! # What a declaration file declares

The outline of a declaration file lists its interfaces with what they declare, and its constants.
It has types in place of text and one flat list in place of the tree of resources. The file is the
outline in print: the recursion over the tree writes the text of the list, and where one part of the
outline is at fault, the first of them, the file has the same fault. -/

namespace ApiTypings

/-! ## Types in print -/

namespace StructuralType

/-- The members that an object has in print. -/
def members : StructuralType → List (Field TypeExpr)
  | .object fields none => fieldExprs fields
  | .object fields (some type) => fieldExprs fields ++ [TypeExpr.indexField type.expr]
  | _ => []

theorem members_ofInterface (table : SchemaTable) (schema : Schema) :
    TypeExpr.membersOfSchema table schema = (ofInterface table schema).map members := by
  have he := expr_ofInterface table schema
  cases hi : ofInterface table schema with
  | error fault =>
    rw [hi] at he
    cases hm : TypeExpr.membersOfSchema table schema with
    | error other => rw [hm] at he; cases he; rfl
    | ok fields => rw [hm] at he; cases he
  | ok type =>
    obtain ⟨fields, index, _, rfl⟩ := objectOf_eq_ok hi
    rw [hi] at he
    obtain ⟨exprs, hm, hx⟩ := Outcomes.map_eq_ok_iff.mp he
    rw [hm]
    cases index <;> cases hx <;> rfl

/-- The fields of properties, in key order. -/
def fieldsOfProperties (table : SchemaTable) (properties : Entries Schema) :
    Except SchemaFault (List (Field StructuralType)) :=
  fieldsOf (properties.mapValues fun s => (s, ofSchema table s))

theorem fieldExprs_fieldsOfProperties (table : SchemaTable) (properties : Entries Schema) :
    TypeExpr.fieldsOfProperties table properties =
      (fieldsOfProperties table properties).map fieldExprs := by
  rw [fieldsOfProperties, ← fieldExprs_fieldsOf, TypeExpr.fieldsOfProperties]
  simp only [expr_ofSchema, Entries.mapValues_mapValues]

/-- A schema by its name. One that declares nothing leaves its values free. -/
def reference (table : SchemaTable) (name : String) : Except SchemaFault StructuralType :=
  (table.isEmpty name).map fun empty => if empty then any else interface name

end StructuralType

namespace Declarations

variable {ε : Type}

/-! ## Parts of a file -/

/-- The interface of a named schema. -/
structure SchemaInterface where
  name : String
  type : StructuralType

/-- What a method answers with. -/
inductive Answer where
  | nothing
  /-- An object of which no member is known. -/
  | unknown
  /-- A value of the interface of a schema. -/
  | interface (name : String)

structure Signature where
  name : String
  description : Option String
  request : List (Field StructuralType)
  body : Option StructuralType
  answer : Answer

structure ResourceInterface where
  name : String
  methods : List Signature
  /-- The members for the resources below, each with the interface that is its type. -/
  children : List (String × String)

structure Outline where
  schemas : List SchemaInterface
  resources : List ResourceInterface
  /-- The constants, each with the interface that is its type. -/
  constants : List (String × String)

/-! ## In print -/

def SchemaInterface.code (i : SchemaInterface) : Code ε :=
  .interfaceBlock i.name (TypeExpr.fieldsCode i.type.members)

def Answer.text : Answer → String
  | nothing => "<void>"
  | unknown => "<\x7b\x7d>"
  | interface name => "<" ++ name ++ ">"

def Signature.code (table : SchemaTable) (s : Signature) : Code ε :=
  let request := (StructuralType.object s.request none).expr.operand
  let body := s.body.map fun type => ("body", type.expr.operand)
  .comment? s.description ++
    .method s.name (("request", request) :: body.toList) (requestType table ++ s.answer.text) false

def ResourceInterface.code (table : SchemaTable) (i : ResourceInterface) : Code ε :=
  .interfaceBlock i.name (.all (i.methods.map (Signature.code table)) ++
    .all (i.children.map fun (child, type) => .property child (.inline type) true))

def constantCode : String × String → Code ε
  | (name, type) => .endLine "" ++ .line ("const " ++ name ++ ": " ++ type ++ ";")

def Outline.code (api : Description) (options : DeclarationOptions) (o : Outline) : Code ε :=
  let table := SchemaTable.ofDescription api
  header api options ++ .referenceTypes "gapi.client" ++
    .declareNamespace "gapi.client" (loaders api ++ .endLine "" ++
      .namespaceBlock api.name (.all (o.schemas.map SchemaInterface.code) ++
        .all (o.resources.map (ResourceInterface.code table)) ++
        .all (o.constants.map constantCode)))

def Outline.text (api : Description) (options : DeclarationOptions) (o : Outline) : String :=
  ((o.code api options : Code Empty).run Page.empty).1.text

/-! ## Of a description -/

/-- The schemas that declare something, in key order. -/
def declaredSchemas (table : SchemaTable) : Entries Schema :=
  (Entries.sortByKey table).filter fun (_, schema) => !schema.isEmpty

def SchemaInterface.of (table : SchemaTable) (name : String) (schema : Schema) :
    Except SchemaFault SchemaInterface :=
  (StructuralType.ofInterface table schema).map fun type => ⟨name, type⟩

def Answer.of (table : SchemaTable) (response : Option SchemaRef) : Except SchemaFault Answer :=
  match response with
  | none => .ok nothing
  | some { ref, .. } =>
    match nonEmpty? ref with
    | none => .ok unknown
    | some name => (table.isEmpty name).map fun empty => if empty then unknown else interface name

def bodyType (table : SchemaTable) (method : Method) :
    Except SchemaFault (Option StructuralType) :=
  match method.bodyRef? with
  | none => .ok none
  | some name => (StructuralType.reference table name).map some

def Signature.of (api : Description) (method : Method) : Except SchemaFault Signature := do
  let table := SchemaTable.ofDescription api
  match nonEmpty? method.id with
  | none => .error (.missingProperty "id" "method")
  | some id =>
    let request ← StructuralType.fieldsOfProperties table (requestParameters api method)
    let body ← bodyType table method
    let answer ← Answer.of table method.response
    return ⟨Naming.lastSegment id, method.description, request, body, answer⟩

/-- The interface of the resource at a place. -/
def ResourceInterface.of (api : Description) (p : Resource.Place) :
    Except SchemaFault ResourceInterface := do
  let methods ← (Entries.sortByKey p.methods).mapM fun (_, method) => Signature.of api method
  let children := (Entries.sortByKey p.children).map fun (child, _) =>
    (child, Naming.resourceInterface child)
  return ⟨Naming.resourceInterface p.name, methods, children⟩

/-- The places of the resources of an API. -/
def resourcePlaces (api : Description) (order : Resource.Order) : List Resource.Place :=
  Resource.places order (Entries.orEmpty api.resources) []

/-- The top-level resources that are not excluded, each with its interface. -/
def exposedResources (api : Description) (excluded : List String) : List (String × String) :=
  ((Entries.sortByKey (Entries.orEmpty api.resources)).filter
    fun (name, _) => !excluded.contains name).map fun (name, _) =>
      (name, Naming.resourceInterface name)

/-- What is declared for a description: schemas in key order, resources after those below them, and
the top-level resources that are not excluded as constants. -/
def Outline.of (api : Description) (excluded : List String) : Except SchemaFault Outline := do
  let table := SchemaTable.ofDescription api
  let schemas ← (declaredSchemas table).mapM fun (name, schema) =>
    SchemaInterface.of table name schema
  let resources ← (resourcePlaces api .childrenFirst).mapM (ResourceInterface.of api)
  return ⟨schemas, resources, exposedResources api excluded⟩

/-! ## Where there is an outline -/

theorem SchemaInterface.of_eq_ok {table : SchemaTable} {name : String} {schema : Schema}
    {i : SchemaInterface} (h : SchemaInterface.of table name schema = .ok i) :
    i.name = name ∧ StructuralType.ofInterface table schema = .ok i.type := by
  obtain ⟨type, ht, rfl⟩ := Outcomes.map_eq_ok_iff.mp h
  exact ⟨rfl, ht⟩

theorem Signature.of_eq_ok {api : Description} {method : Method} {s : Signature}
    (h : Signature.of api method = .ok s) :
    ∃ id, nonEmpty? method.id = some id ∧ s.name = Naming.lastSegment id ∧
      s.description = method.description ∧
      StructuralType.fieldsOfProperties (SchemaTable.ofDescription api)
        (requestParameters api method) = .ok s.request ∧
      bodyType (SchemaTable.ofDescription api) method = .ok s.body ∧
      Answer.of (SchemaTable.ofDescription api) method.response = .ok s.answer := by
  unfold Signature.of at h
  cases hid : nonEmpty? method.id with
  | none => rw [hid] at h; cases h
  | some id =>
    simp only [hid, Outcomes.bind_eq_ok_iff] at h
    obtain ⟨request, hr, body, hb, answer, ha, h⟩ := h
    cases h
    exact ⟨id, rfl, rfl, rfl, hr, hb, ha⟩

theorem ResourceInterface.of_eq_ok {api : Description} {p : Resource.Place}
    {i : ResourceInterface} (h : ResourceInterface.of api p = .ok i) :
    i.name = Naming.resourceInterface p.name ∧
      List.Forall₂ (fun e s => Signature.of api e.2 = .ok s) (Entries.sortByKey p.methods)
        i.methods ∧
      i.children = (Entries.sortByKey p.children).map fun e =>
        (e.1, Naming.resourceInterface e.1) := by
  simp only [ResourceInterface.of, Outcomes.bind_eq_ok_iff, Outcomes.mapM_eq_ok_iff] at h
  obtain ⟨methods, hm, h⟩ := h
  cases h
  exact ⟨rfl, hm, rfl⟩

theorem Outline.of_eq_ok {api : Description} {excluded : List String} {o : Outline}
    (h : Outline.of api excluded = .ok o) :
    List.Forall₂ (fun e i => SchemaInterface.of (SchemaTable.ofDescription api) e.1 e.2 = .ok i)
        (declaredSchemas (SchemaTable.ofDescription api)) o.schemas ∧
      List.Forall₂ (fun p i => ResourceInterface.of api p = .ok i)
        (resourcePlaces api .childrenFirst) o.resources ∧
      o.constants = exposedResources api excluded := by
  simp only [Outline.of, Outcomes.bind_eq_ok_iff, Outcomes.mapM_eq_ok_iff] at h
  obtain ⟨schemas, hs, resources, hr, h⟩ := h
  cases h
  exact ⟨hs, hr, rfl⟩

/-! ## The file is its outline in print -/

theorem responseType_eq (table : SchemaTable) (response : Option SchemaRef) :
    responseType table response =
      (Answer.of table response).map fun answer => requestType table ++ answer.text := by
  unfold responseType Answer.of
  rcases response with _ | ⟨ref, parameterName⟩
  · rfl
  dsimp only
  cases nonEmpty? ref with
  | none => rfl
  | some name =>
    dsimp only
    cases table.isEmpty name with
    | error fault => rfl
    | ok empty =>
      cases empty with
      | true => rfl
      | false => exact congrArg Except.ok (by simp only [String.append_assoc]; rfl)

theorem bodyParameter_eq (table : SchemaTable) (method : Method) :
    (bodyParameter table method : Except SchemaFault (List (String × Operand ε))) =
      (bodyType table method).map fun body =>
        (body.map fun type => ("body", type.expr.operand)).toList := by
  unfold bodyParameter bodyType
  cases method.bodyRef? with
  | none => rfl
  | some name =>
    dsimp only [TypeExpr.reference, StructuralType.reference]
    cases table.isEmpty name with
    | error fault => rfl
    | ok empty => cases empty <;> rfl

theorem methodCode_eq (api : Description) (method : Method) :
    (methodCode api method : Except SchemaFault (Code ε)) =
      (Signature.of api method).map (Signature.code (SchemaTable.ofDescription api)) := by
  unfold methodCode Signature.of
  cases nonEmpty? method.id with
  | none => rfl
  | some id =>
    simp only [StructuralType.fieldExprs_fieldsOfProperties, bodyParameter_eq, responseType_eq]
    cases StructuralType.fieldsOfProperties (SchemaTable.ofDescription api)
      (requestParameters api method) with
    | error fault => rfl
    | ok request =>
      cases bodyType (SchemaTable.ofDescription api) method with
      | error fault => rfl
      | ok body => cases Answer.of (SchemaTable.ofDescription api) method.response <;> rfl

theorem schemaInterface_eq (table : SchemaTable) (name : String) (schema : Schema) :
    (schemaInterface table name schema : Except SchemaFault (Code ε)) =
      (SchemaInterface.of table name schema).map SchemaInterface.code := by
  rw [schemaInterface, StructuralType.members_ofInterface, SchemaInterface.of]
  cases StructuralType.ofInterface table schema <;> rfl

theorem schemaInterfaces_eq (table : SchemaTable) :
    (schemaInterfaces table : Except SchemaFault (Code ε)) =
      ((declaredSchemas table).mapM fun e => SchemaInterface.of table e.1 e.2).map
        fun (is : List SchemaInterface) => .all (is.map SchemaInterface.code) := by
  change ((declaredSchemas table).mapM fun e => schemaInterface table e.1 e.2) >>=
    (fun (codes : List (Code ε)) => pure (Code.all codes)) = _
  rw [Outcomes.mapM_map_results fun e _ => schemaInterface_eq table e.1 e.2]
  cases (declaredSchemas table).mapM fun e => SchemaInterface.of table e.1 e.2 <;> rfl

theorem resourceInterface_eq (api : Description) (p : Resource.Place) :
    (resourceInterface api p.name p.resource : Except SchemaFault (Code ε)) =
      (ResourceInterface.of api p).map
        (ResourceInterface.code (SchemaTable.ofDescription api)) := by
  let methods := Entries.sortByKey p.methods
  unfold resourceInterface ResourceInterface.of
  rw [Outcomes.mapM_map_results fun e _ => methodCode_eq api e.2]
  change _ = Except.map _ (Except.bind (methods.mapM fun e => Signature.of api e.2) _)
  change Except.bind (Except.map _ (methods.mapM fun e => Signature.of api e.2)) _ = _
  cases methods.mapM fun e => Signature.of api e.2 with
  | error fault => rfl
  | ok methods =>
    refine congrArg Except.ok ?_
    simp only [ResourceInterface.code, List.map_map]
    rfl

/-! ## The tree as a list -/

/-- Code that writes interfaces one after another. -/
def Lists (table : SchemaTable) (code : Code ε) (interfaces : List ResourceInterface) : Prop :=
  code.Same (.all (interfaces.map (ResourceInterface.code table)))

theorem Lists.append {table : SchemaTable} {a b : Code ε} {xs ys : List ResourceInterface}
    (ha : Lists table a xs) (hb : Lists table b ys) : Lists table (a ++ b) (xs ++ ys) := by
  rw [Lists, List.map_append]
  exact (Code.Same.append ha hb).trans (Code.same_all_append _ _).symm

/-- Trees that list the interfaces of their places list, one after another, those of all places. -/
theorem agree_trees {α : Type} {api : Description} {tree : α → Except SchemaFault (Code ε)}
    {placesOf : α → List Resource.Place} (trees : List α)
    (h : ∀ t ∈ trees, Outcomes.Agree (Lists (SchemaTable.ofDescription api)) (tree t)
      ((placesOf t).mapM (ResourceInterface.of api))) :
    Outcomes.Agree (fun codes => Lists (SchemaTable.ofDescription api) (.all codes))
      (trees.mapM tree) ((trees.flatMap placesOf).mapM (ResourceInterface.of api)) := by
  induction trees with
  | nil => exact .ok (.refl _)
  | cons t rest ih =>
    rw [List.mapM_cons, List.flatMap_cons, List.mapM_append]
    refine (h t (List.mem_cons_self ..)).bind fun code listed ht => ?_
    refine (ih fun u hu => h u (List.mem_cons_of_mem _ hu)).bind fun codes others hr => ?_
    exact .ok (ht.append hr)

theorem resourceTree_eq (api : Description) (r : Resource) (name : String) :
    (resourceTree api r name : Except SchemaFault (Code ε)) = (do
      let below ← (Entries.sortByKey (Entries.orEmpty r.resources)).mapM fun e =>
        resourceTree api e.2 e.1
      let own ← resourceInterface api name r
      return .all below ++ own) := by
  rw [resourceTree, Resource.recurse_eq, Entries.sortByKey_mapValues, Entries.mapValues,
    List.mapM_map]
  rfl

theorem resourceTree_agrees (api : Description) (r : Resource) (above : List String)
    (name : String) :
    Outcomes.Agree (Lists (SchemaTable.ofDescription api))
      (resourceTree api r name : Except SchemaFault (Code ε))
      ((r.placesFrom .childrenFirst above name).mapM (ResourceInterface.of api)) := by
  induction r using Resource.childInduction generalizing above name with
  | step r ih =>
    rw [resourceTree_eq, Resource.placesFrom_eq, Resource.Order.arrange, List.mapM_append,
      List.mapM_cons, List.mapM_nil]
    simp only [bind_assoc, pure_bind]
    have hb := agree_trees (Entries.sortByKey (Entries.orEmpty r.resources)) fun e he =>
      ih e (Entries.mem_sortByKey.mp he) (above ++ [name]) e.1
    refine hb.bind fun codes listed hl => ?_
    have hr := resourceInterface_eq (ε := ε) api ⟨above, name, r⟩
    refine (Outcomes.agree_of_eq_map hr).bind fun own i ho => ?_
    exact .ok (hl.append (ho ▸ (Code.same_all_singleton _).symm))

theorem resourceInterfaces_agrees (api : Description) :
    Outcomes.Agree (Lists (SchemaTable.ofDescription api))
      (resourceInterfaces api : Except SchemaFault (Code ε))
      ((resourcePlaces api .childrenFirst).mapM (ResourceInterface.of api)) := by
  have h := agree_trees (ε := ε) (Entries.sortByKey (Entries.orEmpty api.resources)) fun e _ =>
    resourceTree_agrees api e.2 [] e.1
  rw [← bind_pure (List.mapM _ _)]
  exact h.bind fun codes listed hl => .ok hl

theorem constants_eq (api : Description) (excluded : List String) :
    (constants api excluded : Code ε) =
      .all ((exposedResources api excluded).map constantCode) := by
  rw [constants, exposedResources, List.map_map]
  rfl

theorem file_agrees (api : Description) (options : DeclarationOptions) :
    Outcomes.Agree (fun code (o : Outline) => Code.Same code (o.code api options))
      (file api options : Except SchemaFault (Code ε))
      (Outline.of api options.excludedResources) := by
  have hs := schemaInterfaces_eq (ε := ε) (SchemaTable.ofDescription api)
  refine (Outcomes.agree_of_eq_map hs).bind fun schemas is hs => ?_
  refine (resourceInterfaces_agrees api).bind fun resources rs hr => ?_
  subst hs
  rw [constants_eq]
  -- Only the resources stand in another grouping.
  have hb := ((Code.Same.refl (.all (is.map SchemaInterface.code))).append hr).append
    (.refl (.all ((exposedResources api options.excludedResources).map constantCode)))
  exact .ok ((Code.Same.refl _).append ((Code.Same.refl _).append
    (((Code.Same.refl _).append (hb.braces _)).braces _)))

/-- The declaration file of an API is its outline in print. -/
theorem render_eq (api : Description) (options : DeclarationOptions) :
    render api options =
      (Outline.of api options.excludedResources).map (Outline.text api options) := by
  have h := file_agrees (ε := Empty) api options
  unfold render
  generalize file api options = x, Outline.of api options.excludedResources = y at h
  cases h with
  | ok h => exact congrArg Except.ok (by rw [h]; rfl)
  | error fault => rfl

end Declarations

end ApiTypings
