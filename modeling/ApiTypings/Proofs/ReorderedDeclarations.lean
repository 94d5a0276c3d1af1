import ApiTypings.Declarations
import ApiTypings.Proofs.ReorderedDescription

/-! # Declarations of a description in another order

Everything that is declared is declared in key order, and the first fault is the first in that
order. So the declaration file, or the fault that there is in its place, does not depend on the
order in which the description was written. -/

namespace ApiTypings

/-! ## Types -/

namespace TypeExpr

variable {table table' : SchemaTable}

theorem fieldsOf_eq_of_reordered {xs ys : Entries (Schema × Except SchemaFault TypeExpr)}
    (h : Entries.Reordered Schema.SameResult xs ys) : fieldsOf xs = fieldsOf ys := by
  refine h.sortByKey.mapM_eq ?_
  rintro name ⟨s, type⟩ ⟨t, _⟩ ⟨hst, rfl⟩
  have hf : fieldOf name s = fieldOf name t := by
    funext type
    rw [fieldOf, fieldOf, hst.required_eq, hst.description_eq]
  simp only [hf]

theorem membersOf_eq_of_reordered {xs ys : Entries (Schema × Except SchemaFault TypeExpr)}
    {a? b? : Option (Schema × Except SchemaFault TypeExpr)}
    (h : Entries.Reordered Schema.SameResult xs ys) (ha : Option.Rel Schema.SameResult a? b?) :
    membersOf xs a? = membersOf ys b? := by
  rw [membersOf, membersOf, fieldsOf_eq_of_reordered h]
  cases ha with
  | none => rfl
  | @some a b hab =>
    obtain ⟨s, type⟩ := a
    obtain ⟨t, _⟩ := b
    obtain ⟨_, rfl⟩ := hab
    rfl

theorem reference_eq_of_reordered (ht : table.Reordered table') (name : String) :
    reference table name = reference table' name := by
  rw [reference, reference, ht.isEmpty_eq]

theorem ofSchema_eq_of_reordered (ht : table.Reordered table') {a b : Schema}
    (h : a.Reordered b) : ofSchema table a = ofSchema table' b := by
  refine Schema.byShape_eq_of_reordered (fun _ _ x y _ hx => ?_) h
  cases hx with
  | error fault => rfl
  | ok hx =>
    cases hx with
    | primitive => rfl
    | @array p q hpq =>
      obtain ⟨s, type⟩ := p
      obtain ⟨t, _⟩ := q
      obtain ⟨_, rfl⟩ := hpq
      rfl
    | object hp ha => exact congrArg (Except.map TypeExpr.object) (membersOf_eq_of_reordered hp ha)
    | @map p q hpq =>
      obtain ⟨s, type⟩ := p
      obtain ⟨t, _⟩ := q
      obtain ⟨_, rfl⟩ := hpq
      rfl
    | reference name =>
      exact congrArg (Except.map TypeExpr.inline) (reference_eq_of_reordered ht name)

theorem fieldsOfProperties_eq_of_reordered (ht : table.Reordered table') {xs ys : Entries Schema}
    (h : Entries.Reordered Schema.Reordered xs ys) :
    fieldsOfProperties table xs = fieldsOfProperties table' ys :=
  fieldsOf_eq_of_reordered (h.mapValues fun _ _ _ hst => ⟨hst, ofSchema_eq_of_reordered ht hst⟩)

theorem membersOfSchema_eq_of_reordered (ht : table.Reordered table') {a b : Schema}
    (h : a.Reordered b) : membersOfSchema table a = membersOfSchema table' b := by
  obtain ⟨_, _, hp, ha⟩ := h
  refine membersOf_eq_of_reordered ((Entries.Reordered.orEmpty hp).mapValues fun _ _ _ hst => ?_)
    (rel_map ha fun _ _ hst => ?_)
  · exact ⟨hst, ofSchema_eq_of_reordered ht hst⟩
  · exact ⟨hst, ofSchema_eq_of_reordered ht hst⟩

end TypeExpr

/-! ## Interfaces -/

namespace Declarations

variable {ε : Type} {a b : Description}

section
variable {table table' : SchemaTable} (ht : table.Reordered table')
include ht

theorem schemaInterfaces_eq_of_reordered :
    (schemaInterfaces table : Except SchemaFault (Code ε)) = schemaInterfaces table' := by
  rw [schemaInterfaces, schemaInterfaces,
    (ht.sortByKey.filter fun _ s t hst => ?_).mapM_eq fun name s t hst => ?_]
  · exact congrArg not hst.isEmpty_eq
  · simp only [schemaInterface, TypeExpr.membersOfSchema_eq_of_reordered ht hst]

theorem responseType_eq_of_reordered : responseType table = responseType table' := by
  funext response
  unfold responseType requestType
  simp only [ht.contains_eq, ht.isEmpty_eq]

theorem bodyParameter_eq_of_reordered {m m' : Method} (hm : m.Reordered m') :
    (bodyParameter table m : Except SchemaFault (List (String × Operand ε))) =
      bodyParameter table' m' := by
  have hbody : m.bodyRef? = m'.bodyRef? := (congrArg Method.bodyRef? hm.rest :)
  unfold bodyParameter
  simp only [hbody, TypeExpr.reference_eq_of_reordered ht]

end

variable (h : a.Reordered b)
include h

theorem methodCode_eq_of_reordered {m m' : Method} (hm : m.Reordered m') :
    (methodCode a m : Except SchemaFault (Code ε)) = methodCode b m' := by
  have hid : m.id = m'.id := (congrArg Method.id hm.rest :)
  have hdescription : m.description = m'.description := (congrArg Method.description hm.rest :)
  have hresponse : m.response = m'.response := (congrArg Method.response hm.rest :)
  have hfields := TypeExpr.fieldsOfProperties_eq_of_reordered h.table
    ((Entries.Reordered.orEmpty h.parameters).merge (Entries.Reordered.orEmpty hm.parameters))
  unfold methodCode requestParameters
  simp only [hid, hdescription, hresponse, hfields, bodyParameter_eq_of_reordered h.table hm,
    responseType_eq_of_reordered h.table]

/-! ## Resources -/

theorem resourceInterface_eq_of_reordered (name : String) {r r' : Resource}
    (hr : r.Reordered r') :
    (resourceInterface a name r : Except SchemaFault (Code ε)) = resourceInterface b name r' := by
  obtain ⟨hm, hc⟩ := hr
  have hs := (Entries.Reordered.orEmpty hc).sortByKey
  rw [resourceInterface, resourceInterface,
    (Entries.Reordered.orEmpty hm).sortByKey.mapM_eq fun _ _ _ hmm => ?_,
    hs.map_eq fun child _ _ _ => ?_]
  · rfl
  · exact methodCode_eq_of_reordered h hmm

theorem resourceTree_eq_of_reordered {r r' : Resource} (hr : r.Reordered r') :
    (resourceTree a r : String → Except SchemaFault (Code ε)) = resourceTree b r' := by
  refine Resource.recurse_eq_of_reordered (fun r r' xs ys hr hxy => ?_) hr
  funext name
  rw [resourceInterface_eq_of_reordered h name hr, hxy.sortByKey.mapM_eq]
  rintro child ⟨c, interfaces⟩ ⟨d, _⟩ ⟨_, rfl⟩
  rfl

theorem resourceInterfaces_eq_of_reordered :
    (resourceInterfaces a : Except SchemaFault (Code ε)) = resourceInterfaces b := by
  rw [resourceInterfaces, resourceInterfaces,
    (Entries.Reordered.orEmpty h.resources).sortByKey.mapM_eq fun name r r' hr => ?_]
  simp only [resourceTree_eq_of_reordered h hr]

theorem constants_eq_of_reordered (excluded : List String) :
    (constants a excluded : Code ε) = constants b excluded := by
  have hs := (Entries.Reordered.orEmpty h.resources).sortByKey
  unfold constants
  exact congrArg Code.all ((hs.filter fun _ _ _ _ => rfl).map_eq fun _ _ _ _ => rfl)

/-! ## The file -/

theorem render_eq_of_reordered (options : DeclarationOptions) :
    render a options = render b options := by
  have hh : (header a options : Code Empty) = header b options :=
    (congrArg (header · options) h.rest :)
  have hl : (loaders a : Code Empty) = loaders b := (congrArg loaders h.rest :)
  unfold render file
  simp only [schemaInterfaces_eq_of_reordered h.table, resourceInterfaces_eq_of_reordered h,
    constants_eq_of_reordered h, hh, hl, h.name_eq]

end Declarations

end ApiTypings
