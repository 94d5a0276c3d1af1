import ApiTypings.Proofs.ReorderedDeclarations
import ApiTypings.Proofs.ReorderedStub
import ApiTypings.Template.Set

/-! # Generated files do not depend on the order of keys

The two files of code sort what they print. The bundled templates take the maps of a description as
they come, which is why a description is normalized first: its maps are in key order then, as far
down as a template reads them. -/

namespace ApiTypings

/-! ## Normalized descriptions -/

theorem Entries.orEmpty_sortByKey {α : Type} (entries? : Option (Entries α)) :
    orEmpty (entries?.map sortByKey) = sortByKey (orEmpty entries?) := by
  cases entries? <;> rfl

namespace Resource

theorem sortedChildren_eq (entries : List (String × Resource)) :
    sortedChildren entries = Entries.mapValues sorted entries := by
  induction entries with
  | nil => rw [sortedChildren]; rfl
  | cons e rest ih =>
    obtain ⟨name, r⟩ := e
    rw [sortedChildren, ih]
    rfl

theorem orEmpty_sortedChildren? (entries? : Option (List (String × Resource))) :
    Entries.orEmpty (sortedChildren? entries?) =
      Entries.sortByKey (Entries.mapValues sorted (Entries.orEmpty entries?)) := by
  cases entries? with
  | none => rw [sortedChildren?]; rfl
  | some entries => rw [sortedChildren?, sortedChildren_eq]; rfl

theorem orEmpty_methods_sorted (r : Resource) :
    Entries.orEmpty r.sorted.methods = Entries.sortByKey (Entries.orEmpty r.methods) := by
  obtain ⟨methods, resources⟩ := r
  rw [sorted, Entries.orEmpty_sortByKey]

end Resource

namespace Description

theorem scopes_normalize (api : Description) :
    api.normalize.scopes = Entries.sortByKey api.scopes := by
  unfold scopes normalize
  rcases api.auth with _ | ⟨_ | oauth2⟩
  · rfl
  · rfl
  · exact Entries.orEmpty_sortByKey oauth2.scopes

variable {a b : Description} (h : a.Reordered b)
include h

theorem Reordered.rest_normalize : a.normalize.withoutMaps = b.normalize.withoutMaps :=
  (congrArg (fun api => api.normalize.withoutMaps) h.rest :)

/-- Resources that are normalized are in step, and so are their methods. -/
theorem Reordered.resources_normalize :
    Entries.InStep (fun r r' => Entries.InStep Method.Reordered (Entries.orEmpty r.methods)
        (Entries.orEmpty r'.methods))
      (Entries.orEmpty a.normalize.resources) (Entries.orEmpty b.normalize.resources) := by
  unfold normalize
  rw [Resource.orEmpty_sortedChildren?, Resource.orEmpty_sortedChildren?]
  refine ((Entries.Reordered.orEmpty h.resources).mapValues fun e _ r hr => ?_).sortByKey
  rw [Resource.orEmpty_methods_sorted, Resource.orEmpty_methods_sorted]
  obtain ⟨hm, _⟩ := hr
  exact (Entries.Reordered.orEmpty hm).sortByKey

end Description

/-! ## Templates -/

namespace TemplateContext

variable {a b : Description} (h : a.Reordered b) (preferred : Bool)
include h

theorem calls_eq_of_reordered :
    calls ⟨a.normalize, preferred⟩ = calls ⟨b.normalize, preferred⟩ := by
  have hname : a.normalize.name = b.normalize.name :=
    (congrArg Description.name h.rest_normalize :)
  rw [calls, calls, List.flatMap_def, List.flatMap_def,
    h.resources_normalize.map_eq fun name r r' hr => ?_]
  simp only [List.flatMap_def]
  refine congrArg _ (hr.map_eq fun key m m' hm => ?_)
  have hdescription : m.description = m'.description := (congrArg Method.description hm.rest :)
  simp only [callLines, hname, hdescription]

theorem readme_eq_of_reordered :
    readme ⟨a.normalize, preferred⟩ = readme ⟨b.normalize, preferred⟩ := by
  have hr := h.rest_normalize
  have hi : introduction ⟨a.normalize, preferred⟩ = introduction ⟨b.normalize, preferred⟩ :=
    (congrArg (fun api => introduction ⟨api, preferred⟩) hr :)
  have hn : installation ⟨a.normalize, preferred⟩ = installation ⟨b.normalize, preferred⟩ :=
    (congrArg (fun api => installation ⟨api, preferred⟩) hr :)
  have hu : usage ⟨a.normalize, preferred⟩ = usage ⟨b.normalize, preferred⟩ :=
    (congrArg (fun api => usage ⟨api, preferred⟩) hr :)
  have ht : a.normalize.displayTitle = b.normalize.displayTitle :=
    (congrArg Description.displayTitle hr :)
  have hs : a.normalize.scopes = b.normalize.scopes := by
    rw [Description.scopes_normalize, Description.scopes_normalize, h.scopes.sortByKey_eq]
  unfold readme authentication resourceUsage
  simp only [hi, hn, hu, ht, hs, calls_eq_of_reordered h]

theorem compilerSettings_eq_of_reordered :
    compilerSettings ⟨a.normalize, preferred⟩ = compilerSettings ⟨b.normalize, preferred⟩ :=
  (congrArg (fun api => compilerSettings ⟨api, preferred⟩) h.rest_normalize :)

end TemplateContext

/-! ## All files -/

/-- Descriptions that are the same up to the order of keys have the same declarations and the same
usage stub, or the same faults in their place, and once they are normalized the same text for each
bundled template. -/
theorem generated_eq_of_reordered {a b : Description} (h : a.Reordered b) :
    (∀ options, Declarations.render a options = Declarations.render b options) ∧
      Stub.render a = Stub.render b ∧
      ∀ template ∈ TemplateSet.bundled, ∀ preferred, ∃ text,
        template.2.render ⟨a.normalize, preferred⟩ = .ok text ∧
          template.2.render ⟨b.normalize, preferred⟩ = .ok text := by
  refine ⟨Declarations.render_eq_of_reordered h, Stub.render_eq_of_reordered h, ?_⟩
  intro template ht preferred
  simp only [TemplateSet.bundled, List.mem_cons, List.not_mem_nil, or_false] at ht
  rcases ht with rfl | rfl | rfl
  · exact ⟨_, rfl, congrArg Except.ok (TemplateContext.readme_eq_of_reordered h preferred).symm⟩
  · exact ⟨_, rfl,
      congrArg Except.ok (TemplateContext.compilerSettings_eq_of_reordered h preferred).symm⟩
  · exact ⟨_, rfl, rfl⟩

/-! One API, described with its maps in one order and in the other. -/

namespace Shop

def text : Schema := { Schema.blank with type := some "string" }

def item (properties : Entries Schema) : Schema :=
  { Schema.blank with type := some "object", properties := some properties }

def list (parameters : Entries Schema) : Method :=
  { Method.blank with id := some "shop.items.list", parameters := some parameters }

def api (schemas : Entries Schema) (scopes : Entries Scope) (resources : Entries Resource) :
    Description :=
  { Description.blank "shop" "v1" with
    auth := some ⟨some ⟨some scopes⟩⟩
    schemas := some schemas
    resources := some resources }

def forwards : Description :=
  api [("Item", item [("name", text), ("price", text)]), ("Name", text)]
    [("read", ⟨none⟩), ("write", ⟨none⟩)]
    [("items", ⟨some [("list", list [("after", text), ("first", text)])], none⟩),
      ("orders", ⟨none, none⟩)]

def backwards : Description :=
  api [("Name", text), ("Item", item [("price", text), ("name", text)])]
    [("write", ⟨none⟩), ("read", ⟨none⟩)]
    [("orders", ⟨none, none⟩),
      ("items", ⟨some [("list", list [("first", text), ("after", text)])], none⟩)]

theorem reordered : forwards.Reordered backwards := by
  have ht : text.Reordered text := .intro rfl .none .none .none
  have hi : (item [("name", text), ("price", text)]).Reordered
      (item [("price", text), ("name", text)]) :=
    .intro rfl .none (.some (.swap (by decide) ht ht)) .none
  have hl : (list [("after", text), ("first", text)]).Reordered
      (list [("first", text), ("after", text)]) := ⟨rfl, .some (.swap (by decide) ht ht)⟩
  exact {
    rest := rfl
    parameters := .none
    auth := .some (.some (.some (.swap (by decide) rfl rfl)))
    schemas := .some (.swap (by decide) hi ht)
    methods := .none
    resources := .some (.swap (by decide) (.intro (.some (.single hl)) .none)
      (.intro .none .none)) }

theorem generated_eq :
    forwards.Reordered backwards ∧
      (∀ options, Declarations.render forwards options = Declarations.render backwards options) ∧
      Stub.render forwards = Stub.render backwards ∧
      ∀ template ∈ TemplateSet.bundled, ∀ preferred, ∃ text,
        template.2.render ⟨forwards.normalize, preferred⟩ = .ok text ∧
          template.2.render ⟨backwards.normalize, preferred⟩ = .ok text :=
  ⟨reordered, generated_eq_of_reordered reordered⟩

end Shop

end ApiTypings
