import ApiTypings.Proofs.ResolvedPaths
import ApiTypings.Proofs.TargetDirectories
import Mathlib.Algebra.Order.BigOperators.Group.List
import Mathlib.Algebra.Order.Group.Nat

/-! # Packages inside the output

Name and version become part of a path as they are, so that either of them may lead out of the
output directory. A package stays inside whatever the output directory is exactly if the path of its
stub, the longest one that its name and version make up, is relative and never goes up further than
it has gone down. -/

namespace ApiTypings

open ApiTypings.Path (IsName)

/-! ## Names -/

namespace Path

theorem isAbsolute_ofString_of_head {s : String} {c : Char} {rest : List Char}
    (h : s.toList = c :: rest) (hc : c ≠ '/') : (ofString s).isAbsolute = false := by
  unfold isAbsolute ofString
  rw [h]
  unfold rootOf
  split <;> simp_all

/-- There is a name that is none of some names. -/
theorem exists_fresh (names : List String) : ∃ fresh, IsName fresh ∧ fresh ∉ names := by
  let n := (names.map String.length).sum
  have hl : (String.ofList (List.replicate (n + 1) 'o')).toList = 'o' :: List.replicate n 'o' := by
    rw [String.toList_ofList, List.replicate_succ]
  refine ⟨String.ofList (List.replicate (n + 1) 'o'), isName_of_head hl (by decide) ?_, ?_⟩
  · rw [hl, ← List.replicate_succ]
    simp
  · intro hm
    have hle := List.le_sum_of_mem (List.mem_map_of_mem (f := String.length) hm)
    rw [String.length_ofList, List.length_replicate] at hle
    omega

end Path

/-! ## The files of a package -/

namespace Package

variable {api : Description} {preferred : Bool} {path : Path}

theorem isAbsolute_stubName (api : Description) :
    (Path.ofString (stubName api)).isAbsolute = false :=
  Path.isAbsolute_ofString_of_head (toList_stubName api) (by decide)

/-- The names under which the files of a package are written. -/
def fileNames (api : Description) : List String :=
  declarationsName :: stubName api :: Entries.keys TemplateSet.standardFiles

/-- The paths of a package's files. -/
def layout (output : Path) (api : Description) (preferred : Bool) : List Path :=
  (fileNames api).map (directory output api.name (versionDirectory api preferred)).child

/-- The stub as seen from the output directory. -/
def stubPath (api : Description) (preferred : Bool) : Path :=
  (directory .here api.name (versionDirectory api preferred)).child (stubName api)

/-- The path that name and version make up is relative and never leads out of where it starts. -/
structure KeepsInside (api : Description) (preferred : Bool) : Prop where
  relative : (stubPath api preferred).isAbsolute = false
  inward : Location.Inward (stubPath api preferred).parts

instance (api : Description) (preferred : Bool) : Decidable (KeepsInside api preferred) :=
  decidable_of_iff ((stubPath api preferred).isAbsolute = false ∧
    Location.Inward (stubPath api preferred).parts) ⟨fun ⟨h, hi⟩ => ⟨h, hi⟩, fun ⟨h, hi⟩ => ⟨h, hi⟩⟩

theorem directory_eq_join (output : Path) (name : String) (version : Option String) :
    directory output name version = output.join (directory .here name version) := by
  unfold directory
  have hshared : output.child (Naming.packageName name) =
      output.join (Path.here.child (Naming.packageName name)) := by
    rw [Path.child, Path.child, Path.here_join]
  cases version with
  | none => exact hshared
  | some version =>
    dsimp only
    rw [hshared, Path.child_eq_join]

/-- A package is laid out the same way below any output directory. -/
theorem layout_eq_join (output : Path) (api : Description) (preferred : Bool) :
    layout output api preferred = (layout .here api preferred).map output.join := by
  rw [layout, layout, List.map_map]
  refine List.map_congr_left fun name _ => ?_
  rw [directory_eq_join, Path.child_eq_join, Function.comp_apply]

theorem stubPath_mem (api : Description) (preferred : Bool) :
    stubPath api preferred ∈ layout .here api preferred :=
  List.mem_map_of_mem (.tail _ (.head _))

/-- Every file of a package has a name of its own at the end of its path, below what the stub and
the file have in common. -/
theorem parts_of_layout (h : KeepsInside api preferred)
    (hp : path ∈ layout .here api preferred) :
    path.isAbsolute = false ∧ ∃ names last, path.parts = names ++ [last] ∧ last ≠ ".." ∧
      Location.Inward names := by
  have hjoin : stubPath api preferred =
      ⟨(directory .here api.name (versionDirectory api preferred)).root,
        (directory .here api.name (versionDirectory api preferred)).parts ++
          (Path.ofString (stubName api)).parts⟩ := by
    rw [stubPath, Path.child, Path.join, isAbsolute_stubName, if_neg Bool.false_ne_true]
  have hstub : path = stubPath api preferred ∨ ∃ file ∈ Attempt.fixedNames,
      path = (directory .here api.name (versionDirectory api preferred)).child file := by
    obtain ⟨file, hf, rfl⟩ := List.mem_map.mp hp
    rcases List.mem_cons.mp hf with rfl | hf
    · exact .inr ⟨_, .head _, rfl⟩
    · rcases List.mem_cons.mp hf with rfl | hf
      · exact .inl rfl
      · exact .inr ⟨file, .tail _ hf, rfl⟩
  rcases hstub with rfl | ⟨file, hf, rfl⟩
  · have htext : (stubName api).toList =
        ("gapi.client.".toList ++ api.name.toList) ++ "-tests.ts".toList := toList_stubName api
    obtain ⟨last, hlast, hsuffix⟩ := Path.getLast?_child
      (directory .here api.name (versionDirectory api preferred)) htext (by decide) (by decide)
    obtain ⟨names, hn⟩ := List.getLast?_eq_some_iff.mp hlast
    refine ⟨h.relative, names, last, hn, ?_, h.inward.of_prefix (hn ▸ List.prefix_append ..)⟩
    rintro rfl
    exact absurd hsuffix (by decide)
  · have hname := (Attempt.fixedNames_plain file hf).1
    have hrelative := h.relative
    have hinward := h.inward
    rw [hjoin] at hrelative hinward
    rw [Path.child_of_isName _ hname]
    exact ⟨hrelative, _, file, rfl, hname.2.2.1, hinward.of_prefix (List.prefix_append ..)⟩

theorem strictlyBelow_of_keepsInside (h : KeepsInside api preferred)
    (hp : path ∈ layout .here api preferred) (base : Location) :
    Location.StrictlyBelow base (path.resolve base) := by
  obtain ⟨hrelative, names, last, hparts, hlast, hinward⟩ := parts_of_layout h hp
  rw [Path.resolve_of_relative hrelative, hparts, Location.follow_concat hlast,
    Location.strictlyBelow_concat_iff]
  have hfollow := @Location.prefix_follow base [] names hinward
  rwa [List.append_nil] at hfollow

/-- A directory whose name occurs nowhere in the path tells whether the path leaves it. -/
theorem keepsInside_of_fresh {fresh : String} (hf : fresh ∉ (stubPath api preferred).parts)
    (h : [fresh] <+: (stubPath api preferred).resolve [fresh]) : KeepsInside api preferred := by
  have hrelative : (stubPath api preferred).isAbsolute = false := by
    refine Bool.eq_false_iff.mpr fun habsolute => ?_
    rw [Path.resolve, if_pos habsolute] at h
    rcases Location.mem_follow (h.subset List.mem_cons_self) with hm | hm
    · cases hm
    · exact hf hm
  rw [Path.resolve_of_relative hrelative] at h
  exact ⟨hrelative, @Location.staysWithin_of_prefix_follow [] _ fresh hf h⟩

/-- All files of a package are inside the output directory, wherever that is, exactly if name and
version make up a path that keeps inside. -/
theorem layout_inside_iff :
    (∀ (output : String) (start : Location),
      ∀ path ∈ layout (Path.ofString output) api preferred,
        Location.StrictlyBelow ((Path.ofString output).resolve start) (path.resolve start)) ↔
      KeepsInside api preferred := by
  constructor
  · intro h
    obtain ⟨fresh, hname, hf⟩ := Path.exists_fresh (stubPath api preferred).parts
    have houtput : (Path.ofString fresh).resolve [] = [fresh] := by
      rw [Path.ofString_of_isName hname]
      exact Location.follow_of_not_mem (by simpa using hname.2.2.1.symm)
    refine keepsInside_of_fresh hf ?_
    have hstub := h fresh [] ((Path.ofString fresh).join (stubPath api preferred)) <| by
      rw [layout_eq_join]
      exact List.mem_map_of_mem (stubPath_mem api preferred)
    rw [Path.resolve_join, houtput] at hstub
    exact hstub.1
  · intro h output start path hp
    rw [layout_eq_join] at hp
    obtain ⟨relative, hr, rfl⟩ := List.mem_map.mp hp
    rw [Path.resolve_join]
    exact strictlyBelow_of_keepsInside h hr _

end Package

/-! ## What processing writes -/

namespace Workspace

/-- A file that is new or differs is at one of the paths that have been written. -/
theorem SavedTo.file_cases {before after : Workspace} {paths : List Path}
    (h : before.SavedTo after paths) {l : Location} {content : List UInt8}
    (hf : after.tree.node? l = some (.file content)) :
    before.tree.node? l = some (.file content) ∨
      ∃ path ∈ paths, l = path.resolve before.directory := by
  obtain ⟨written, hlocated, hw⟩ := h
  by_cases hl : l ∈ written.map Prod.fst
  · obtain ⟨w, hm, rfl⟩ := List.mem_map.mp hl
    obtain ⟨path, hp, hlocate⟩ := Outcomes.exists_right_of_mem hlocated.flip hm
    refine .inr ⟨path, hp, ?_⟩
    rw [← hw.others.directory]
    exact locate_eq_resolve hlocate
  · exact .inl ((hw.file_iff hl).mp hf)

end Workspace

namespace Generator

variable {g : Generator} {p after : Progress}

/-- The files that are written for a description, one that was cut off among them, are those of its
package up to one that cannot be written. For every output directory they are inside of it exactly
if name and version make up a path that keeps inside, and then no file outside is new or differs. -/
theorem process_inside_iff {engine : TemplateEngine} {templates : Workspace} {own : Option String}
    {description : Description} {url : String} {preferred : Bool}
    {result : Except Failure (Option (List Path))}
    (loaded : TemplateSet.load engine templates own TemplateSet.standardFiles = .ok g.templates)
    (found : g.loader.description p.workspace url = .ok description)
    (h : g.process p url preferred = (after, result)) :
    let api := description.normalize
    (∃ paths : WrittenPaths, paths.all <+: Package.layout g.output api preferred ∧
      p.Writes after paths.whole paths.all ∧
      ∀ outcome, result = .ok outcome → paths = ⟨outcome.getD [], none⟩) ∧
    ((∀ (output : String) (start : Location),
        ∀ path ∈ Package.layout (Path.ofString output) api preferred,
          Location.StrictlyBelow ((Path.ofString output).resolve start) (path.resolve start)) ↔
      Package.KeepsInside api preferred) ∧
    (Package.KeepsInside api preferred → ∀ l content,
      after.workspace.tree.node? l = some (.file content) →
        p.workspace.tree.node? l = some (.file content) ∨
          Location.StrictlyBelow (g.output.resolve p.workspace.directory) l) := by
  intro api
  obtain ⟨hw, hr⟩ := process_writes_of_loaded found h
  have hinitial : (g.writtenPaths p.workspace api url preferred).all <+:
      Package.layout g.output api preferred := writtenPaths_initial url preferred loaded
  refine ⟨⟨_, hinitial, hw, hr⟩, Package.layout_inside_iff, fun hinside l content hl => ?_⟩
  rcases hw.workspace.file_cases hl with hs | ⟨path, hp, rfl⟩
  · exact .inl hs
  · exact .inr (Package.layout_inside_iff.mpr hinside g.settings.output _ path
      (hinitial.subset hp))

end Generator

/-! Versions with steps up in them: one of them takes back what it has gone down, the other leads
out of the output directory. -/

namespace Climbs

open Editions (generator save)

def inner : String := "\x7b\"name\":\"a\",\"version\":\"b/../c\"\x7d"

def outer : String := "\x7b\"name\":\"a\",\"version\":\"../../b\"\x7d"

def start (document : String) : Progress :=
  .start ⟨⟨[(["a.json"], .file (Utf8.encode document))]⟩, []⟩

theorem inner_parsed : Json.parse inner.toList =
    .ok (.object [("name", .string "a"), ("version", .string "b/../c")]) := by cbv

theorem outer_parsed : Json.parse outer.toList =
    .ok (.object [("name", .string "a"), ("version", .string "../../b")]) := by cbv

theorem inner_loaded :
    generator.loader.description (start inner).workspace "a.json" = .ok (Editions.api "b/../c") :=
  Editions.loaded inner_parsed (by decide) (by decide +kernel) (by decide +kernel)

theorem outer_loaded :
    generator.loader.description (start outer).workspace "a.json" = .ok (Editions.api "../../b") :=
  Editions.loaded outer_parsed (by decide) (by decide +kernel) (by decide +kernel)

/-- All five files are in the directory of the version. -/
theorem inner_kept_inside :
    ∃ after paths, generator.process (start inner) "a.json" false = (after, .ok (some paths)) ∧
      paths.length = 5 ∧ ∀ l content, after.workspace.tree.node? l = some (.file content) →
        l = ["a.json"] ∨ Location.StrictlyBelow ["out"] l := by
  obtain ⟨paths, hlength, h⟩ := @Editions.processed (start inner) "b/../c" "a.json" false
    inner_loaded (by decide +kernel)
  have hinside : Package.KeepsInside (Editions.api "b/../c").normalize false := by decide +kernel
  obtain ⟨_, _, hfiles⟩ := Generator.process_inside_iff Editions.templates_loaded inner_loaded h
  refine ⟨_, paths, h, hlength, fun l content hl => ?_⟩
  rcases hfiles hinside l content hl with hs | hb
  · -- Only the document was there before.
    refine .inl ?_
    cases l with
    | nil => cases hs
    | cons name rest =>
      have hlookup : [(["a.json"], Node.file (Utf8.encode (inner)))].lookup
        (name :: rest) = some (.file content) := hs
      rw [FileTree.lookup_node_cons] at hlookup
      split at hlookup
      next he => exact he
      next => cases hlookup
  · exact .inr hb

/-- The declarations are written beside the output directory. -/
theorem outer_written_outside :
    ∃ after paths, generator.process (start outer) "a.json" false = (after, .ok (some paths)) ∧
      ∃ path ∈ paths, path = ⟨"", ["out", "gapi.client.a", "..", "..", "b", "index.d.ts"]⟩ ∧
        ¬ Location.StrictlyBelow (generator.output.resolve (start outer).workspace.directory)
          (path.resolve (start outer).workspace.directory) := by
  have hs : (save (start outer) "../../b" "a.json" false).2.map (fun paths =>
      decide (⟨"", ["out", "gapi.client.a", "..", "..", "b", "index.d.ts"]⟩ ∈ paths)) =
      .ok true := by decide +kernel
  obtain ⟨paths, hpaths, hm⟩ := Outcomes.map_eq_ok_iff.mp hs
  exact ⟨_, paths, Editions.processed_of_saved outer_loaded hpaths, _, of_decide_eq_true hm, rfl,
    by decide +kernel⟩

end Climbs

end ApiTypings
