import ApiTypings.Proofs.StableSources
import ApiTypings.Proofs.TargetDirectories

/-! # Descriptions in any order

Nothing that is kept from one description to the next plays a part in what is written, so that a run
writes for each of its calls what that call writes by itself. Where no two calls write to one place,
and none writes what another reads, neither the order of the calls nor their repetition tells in the
files. -/

namespace ApiTypings

/-! ## Files at locations -/

namespace Workspace

variable {start one two : Workspace} {written others : List (Location × List UInt8)}

/-- Files are alike where the same has been written last. -/
theorem WroteAt.files_alike (h : start.WroteAt one written) (h' : start.WroteAt two others)
    (hs : ∀ l, written.reverse.lookup l = others.reverse.lookup l) (l : Location)
    (content : List UInt8) :
    one.tree.node? l = some (.file content) ↔ two.tree.node? l = some (.file content) := by
  cases hl : written.reverse.lookup l with
  | some octets => rw [h.contents l octets hl, h'.contents l octets (hs l ▸ hl)]
  | none =>
    rw [h.file_iff (lookup_reverse_eq_none_iff.mp hl),
      h'.file_iff (lookup_reverse_eq_none_iff.mp (hs l ▸ hl))]

/-- Where only one of some lists has a location, what is last there is what is last in this list. -/
theorem lookup_reverse_flatMap {α : Type} {f : α → List (Location × List UInt8)} {xs : List α} {x : α}
    {l : Location} (hx : x ∈ xs) (hl : l ∈ (f x).map Prod.fst)
    (hd : ∀ y ∈ xs, l ∈ (f y).map Prod.fst → y = x) :
    (xs.flatMap f).reverse.lookup l = (f x).reverse.lookup l := by
  induction xs with
  | nil => cases hx
  | cons y rest ih =>
    have hrest : ∀ z ∈ rest, l ∈ (f z).map Prod.fst → z = x := fun z hz =>
      hd z (List.mem_cons_of_mem _ hz)
    rw [List.flatMap_cons, List.reverse_append, List.lookup_append]
    by_cases hm : x ∈ rest
    · rw [ih hm hrest]
      cases hlast : (f x).reverse.lookup l with
      | some octets => rfl
      | none => exact absurd hl (lookup_reverse_eq_none_iff.mp hlast)
    · have hnone : (rest.flatMap f).reverse.lookup l = none := by
        refine lookup_reverse_eq_none_iff.mpr fun hin => ?_
        rw [List.map_flatMap] at hin
        obtain ⟨z, hz, hlz⟩ := List.mem_flatMap.mp hin
        exact hm (hrest z hz hlz ▸ hz)
      rw [hnone, Option.none_or]
      rcases List.mem_cons.mp hx with rfl | hx
      · rfl
      · exact absurd hx hm

theorem lookup_reverse_flatMap_of_not_mem {α : Type} {f : α → List (Location × List UInt8)}
    {xs : List α} {l : Location} (h : ∀ x ∈ xs, l ∉ (f x).map Prod.fst) :
    (xs.flatMap f).reverse.lookup l = none := by
  refine lookup_reverse_eq_none_iff.mpr fun hin => ?_
  rw [List.map_flatMap] at hin
  obtain ⟨x, hx, hl⟩ := List.mem_flatMap.mp hin
  exact h x hx hl

end Workspace

/-- Files that are saved in turn are where their names lead. -/
theorem Workspace.SavedIn.wroteAt {before after : Workspace} {directory : Path}
    {files : Entries (List UInt8)} (h : before.SavedIn after directory files) :
    before.WroteAt after
      (files.map fun e => ((directory.child e.1).resolve before.directory, e.2)) := by
  obtain ⟨written, hf, hw⟩ := h
  have hmap : written.map id =
      files.map fun e => ((directory.child e.1).resolve before.directory, e.2) := by
    refine Outcomes.map_eq_of_forall₂ (hf.imp fun e w hl => Prod.ext ?_ hl.2)
    rw [← hw.others.directory]
    exact locate_eq_resolve hl.1
  rwa [← hmap, List.map_id]

/-! ## Calls -/

/-- A description to process: where it is found, and whether it stands for its API. -/
structure Call where
  url : String
  preferred : Bool
deriving DecidableEq, Repr

/-- A package as it is listed, and its files where they are written. -/
structure Delivery where
  label : String
  contents : List (Location × List UInt8)

namespace Generator

variable {g : Generator} {p after : Progress} {w : Workspace} {c : Call} {calls run : List Call}

def packageDirectory (g : Generator) (api : Description) (preferred : Bool) : Path :=
  Package.directory g.output api.name (Package.versionDirectory api preferred)

/-- The files of a package that have a text, where they are written. -/
def placed (g : Generator) (w : Workspace) (api : Description) (preferred : Bool)
    (code : Entries String) : List (Location × List UInt8) :=
  (Package.files g.templates api preferred code).filterMap fun e =>
    e.2.toOption.map fun text =>
      (((g.packageDirectory api preferred).child e.1).resolve w.directory, Utf8.encode text)

theorem placed_of_texts {api : Description} {preferred : Bool} {code texts : Entries String}
    (h : Package.files g.templates api preferred code = texts.mapValues .ok) :
    g.placed w api preferred code = (texts.mapValues Utf8.encode).map fun e =>
      (((g.packageDirectory api preferred).child e.1).resolve w.directory, e.2) := by
  rw [placed, h, Entries.mapValues, Entries.mapValues, List.filterMap_map, List.map_map,
    ← List.filterMap_eq_map]
  rfl

/-- The package of a call, unless its description is skipped. -/
def delivery? (g : Generator) (w : Workspace) (c : Call) : Option Delivery :=
  match g.loader.description w c.url with
  | .error _ => none
  | .ok description =>
    let api := description.normalize
    match (Package.code api (g.settings.declarationOptions c.url)).2 with
    | .error _ => none
    | .ok code =>
      some ⟨Package.label api, g.placed w api c.preferred code⟩

def contents (g : Generator) (w : Workspace) (c : Call) : List (Location × List UInt8) :=
  ((g.delivery? w c).map Delivery.contents).getD []

/-- Where the files of a call are written. -/
def targets (g : Generator) (w : Workspace) (c : Call) : List Location :=
  (g.contents w c).map Prod.fst

def label? (g : Generator) (w : Workspace) (c : Call) : Option String :=
  (g.delivery? w c).map Delivery.label

/-- The address of a call whose description is skipped. -/
def skip? (g : Generator) (w : Workspace) (c : Call) : Option String :=
  match g.delivery? w c with
  | some _ => none
  | none => some c.url

/-- What a call comes to depends on the workspace alone: its files are written, and it is listed or
skipped. -/
structure Delivers (g : Generator) (p after : Progress) (c : Call) : Prop where
  wrote : p.workspace.WroteAt after.workspace (g.contents p.workspace c)
  generated : after.generated = p.generated ++ (g.label? p.workspace c).toList
  skipped : after.skipped = p.skipped ++ (g.skip? p.workspace c).toList

theorem delivers_of_skipped (hd : g.delivery? p.workspace c = none) (h : Skipped p after c.url) :
    Delivers g p after c := by
  constructor
  case wrote =>
    rw [contents, hd, h.workspace]
    exact .of_extends (.refl _)
  case generated => rw [label?, hd, h.generated]; exact (List.append_nil _).symm
  case skipped => rw [skip?, hd, h.skipped]; rfl

theorem delivery?_of_code {description : Description} {records : List LogRecord}
    {code : Entries String} (hl : g.loader.description w c.url = .ok description)
    (hc : Package.code description.normalize (g.settings.declarationOptions c.url) =
      (records, .ok code)) :
    let api := description.normalize
    g.delivery? w c = some ⟨Package.label api, g.placed w api c.preferred code⟩ := by
  simp only [delivery?, hl, hc]

/-- The files of a call are those of its package. -/
theorem targets_of_rendered {description : Description} {declarations stub : String}
    {filled : Entries String}
    (hl : g.loader.description w c.url = .ok description)
    (hd : Declarations.render description.normalize (g.settings.declarationOptions c.url) =
      .ok declarations)
    (hs : Stub.render description.normalize = .ok stub)
    (ht : g.templates.texts ⟨description.normalize, c.preferred⟩ = filled.mapValues .ok) :
    let api := description.normalize
    g.targets w c =
      (Package.declarationsName :: Package.stubName api :: Entries.keys g.templates).map fun name =>
        ((g.packageDirectory api c.preferred).child name).resolve w.directory := by
  obtain ⟨records, hc⟩ : ∃ records,
      Package.code description.normalize (g.settings.declarationOptions c.url) =
        (records, .ok [(Package.declarationsName, declarations),
          (Package.stubName description.normalize, stub)]) :=
    ⟨_, by simp only [Package.code, hd, hs]; rfl⟩
  have hfiles := @Package.files_of_texts g.templates description.normalize c.preferred
    [(Package.declarationsName, declarations), (Package.stubName description.normalize, stub)] _ ht
  dsimp only
  rw [targets, contents, delivery?_of_code hl hc, Option.map_some, Option.getD_some,
    placed_of_texts hfiles, ← Package.keys_files c.preferred declarations stub, hfiles,
    Entries.keys_mapValues, List.map_map, Entries.mapValues, List.map_map, Entries.keys,
    List.map_map]
  rfl

/-- What has been done before a call plays no part in what it delivers but for the files. -/
theorem process_delivers {outcome : Option (List Path)}
    (h : g.process p c.url c.preferred = (after, .ok outcome)) : Delivers g p after c := by
  cases hl : g.loader.description p.workspace c.url with
  | error f =>
    rw [process_of_error hl] at h
    cases h
    exact delivers_of_skipped (by rw [delivery?, hl]) ⟨rfl, rfl, rfl⟩
  | ok description =>
    have hw := h
    rw [process_of_loaded hl] at hw
    cases writePackage_packaging hw with
    | faulty hc =>
      exact delivers_of_skipped (by simp only [delivery?, hl, hc]) (skipped_of_process h)
    | @saved records declarations stub _ _ hc hsave =>
      have hdelivery := delivery?_of_code hl hc
      have hpackaged := packaged_of_loaded hl h
      have hs := Progress.saveFiles_saves (((p.report (Loader.records c.url)).report
        [announcement description.normalize]).report records) g.medium
        (g.packageDirectory description.normalize c.preferred)
        (Package.files g.templates description.normalize c.preferred
          [(Package.declarationsName, declarations),
            (Package.stubName description.normalize, stub)])
      rw [packageDirectory, hsave] at hs
      constructor
      case wrote =>
        obtain ⟨hfiles, hpart, _⟩ := hs.result
        rw [contents, hdelivery, Option.map_some, Option.getD_some, placed_of_texts hfiles]
        have hw := hs.workspace.wroteAt
        rwa [Saved.contents, hpart, Option.toList_none, List.append_nil] at hw
      case generated =>
        rw [label?, hdelivery]
        exact hpackaged.generated
      case skipped =>
        rw [skip?, hdelivery]
        exact hpackaged.skipped.trans (List.append_nil _).symm

/-! ## Stable calls -/

theorem delivery?_stable {written : List (Location × List UInt8)} {before after : Workspace}
    (h : before.WroteAt after written) (hg : before.tree.Grounded)
    (hs : Url.isWebAddress c.url = false →
      g.loader.Stable before c.url (written.map Prod.fst)) :
    g.delivery? after c = g.delivery? before c := by
  have hiff : ∀ description, g.loader.description after c.url = .ok description ↔
      g.loader.description before c.url = .ok description := fun _ => Loader.description_iff h hg hs
  unfold delivery? placed
  rw [h.others.directory]
  cases ha : g.loader.description after c.url with
  | ok description => rw [(hiff description).mp ha]
  | error f =>
    cases hb : g.loader.description before c.url with
    | error f => rfl
    | ok description => rw [(hiff description).mpr hb] at ha; cases ha

/-- The calls are processed one after another, and neither a file nor a template fails. -/
inductive Completes (g : Generator) : Progress → List Call → Progress → Prop
  | done {p : Progress} : Completes g p [] p
  | call {p next after : Progress} {c : Call} {rest : List Call} {outcome : Option (List Path)} :
      g.process p c.url c.preferred = (next, .ok outcome) → Completes g next rest after →
      Completes g p (c :: rest) after

/-- No call writes what a call reads, no two calls write to one place, and the sources go up only
from places that are there. -/
structure Independent (g : Generator) (w : Workspace) (calls : List Call) : Prop where
  grounded : w.tree.Grounded
  settled : ∀ c ∈ calls, Url.isWebAddress c.url = false → w.Settled (g.loader.path c.url)
  unwritten : ∀ c ∈ calls, ∀ d ∈ calls, Url.isWebAddress c.url = false →
    (g.loader.path c.url).resolve w.directory ∉ g.targets w d
  apart : ∀ c ∈ calls, ∀ d ∈ calls, c ≠ d → (g.targets w c).Disjoint (g.targets w d)

/-- A run from where some calls have written delivers for each of its calls what that call delivers
from the start. -/
theorem Completes.delivers {before : List Call} (hi : g.Independent w calls)
    (hp : w.WroteAt p.workspace (before.flatMap (g.contents w))) (hb : before ⊆ calls)
    (h : Completes g p run after) (hr : run ⊆ calls) :
    w.WroteAt after.workspace ((before ++ run).flatMap (g.contents w)) ∧
      after.generated = p.generated ++ run.flatMap (fun c => (g.label? w c).toList) ∧
      after.skipped = p.skipped ++ run.flatMap (fun c => (g.skip? w c).toList) := by
  induction h generalizing before with
  | done =>
    rw [List.append_nil]
    exact ⟨hp, (List.append_nil _).symm, (List.append_nil _).symm⟩
  | @call p next after c rest outcome hprocess _ ih =>
    have hc : c ∈ calls := hr List.mem_cons_self
    have hsame : g.delivery? p.workspace c = g.delivery? w c := by
      refine delivery?_stable hp hi.grounded fun hweb => ⟨hi.settled c hc hweb, ?_⟩
      rw [List.map_flatMap]
      intro hm
      obtain ⟨d, hd, hl⟩ := List.mem_flatMap.mp hm
      exact hi.unwritten c hc d (hb hd) hweb hl
    obtain ⟨hwrote, hgenerated, hskipped⟩ := process_delivers hprocess
    rw [contents, hsame] at hwrote
    rw [label?, hsame] at hgenerated
    rw [skip?, hsame] at hskipped
    have hnext : w.WroteAt next.workspace ((before ++ [c]).flatMap (g.contents w)) := by
      rw [List.flatMap_append, List.flatMap_singleton]
      exact hp.append hwrote
    have hsub : before ++ [c] ⊆ calls := fun d hd =>
      (List.mem_append.mp hd).elim (fun hd => hb hd) fun hd => List.mem_singleton.mp hd ▸ hc
    obtain ⟨hw, hg, hs⟩ := ih hnext hsub fun d hd => hr (List.mem_cons_of_mem _ hd)
    rw [List.append_assoc, List.singleton_append] at hw
    refine ⟨hw, ?_, ?_⟩
    · rw [hg, hgenerated, List.flatMap_cons, List.append_assoc]
      rfl
    · rw [hs, hskipped, List.flatMap_cons, List.append_assoc]
      rfl

/-- What is written last for some calls depends on which calls these are. -/
theorem Independent.lookup_eq {others : List Call} (hi : g.Independent w calls)
    (same : ∀ c, c ∈ others ↔ c ∈ calls) (l : Location) :
    (calls.flatMap (g.contents w)).reverse.lookup l =
      (others.flatMap (g.contents w)).reverse.lookup l := by
  by_cases hl : ∃ c ∈ calls, l ∈ g.targets w c
  · obtain ⟨c, hc, hl⟩ := hl
    have honly : ∀ d ∈ calls, l ∈ g.targets w d → d = c := fun d hd hld => by
      by_contra hne
      exact hi.apart d hd c hc hne hld hl
    rw [Workspace.lookup_reverse_flatMap hc hl honly,
      Workspace.lookup_reverse_flatMap ((same c).mpr hc) hl fun d hd => honly d ((same d).mp hd)]
  · rw [Workspace.lookup_reverse_flatMap_of_not_mem fun c hc hlc => hl ⟨c, hc, hlc⟩,
      Workspace.lookup_reverse_flatMap_of_not_mem fun c hc hlc => hl ⟨c, (same c).mp hc, hlc⟩]

/-- Independent calls that are all processed leave the same files in any order and however often
each of them is processed, and what is listed and what is skipped come in the order of the calls. -/
theorem completes_in_any_order {others : List Call} {start one two : Progress}
    (hi : g.Independent start.workspace calls) (same : ∀ c, c ∈ others ↔ c ∈ calls)
    (h : Completes g start calls one) (h' : Completes g start others two) :
    (∀ l content, one.workspace.tree.node? l = some (.file content) ↔
      two.workspace.tree.node? l = some (.file content)) ∧
    (calls.Perm others →
      one.generated.Perm two.generated ∧ one.skipped.Perm two.skipped) := by
  have hnone : start.workspace.WroteAt start.workspace
    (([] : List Call).flatMap (g.contents start.workspace)) := .of_extends (.refl _)
  obtain ⟨hw, hg, hs⟩ := h.delivers hi hnone (List.nil_subset _) fun c hc => hc
  obtain ⟨hw', hg', hs'⟩ := h'.delivers hi hnone (List.nil_subset _) fun c hc => (same c).mp hc
  refine ⟨hw.files_alike hw' (hi.lookup_eq same), fun hperm => ⟨?_, ?_⟩⟩
  · rw [hg, hg']
    exact (hperm.flatMap_right _).append_left _
  · rw [hs, hs']
    exact (hperm.flatMap_right _).append_left _

end Generator

/-! Two versions of one API, the second one beside the first or found on a way through the package
of the first. -/

namespace Orders

open Editions (generator api save)
open Generator (Completes)

def start : Progress := Editions.start false

/-- One of the two versions. -/
def version (second : Bool) : String := if second then "y" else "x"

def document (second : Bool) : String := if second then Editions.second else Editions.first

theorem parsed (second : Bool) : Json.parse (document second).toList =
    .ok (.object [("name", .string "a"), ("version", .string (version second))]) := by
  cases second
  · exact Editions.first_parsed
  · exact Editions.second_parsed

def next (p : Progress) (second : Bool) (c : Call) : Progress :=
  (save p (version second) c.url c.preferred).1.addGenerated
    (Package.label (api (version second)).normalize)

def last (p : Progress) : List (Bool × Call) → Progress
  | [] => p
  | (second, c) :: rest => last (next p second c) rest

/-- Every version is found where the call says, and all of its files are written. -/
def passes (p : Progress) : List (Bool × Call) → Bool
  | [] => true
  | (second, c) :: rest =>
    let here := generator.loader.base.join (Path.ofString c.url)
    !c.url.toList.contains ':' && p.workspace.contains here &&
      decide (p.workspace.readText here = .ok (document second).toList) &&
      decide ((save p (version second) c.url c.preferred).2.map List.length = .ok 5) &&
      passes (next p second c) rest

section

-- What saving one version comes to plays no part in how the calls follow each other.
attribute [local irreducible] save

theorem completes_of_passes {p : Progress} {versions : List (Bool × Call)}
    (h : passes p versions = true) :
    Completes generator p (versions.map Prod.snd) (last p versions) := by
  induction versions generalizing p with
  | nil => exact .done
  | cons e rest ih =>
    obtain ⟨second, c⟩ := e
    simp only [passes, Bool.and_eq_true, Bool.not_eq_true', List.contains_eq_mem,
      decide_eq_true_eq, decide_eq_false_iff_not] at h
    obtain ⟨⟨⟨⟨hweb, hfile⟩, htext⟩, hsaved⟩, hrest⟩ := h
    obtain ⟨_, _, hprocess⟩ :=
      Editions.processed (Editions.loaded (parsed second) hweb hfile htext) hsaved
    exact .call hprocess (ih hrest)

end

def x : Call := ⟨"x.json", true⟩

def y : Call := ⟨"y.json", false⟩

theorem loaded (second : Bool) (c : Call) (h : (second, c) ∈ [(false, x), (true, y)]) :
    generator.loader.description start.workspace c.url = .ok (api (version second)) := by
  rcases List.mem_pair.mp h with h | h <;> cases h <;>
    exact Editions.loaded (parsed _) (by decide) (by decide +kernel) (by decide +kernel)

def shared : Location := ["out", "gapi.client.a"]

def names : List String :=
  ["index.d.ts", "gapi.client.a-tests.ts", "readme.md", "tsconfig.json", "tslint.json"]

theorem targets_x :
    generator.targets start.workspace x = names.map fun name => shared ++ [name] := by
  rw [Generator.targets_of_rendered (loaded false x (.head _))
    (Editions.declarations_eq "x" "x.json") (Editions.stub_eq "x")
    (TemplateSet.texts_of_load Editions.templates_loaded _)]
  decide +kernel

theorem targets_y :
    generator.targets start.workspace y = names.map fun name => shared ++ ["y", name] := by
  rw [Generator.targets_of_rendered (loaded true y (.tail _ (.head _)))
    (Editions.declarations_eq "y" "y.json") (Editions.stub_eq "y")
    (TemplateSet.texts_of_load Editions.templates_loaded _)]
  decide +kernel

theorem targets_disjoint :
    (generator.targets start.workspace x).Disjoint (generator.targets start.workspace y) := by
  rw [targets_x, targets_y]
  intro l hx hy
  obtain ⟨name, _, rfl⟩ := List.mem_map.mp hx
  obtain ⟨other, _, he⟩ := List.mem_map.mp hy
  exact absurd (congrArg List.length he) (by simp)

theorem independent : generator.Independent start.workspace [x, y] := by
  constructor
  case grounded => exact FileTree.grounded_of_nodes (by decide +kernel)
  case settled =>
    intro c hc _
    refine Workspace.settled_of_not_mem ?_
    rcases List.mem_pair.mp hc with rfl | rfl <;> decide
  case unwritten =>
    intro c hc d hd _
    rcases List.mem_pair.mp hd with rfl | rfl
    · rw [targets_x]
      rcases List.mem_pair.mp hc with rfl | rfl <;> decide +kernel
    · rw [targets_y]
      rcases List.mem_pair.mp hc with rfl | rfl <;> decide +kernel
  case apart =>
    intro c hc d hd hne
    rcases List.mem_pair.mp hc with rfl | rfl <;> rcases List.mem_pair.mp hd with rfl | rfl
    · exact absurd rfl hne
    · exact targets_disjoint
    · exact targets_disjoint.symm
    · exact absurd rfl hne

/-- The two versions in either order. -/
theorem either_order :
    ∃ one two, Completes generator start [x, y] one ∧ Completes generator start [y, x] two ∧
      one.generated.Perm two.generated ∧ ∀ l content,
        one.workspace.tree.node? l = some (.file content) ↔
          two.workspace.tree.node? l = some (.file content) := by
  have h : Completes generator start [x, y] _ :=
    @completes_of_passes start [(false, x), (true, y)] (by decide +kernel)
  have h' : Completes generator start [y, x] _ :=
    @completes_of_passes start [(true, y), (false, x)] (by decide +kernel)
  obtain ⟨hfiles, hperm⟩ := Generator.completes_in_any_order independent (by simp [or_comm]) h h'
  exact ⟨_, _, h, h', (hperm (.swap ..)).1, hfiles⟩

/-! A way to the second version that goes through the package of the first. -/

def detour : Call := ⟨"out/gapi.client.a/../../y.json", false⟩

def missing : Failure :=
  .load detour.url
    (some ⟨.fileNotFound, "File not found: " ++ (generator.loader.path detour.url).text⟩)

theorem detour_missing :
    generator.loader.description start.workspace detour.url = .error missing := by
  have hweb : Url.isWebAddress detour.url = false := Url.isWebAddress_of_not_mem (by decide)
  have hfile : start.workspace.contains
      (generator.loader.base.join (Path.ofString detour.url)) = false := by decide +kernel
  rw [Loader.description, Loader.load]
  simp [Loader.read, hweb, Loader.fromFile, hfile, throw, throwThe, MonadExceptOf.throw, missing,
    Loader.path]

def skipped : Progress :=
  ((start.report (Loader.records detour.url)).report
    [.warning ("Could not process service " ++ detour.url ++ ": " ++ missing.message)]).addSkipped
      detour.url

theorem skipped_completes : Completes generator start [detour, x] (last skipped [(false, x)]) := by
  have h : Completes generator skipped [x] _ :=
    @completes_of_passes skipped [(false, x)] (by decide +kernel)
  exact .call (Generator.process_of_error detour_missing) h

/-- The first version has been written. -/
def passed : Progress := next start false x

theorem targets_detour :
    generator.targets passed.workspace detour = generator.targets start.workspace y := by
  rw [targets_y, Generator.targets_of_rendered (Editions.loaded (parsed true) (by decide)
    (by decide +kernel) (by decide +kernel)) (Editions.declarations_eq "y" detour.url)
    (Editions.stub_eq "y")
    (TemplateSet.texts_of_load Editions.templates_loaded _)]
  decide +kernel

/-- Neither version is written over the other or over a description, and yet the second one is
missing from the files if it comes first. -/
theorem missing_if_first :
    ∃ one two, Completes generator start [detour, x] one ∧
      Completes generator start [x, detour] two ∧ Completes generator start [x] passed ∧
      (generator.targets start.workspace x).Disjoint (generator.targets passed.workspace detour) ∧
      (∀ c ∈ [x, detour], ∀ l ∈ generator.targets start.workspace x ++
        generator.targets passed.workspace detour,
        (generator.loader.path c.url).resolve start.workspace.directory ≠ l) ∧
      one.generated = ["a:x"] ∧ two.generated = ["a:x", "a:y"] ∧
      one.workspace.tree.node? (shared ++ ["y", "index.d.ts"]) = none ∧
      two.workspace.tree.node? (shared ++ ["y", "index.d.ts"]) ≠ none := by
  have hboth : Completes generator start [x, detour] (last start [(false, x), (true, detour)]) :=
    @completes_of_passes start [(false, x), (true, detour)] (by decide +kernel)
  have hfirst : Completes generator start [x] (last start [(false, x)]) :=
    @completes_of_passes start [(false, x)] (by decide +kernel)
  refine ⟨_, _, skipped_completes, hboth, hfirst, ?_, ?_, ?_, ?_, ?_, ?_⟩
  · rw [targets_detour]
    exact targets_disjoint
  · rw [targets_detour, targets_x, targets_y]
    decide +kernel
  · decide +kernel
  · decide +kernel
  · decide +kernel
  · decide +kernel

end Orders

end ApiTypings
