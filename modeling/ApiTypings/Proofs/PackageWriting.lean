import ApiTypings.Generation
import ApiTypings.Proofs.DeclarationOutline
import ApiTypings.Proofs.FileTrees
import ApiTypings.Proofs.Outcomes
import ApiTypings.Proofs.ReorderedDescription
import ApiTypings.Proofs.StubCalls
import Mathlib.Data.List.Permutation

/-! # A description that is processed gives a whole package or nothing

All code of a package is rendered before the first of its files is written, so that whatever is
wrong with a description leaves the files as they were. What is written otherwise is one file after
another in one directory, and if none of them fails each is there at the end. -/

namespace ApiTypings

/-! ## Names of files -/

namespace Path

/-- One name of a path: it is not left out, leads nowhere else and has no further names in it. -/
def IsName (s : String) : Prop := s ≠ "" ∧ s ≠ "." ∧ s ≠ ".." ∧ '/' ∉ s.toList

instance (s : String) : Decidable (IsName s) := inferInstanceAs (Decidable (_ ∧ _ ∧ _ ∧ _))

theorem isName_of_head {s : String} {c : Char} {rest : List Char} (h : s.toList = c :: rest)
    (hc : c ≠ '.') (hs : '/' ∉ s.toList) : IsName s := by
  refine ⟨?_, ?_, ?_, hs⟩ <;> rintro rfl
  · cases h
  · exact hc (List.cons.inj h).1.symm
  · exact hc (List.cons.inj h).1.symm

theorem split_of_not_mem {cs : List Char} (h : '/' ∉ cs) : Text.split '/' cs = [cs] := by
  induction cs with
  | nil => rfl
  | cons c rest ih =>
    obtain ⟨hc, hr⟩ := not_or.mp (mt List.mem_cons.mpr h)
    rw [Text.split, ih hr, if_neg fun he => hc (eq_of_beq he).symm]
    rfl

theorem rootOf_of_not_mem {cs : List Char} (h : '/' ∉ cs) : rootOf cs = "" := by
  unfold rootOf
  split <;> simp_all

theorem ofString_of_isName {s : String} (h : IsName s) : ofString s = ⟨"", [s]⟩ := by
  obtain ⟨hn, hd, _, hs⟩ := h
  simp [ofString, split_of_not_mem hs, rootOf_of_not_mem hs, hn, hd]

theorem child_of_isName {name : String} (base : Path) (h : IsName name) :
    base.child name = ⟨base.root, base.parts ++ [name]⟩ := by
  rw [child, ofString_of_isName h]
  rfl

end Path

open ApiTypings.Path (IsName)

theorem Naming.toList_packageName (name : String) :
    (packageName name).toList = 'g' :: ("api.client.".toList ++ name.toList) := by
  simp [packageName]

theorem Naming.isName_packageName {name : String} (h : IsName name) :
    IsName (packageName name) := by
  refine Path.isName_of_head (toList_packageName name) (by decide) ?_
  simp [toList_packageName, h.2.2.2]

namespace Package

theorem toList_stubName (api : Description) :
    (stubName api).toList =
      'g' :: ("api.client.".toList ++ api.name.toList ++ "-tests.ts".toList) := by
  simp [stubName, Naming.toList_packageName]

theorem isName_stubName {api : Description} (h : IsName api.name) : IsName (stubName api) := by
  refine Path.isName_of_head (toList_stubName api) (by decide) ?_
  simp [toList_stubName, h.2.2.2]

/-- The directory of a package lies below the output, with one name for the API and one for a
version that is not the preferred one. -/
theorem directory_eq (output : Path) {api : Description} (preferred : Bool)
    (hn : IsName api.name) (hv : IsName api.version) :
    directory output api.name (versionDirectory api preferred) =
      ⟨output.root, output.parts ++ Naming.packageName api.name ::
        if preferred then [] else [api.version]⟩ := by
  have hp := Path.child_of_isName output (Naming.isName_packageName hn)
  cases preferred with
  | true => exact hp
  | false =>
    simp only [directory, versionDirectory, Bool.false_eq_true, if_false, hp,
      Path.child_of_isName _ hv, List.append_assoc, List.singleton_append]

end Package

namespace TemplateSet

/-- The files made from templates have names of their own, in the directory of any package. -/
structure OwnNames (t : TemplateSet) : Prop where
  names : ∀ name ∈ Entries.keys t, IsName name
  distinct : (Entries.keys t).Nodup
  declarations : Package.declarationsName ∉ Entries.keys t
  stub : ∀ api, Package.stubName api ∉ Entries.keys t

variable {engine : TemplateEngine}

theorem load_keys {w : Workspace} {directory : Option String} {files : Entries String}
    {t : TemplateSet} (h : load engine w directory files = .ok t) :
    Entries.keys t = Entries.keys files := by
  induction files generalizing t with
  | nil => cases h; rfl
  | cons e rest ih =>
    rw [load] at h
    simp only [Outcomes.bind_eq_ok_iff] at h
    obtain ⟨template, _, templates, ht, h⟩ := h
    cases h
    exact congrArg _ (ih ht)

/-- The sets that are loaded for a run. -/
theorem ownNames_of_load {w : Workspace} {directory : Option String} {t : TemplateSet}
    (h : load engine w directory standardFiles = .ok t) : t.OwnNames := by
  have hk := load_keys h
  constructor
  case names => rw [hk]; decide
  case distinct => rw [hk]; decide
  case declarations => rw [hk]; decide
  case stub =>
    intro api hm
    have hs : ∀ name ∈ Entries.keys standardFiles, name.toList.head? ≠ some 'g' := by decide
    exact hs _ (hk ▸ hm) (by simp [Package.toList_stubName])

/-- The files made from bundled templates, with their texts. -/
def standardTexts (c : TemplateContext) : Entries String :=
  [("readme.md", c.readme), ("tsconfig.json", c.compilerSettings),
    ("tslint.json", TemplateContext.linterSettings)]

/-- Without templates of the caller's own every template can be rendered. -/
theorem texts_of_load {w : Workspace} {t : TemplateSet}
    (h : load engine w none standardFiles = .ok t) (c : TemplateContext) :
    t.texts c = (standardTexts c).mapValues .ok := by
  cases h
  rfl

end TemplateSet

/-! ## Files of a directory -/

/-- Files are below a directory with their texts, and nothing else has changed but that directories
were made. -/
structure Workspace.Wrote (before after : Workspace) (directory : Path) (files : Entries String)
    (here : Location) : Prop where
  located : after.locate directory = .ok here
  directory : after.tree.node? here = some .directory
  contents : ∀ e ∈ files, after.tree.node? (here ++ [e.1]) = some (.file (Utf8.encode e.2))
  others : before.Extends (files.map fun e => here ++ [e.1]) after

namespace Workspace

variable {before mid after : Workspace} {directory : Path} {files : Entries String}
  {here : Location}

/-- A file stays as it is while others are written beside it. -/
theorem Wrote.cons {e : String × String}
    (hp : before.Puts mid (here ++ [e.1]) (Utf8.encode e.2)) (hn : e.1 ∉ Entries.keys files)
    (h : mid.Wrote after directory files here) :
    before.Wrote after directory (e :: files) here := by
  refine ⟨h.located, h.directory, ?_, hp.others.trans h.others⟩
  intro f hf
  rcases List.mem_cons.mp hf with rfl | hf
  · have hf : here ++ [f.1] ∉ files.map fun e => here ++ [e.1] := by
      intro hmem
      obtain ⟨e, he, hl⟩ := List.mem_map.mp hmem
      have he' : e.1 = f.1 := by simpa using hl
      exact hn (he' ▸ List.mem_map_of_mem he)
    rcases h.others.tree.others _ hf with hs | ⟨hs, _⟩
    · exact hs.trans hp.content
    · rw [hp.content] at hs; cases hs
  · exact h.contents f hf

/-- What is written is what is read. -/
theorem Wrote.read (h : before.Wrote after directory files here) {e : String × String}
    (he : e ∈ files) (hn : IsName e.1) :
    after.read ⟨directory.root, directory.parts ++ [e.1]⟩ = .ok (Utf8.encode e.2) := by
  have hl : after.locate ⟨directory.root, directory.parts ++ [e.1]⟩ = .ok (here ++ [e.1]) :=
    (locate_concat hn.2.2.1).mpr ⟨here, h.located, h.directory, rfl⟩
  rw [Workspace.read, hl]
  simp only [h.contents e he]

end Workspace

namespace Progress

variable {p after : Progress} {medium : Medium} {directory : Path}

theorem saveFile_eq (p : Progress) (medium : Medium) (path : Path) (text : String) :
    p.saveFile medium path text =
      match OutputFile.save medium p.workspace path text with
      | (saved, none) => ({ p with workspace := saved }.report [OutputFile.record path], .ok path)
      | (failed, some e) =>
        ({ p with workspace := failed }, .error (.output path.text (some e.cause))) := by
  rw [saveFile, OutputFile.saveText]
  generalize OutputFile.save medium p.workspace path text = outcome
  obtain ⟨w, _ | e⟩ := outcome <;> rfl

theorem saveFile_notes (p : Progress) (medium : Medium) (path : Path) (text : String) :
    (p.saveFile medium path text).1.generated = p.generated ∧
      (p.saveFile medium path text).1.skipped = p.skipped := by
  rw [saveFile_eq]
  split <;> exact ⟨rfl, rfl⟩

theorem saveFile_eq_ok {name text : String} {path : Path} (hn : IsName name)
    (h : p.saveFile medium (directory.child name) text = (after, .ok path)) :
    path = ⟨directory.root, directory.parts ++ [name]⟩ ∧
      ∃ here, after.workspace.Wrote after.workspace directory [] here ∧
        p.workspace.Puts after.workspace (here ++ [name]) (Utf8.encode text) := by
  rw [saveFile_eq, Path.child_of_isName _ hn] at h
  cases hs : OutputFile.save medium p.workspace ⟨directory.root, directory.parts ++ [name]⟩
    text with
  | mk saved e =>
    cases e with
    | some e => simp [hs] at h
    | none =>
      obtain ⟨here, hl, hd, hp⟩ := OutputFile.save_child hn.2.2.1 hs
      simp only [hs] at h
      cases h
      exact ⟨rfl, here, ⟨hl, hd, nofun, .refl _⟩, hp⟩

section

-- What saving one file comes to plays no part in how the files follow each other.
attribute [local irreducible] saveFile

variable (p medium directory)

theorem saveFiles_unrendered (name : String) (cause : Cause)
    (rest : Entries (Except Cause String)) :
    p.saveFiles medium directory ((name, .error cause) :: rest) = (p, .error (.template cause)) :=
  rfl

theorem saveFiles_rendered (name text : String) (rest : Entries (Except Cause String)) :
    p.saveFiles medium directory ((name, .ok text) :: rest) =
      match p.saveFile medium (directory.child name) text with
      | (failed, .error f) => (failed, .error f)
      | (saved, .ok path) =>
        match saved.saveFiles medium directory rest with
        | (failed, .error f) => (failed, .error f)
        | (done, .ok paths) => (done, .ok (path :: paths)) := rfl

/-- Whatever becomes of the files, writing them lists no API. -/
theorem saveFiles_notes (files : Entries (Except Cause String)) :
    (p.saveFiles medium directory files).1.generated = p.generated ∧
      (p.saveFiles medium directory files).1.skipped = p.skipped := by
  induction files generalizing p with
  | nil => exact ⟨rfl, rfl⟩
  | cons e rest ih =>
    obtain ⟨name, cause | text⟩ := e
    · exact ⟨rfl, rfl⟩
    · obtain ⟨hg, hs⟩ := saveFile_notes p medium (directory.child name) text
      rw [saveFiles_rendered]
      generalize p.saveFile medium (directory.child name) text = x at hg hs ⊢
      obtain ⟨saved, f | path⟩ := x
      · exact ⟨hg, hs⟩
      · obtain ⟨hg', hs'⟩ := ih saved
        dsimp only
        generalize saved.saveFiles medium directory rest = y at hg' hs' ⊢
        obtain ⟨done, f | paths⟩ := y <;> exact ⟨hg'.trans hg, hs'.trans hs⟩

variable {p medium directory}

/-- Files that are all written had a text each. -/
theorem saveFiles_eq_ok {files : Entries (Except Cause String)} {paths : List Path}
    (hf : files ≠ []) (hn : ∀ name ∈ Entries.keys files, IsName name)
    (hd : (Entries.keys files).Nodup)
    (h : p.saveFiles medium directory files = (after, .ok paths)) :
    ∃ texts : Entries String, files = texts.mapValues .ok ∧
      paths = texts.map (fun e => ⟨directory.root, directory.parts ++ [e.1]⟩) ∧
      ∃ here, p.workspace.Wrote after.workspace directory texts here := by
  induction files generalizing p paths with
  | nil => exact absurd rfl hf
  | cons e rest ih =>
    obtain ⟨name, cause | text⟩ := e
    · rw [saveFiles_unrendered] at h; cases h
    · obtain ⟨hne, hnr⟩ := List.forall_mem_cons.mp hn
      obtain ⟨he, hd⟩ := List.nodup_cons.mp hd
      rw [saveFiles_rendered] at h
      cases hs : p.saveFile medium (directory.child name) text with
      | mk saved outcome =>
        cases outcome with
        | error f => simp [hs] at h
        | ok path =>
          obtain ⟨rfl, here, hw, hp⟩ := saveFile_eq_ok hne hs
          cases hr : saved.saveFiles medium directory rest with
          | mk done outcome =>
            cases outcome with
            | error f => simp [hs, hr] at h
            | ok others =>
              simp only [hs, hr] at h
              cases h
              by_cases hrest : rest = []
              · subst hrest
                cases hr
                exact ⟨[(name, text)], rfl, rfl, here, .cons hp nofun hw⟩
              · obtain ⟨texts, rfl, rfl, here', hw'⟩ := ih hrest hnr hd hr
                -- The directory is where it was when the first file was written.
                cases hw'.located.symm.trans (hw'.others.locate hw.located)
                have he : name ∉ Entries.keys texts := Entries.keys_mapValues Except.ok texts ▸ he
                exact ⟨(name, text) :: texts, rfl, rfl, here, .cons hp he hw'⟩

end

end Progress

/-! ## Packages -/

namespace Package

theorem code_eq_ok {api : Description} {options : DeclarationOptions} {records : List LogRecord}
    {texts : Entries String} (h : code api options = (records, .ok texts)) :
    ∃ declarations stub, Declarations.render api options = .ok declarations ∧
      Stub.render api = .ok stub ∧
      texts = [(declarationsName, declarations), (stubName api, stub)] := by
  unfold code at h
  cases hd : Declarations.render api options with
  | error fault => simp [hd] at h
  | ok declarations =>
    cases hs : Stub.render api with
    | error fault => simp [hd, hs] at h
    | ok stub =>
      simp only [hd, hs] at h
      cases h
      exact ⟨declarations, stub, rfl, rfl, rfl⟩

theorem ok_mapValues_injective :
    Function.Injective (Entries.mapValues (Except.ok : String → Except Cause String)) :=
  List.map_injective_iff.mpr fun _ _ h => Prod.ext (Prod.mk.inj h).1 (Except.ok.inj (Prod.mk.inj h).2)

variable {t : TemplateSet} {api : Description} (preferred : Bool) (declarations stub : String)

/-- Where all files have a text, the templates have. -/
theorem texts_of_files {code texts : Entries String}
    (h : files t api preferred code = texts.mapValues .ok) :
    ∃ filled, t.texts ⟨api, preferred⟩ = filled.mapValues .ok ∧ texts = code ++ filled := by
  obtain ⟨first, filled, rfl, hf, hl⟩ := List.append_eq_map_iff.mp h
  cases ok_mapValues_injective hf
  exact ⟨filled, hl.symm, rfl⟩

theorem files_of_texts {code filled : Entries String}
    (h : t.texts ⟨api, preferred⟩ = filled.mapValues .ok) :
    files t api preferred code = (code ++ filled).mapValues .ok := by
  rw [files, h]
  exact List.map_append.symm

theorem keys_files : Entries.keys (files t api preferred
    [(declarationsName, declarations), (stubName api, stub)]) =
      declarationsName :: stubName api :: Entries.keys t := by
  simp [files, TemplateSet.texts, Entries.keys, Entries.mapValues]

theorem isName_files (ht : t.OwnNames) (hn : IsName api.name) :
    ∀ name ∈ Entries.keys (files t api preferred
      [(declarationsName, declarations), (stubName api, stub)]), IsName name := by
  rw [keys_files]
  exact List.forall_mem_cons.mpr ⟨by decide,
    List.forall_mem_cons.mpr ⟨isName_stubName hn, ht.names⟩⟩

theorem nodup_files (ht : t.OwnNames) : (Entries.keys (files t api preferred
    [(declarationsName, declarations), (stubName api, stub)])).Nodup := by
  rw [keys_files]
  refine List.nodup_cons.mpr ⟨?_, List.nodup_cons.mpr ⟨ht.stub api, ht.distinct⟩⟩
  intro hm
  rcases List.mem_cons.mp hm with he | hm
  · have hs := congrArg (fun name => name.toList.head?) he
    simp [toList_stubName, declarationsName] at hs
  · exact ht.declarations hm

end Package

namespace Generator

variable {g : Generator} {p after : Progress} {url : String} {preferred : Bool}

/-- The address is noted and nothing else has changed. -/
structure Skipped (p after : Progress) (url : String) : Prop where
  workspace : after.workspace = p.workspace
  skipped : after.skipped = p.skipped ++ [url]
  generated : after.generated = p.generated

/-- The API is noted. Where its name and its version are names of files, and the templates have
names of their own, its two files of code and those made from templates are in its directory, which
has a part for the version unless it is the preferred one. -/
structure Packaged (g : Generator) (p after : Progress) (api : Description) (url : String)
    (preferred : Bool) (paths : List Path) : Prop where
  generated : after.generated = p.generated ++ [api.name ++ ":" ++ api.version]
  skipped : after.skipped = p.skipped
  written : g.templates.OwnNames → IsName api.name → IsName api.version →
    ∃ declarations stub, ∃ filled : Entries String,
      Declarations.render api (g.settings.declarationOptions url) = .ok declarations ∧
      Stub.render api = .ok stub ∧
      (g.templates.map fun (name, template) => (name, template.render ⟨api, preferred⟩)) =
        filled.map (fun (name, text) => (name, .ok text)) ∧
      let files := ("index.d.ts", declarations) ::
        ("gapi.client." ++ api.name ++ "-tests.ts", stub) :: filled
      let directory : Path := ⟨g.output.root, g.output.parts ++ ("gapi.client." ++ api.name) ::
        if preferred then [] else [api.version]⟩
      paths = files.map (fun e => ⟨directory.root, directory.parts ++ [e.1]⟩) ∧
      (∀ e ∈ files, after.workspace.read ⟨directory.root, directory.parts ++ [e.1]⟩ =
        .ok (Utf8.encode e.2)) ∧
      ∃ here, p.workspace.Wrote after.workspace directory files here

/-- What becomes of a package: its code has a fault, its files are all saved, or they are up to one
that cannot be. -/
inductive Packaging (g : Generator) (p : Progress) (api : Description) (url : String)
    (preferred : Bool) : Progress → Except Failure (Option (List Path)) → Prop
  | faulty {records : List LogRecord} {fault : RenderFault} :
      Package.code api (g.settings.declarationOptions url) = (records, .error fault) →
      Packaging g p api url preferred ((p.report (records ++ [.warning
        ("Skipping " ++ api.name ++ " " ++ api.version ++ ": " ++ fault.message)])).addSkipped url)
        (.ok none)
  | saved {records : List LogRecord} {declarations stub : String} {done : Progress}
      {paths : List Path} :
      Package.code api (g.settings.declarationOptions url) =
        (records, .ok [(Package.declarationsName, declarations), (Package.stubName api, stub)]) →
      (p.report records).saveFiles g.medium
        (Package.directory g.output api.name (Package.versionDirectory api preferred))
        (Package.files g.templates api preferred
          [(Package.declarationsName, declarations), (Package.stubName api, stub)]) =
        (done, .ok paths) →
      Packaging g p api url preferred (done.addGenerated (Package.label api)) (.ok (some paths))
  | stopped {records : List LogRecord} {declarations stub : String} {failed : Progress}
      {f : Failure} :
      Package.code api (g.settings.declarationOptions url) =
        (records, .ok [(Package.declarationsName, declarations), (Package.stubName api, stub)]) →
      (p.report records).saveFiles g.medium
        (Package.directory g.output api.name (Package.versionDirectory api preferred))
        (Package.files g.templates api preferred
          [(Package.declarationsName, declarations), (Package.stubName api, stub)]) =
        (failed, .error f) →
      Packaging g p api url preferred failed (.error f)

theorem writePackage_packaging {api : Description} {result : Except Failure (Option (List Path))}
    (h : g.writePackage p api url preferred = (after, result)) :
    Packaging g p api url preferred after result := by
  unfold writePackage at h
  cases hc : Package.code api (g.settings.declarationOptions url) with
  | mk records code =>
    cases code with
    | error fault =>
      simp only [hc] at h
      cases h
      exact .faulty hc
    | ok texts =>
      obtain ⟨declarations, stub, _, _, rfl⟩ := Package.code_eq_ok hc
      simp only [hc] at h
      split at h
      next hw => cases h; exact .stopped hc hw
      next hw => cases h; exact .saved hc hw

theorem writePackage_outcome {api : Description} {outcome : Option (List Path)}
    (h : g.writePackage p api url preferred = (after, .ok outcome)) :
    match outcome with
    | none => Skipped p after url
    | some paths => Packaged g p after api url preferred paths := by
  cases writePackage_packaging h with
  | faulty => exact ⟨rfl, rfl, rfl⟩
  | @saved records declarations stub _ _ hc hw =>
    obtain ⟨_, _, hd, hs, he⟩ := Package.code_eq_ok hc
    cases he
    have hnotes := (p.report records).saveFiles_notes g.medium
      (Package.directory g.output api.name (Package.versionDirectory api preferred))
      (Package.files g.templates api preferred
        [(Package.declarationsName, declarations), (Package.stubName api, stub)])
    rw [hw] at hnotes
    refine ⟨congrArg (· ++ [Package.label api]) hnotes.1, hnotes.2, fun ht hn hv => ?_⟩
    have hnames := Package.isName_files preferred declarations stub ht hn
    rw [Package.directory_eq g.output preferred hn hv] at hw
    have hdistinct := @Package.nodup_files g.templates api preferred declarations stub ht
    generalize hfiles : Package.files g.templates api preferred
      [(Package.declarationsName, declarations), (Package.stubName api, stub)] = files
      at hw hnames hdistinct
    have hne : files ≠ [] := hfiles ▸ List.cons_ne_nil _ _
    obtain ⟨texts, rfl, hpaths, here, hwrote⟩ := Progress.saveFiles_eq_ok hne hnames hdistinct hw
    rw [Entries.keys_mapValues] at hnames
    obtain ⟨filled, hfilled, rfl⟩ := Package.texts_of_files preferred hfiles
    exact ⟨declarations, stub, filled, hd, hs, hfilled, hpaths,
      fun e he => hwrote.read he (hnames _ (List.mem_map_of_mem he)), here, hwrote⟩

theorem process_of_error {f : Failure} (h : g.loader.description p.workspace url = .error f) :
    g.process p url preferred =
      (((p.report (Loader.records url)).report [.warning ("Could not process service " ++ url ++
        ": " ++ f.message)]).addSkipped url, .ok none) := by
  have hl : g.loader.description (p.report (Loader.records url)).workspace url = .error f := h
  simp only [process, hl]

theorem process_of_loaded {description : Description}
    (h : g.loader.description p.workspace url = .ok description) :
    g.process p url preferred =
      g.writePackage ((p.report (Loader.records url)).report [announcement description.normalize])
        description.normalize url preferred := by
  have hl : g.loader.description (p.report (Loader.records url)).workspace url =
    .ok description := h
  simp only [process, hl]

/-- What is not skipped has been loaded. -/
theorem loaded_of_process {result : Except Failure (Option (List Path))}
    (h : g.process p url preferred = (after, result)) (hr : result ≠ .ok none) :
    ∃ description, g.loader.description p.workspace url = .ok description := by
  cases hl : g.loader.description p.workspace url with
  | error f =>
    rw [process_of_error hl] at h
    cases h
    exact absurd rfl hr
  | ok description => exact ⟨description, rfl⟩

theorem packaged_of_loaded {description : Description} {paths : List Path}
    (hl : g.loader.description p.workspace url = .ok description)
    (h : g.process p url preferred = (after, .ok (some paths))) :
    Packaged g p after description.normalize url preferred paths := by
  rw [process_of_loaded hl] at h
  have hw := writePackage_outcome h
  exact ⟨hw.generated, hw.skipped, hw.written⟩

theorem skipped_of_process (h : g.process p url preferred = (after, .ok none)) :
    Skipped p after url := by
  cases hl : g.loader.description p.workspace url with
  | error f =>
    rw [process_of_error hl] at h
    cases h
    exact ⟨rfl, rfl, rfl⟩
  | ok description =>
    rw [process_of_loaded hl] at h
    have hw := writePackage_outcome h
    exact ⟨hw.workspace, hw.skipped, hw.generated⟩

/-- A description is skipped, and then no file and no directory has changed, or its package is
written. -/
theorem process_outcome {outcome : Option (List Path)}
    (h : g.process p url preferred = (after, .ok outcome)) :
    match outcome with
    | none => Skipped p after url
    | some paths => ∃ description, g.loader.description p.workspace url = .ok description ∧
        Packaged g p after description.normalize url preferred paths := by
  cases outcome with
  | none => exact skipped_of_process h
  | some paths =>
    obtain ⟨description, hl⟩ := loaded_of_process h nofun
    exact ⟨description, hl, packaged_of_loaded hl h⟩

end Generator

/-! ## Descriptions in files -/

theorem Url.splitScheme_of_not_mem {cs : List Char} (h : ':' ∉ cs) : splitScheme cs = ("", cs) := by
  unfold splitScheme
  dsimp only
  split
  next rest hr => exact absurd (List.mem_of_mem_drop (hr ▸ List.mem_cons_self)) h
  next => rfl

/-- An address has a colon behind its scheme. -/
theorem Url.isWebAddress_of_not_mem {source : String} (h : ':' ∉ source.toList) :
    isWebAddress source = false := by
  have hs : ':' ∉ (source.toList.dropWhile fun c => c.toNat ≤ 0x20).filter fun c =>
      c != '\t' && c != '\r' && c != '\n' :=
    fun hm => h ((List.dropWhile_sublist _).subset (List.mem_of_mem_filter hm))
  have hl : "".toLower = "" := String.ext String.toList_map
  simp [isWebAddress, splitScheme_of_not_mem hs, hl]

theorem Loader.read_of_file {l : Loader} {w : Workspace} {source : String} {text : List Char}
    {json : Json} (hweb : Url.isWebAddress source = false)
    (hfile : w.contains (l.base.join (Path.ofString source)) = true)
    (htext : w.readText (l.base.join (Path.ofString source)) = .ok text)
    (hparsed : Json.parse text = .ok json) : l.read w source = .ok json := by
  simp [Loader.read, hweb, Loader.fromFile, hfile, htext, Loader.parse, hparsed, bind,
    Except.bind, Except.mapError]

/-! A version that is not the preferred one, described in a file. -/

namespace Chat

def document : String := "\x7b\"name\":\"Chat\",\"version\":\"V1\"\x7d"

def json : Json := .object [("name", .string "Chat"), ("version", .string "V1")]

def api : Description :=
  { Description.blank "Chat" "V1" with kind := some Description.defaultKind }

def start : Progress := .start ⟨⟨[(["chat.json"], .file (Utf8.encode document))]⟩, []⟩

def generator : Generator where
  settings := { Settings.defaults with output := "out" }
  loader := ⟨fun _ => .unreachable "no network", true, ⟨"/", []⟩⟩
  templates := [("readme.md", .readme), ("tsconfig.json", .compilerSettings),
    ("tslint.json", .linterSettings)]

theorem templates_loaded : TemplateSet.load TemplatePiece.engine start.workspace none
    TemplateSet.standardFiles = .ok generator.templates := rfl

theorem ownNames : generator.templates.OwnNames := TemplateSet.ownNames_of_load templates_loaded

theorem parsed : Json.parse document.toList = .ok json := by cbv

theorem loaded : generator.loader.description start.workspace "chat.json" = .ok api := by
  rw [Loader.description, Loader.load,
    Loader.read_of_file (Url.isWebAddress_of_not_mem (by decide)) (by decide) (by decide) parsed]
  rfl

def declarations : String :=
  Declarations.Outline.text api.normalize (generator.settings.declarationOptions "chat.json")
    ⟨[], [], []⟩

def stub : String := Stub.text api.normalize []

def reported : Progress :=
  start.report (Loader.records "chat.json" ++ [Generator.announcement api.normalize] ++
    [Package.announce .declarations "declarations" api.normalize,
      Package.announce .stub "usage stub" api.normalize])

theorem saved :
    (reported.saveFiles generator.medium (Package.directory generator.output "chat" (some "v1"))
      (Package.files generator.templates api.normalize false
        [("index.d.ts", declarations), ("gapi.client.chat-tests.ts", stub)])).2.isOk = true := by
  decide +kernel

theorem processed :
    ∃ after paths, generator.process start "chat.json" false = (after, .ok (some paths)) := by
  have hd : Declarations.render api.normalize
      (generator.settings.declarationOptions "chat.json") = .ok declarations := by
    rw [Declarations.render_eq]; rfl
  have hs : Stub.render api.normalize = .ok stub := by rw [Stub.render_eq]; rfl
  rw [Generator.process_of_loaded loaded]
  simp only [Generator.writePackage, Package.code, hd, hs]
  split
  next f he => exact nomatch saved.symm.trans (congrArg (fun result => result.2.isOk) he)
  next => exact ⟨_, _, rfl⟩

/-- Two files of code and three made from templates. -/
theorem packaged :
    ∃ after paths, generator.process start "chat.json" false = (after, .ok (some paths)) ∧
      paths = [⟨"", ["out", "gapi.client.chat", "v1", "index.d.ts"]⟩,
        ⟨"", ["out", "gapi.client.chat", "v1", "gapi.client.chat-tests.ts"]⟩,
        ⟨"", ["out", "gapi.client.chat", "v1", "readme.md"]⟩,
        ⟨"", ["out", "gapi.client.chat", "v1", "tsconfig.json"]⟩,
        ⟨"", ["out", "gapi.client.chat", "v1", "tslint.json"]⟩] ∧
      after.generated = ["chat:v1"] ∧ after.skipped = [] ∧
      after.workspace.read ⟨"", ["out", "gapi.client.chat", "v1", "readme.md"]⟩ =
        .ok (Utf8.encode (TemplateContext.readme ⟨api.normalize, false⟩)) := by
  obtain ⟨after, paths, h⟩ := processed
  obtain ⟨description, hl, hp⟩ := Generator.process_outcome h
  cases loaded.symm.trans hl
  obtain ⟨declarations, stub, others, _, _, hothers, hpaths, hread, _⟩ :=
    hp.written ownNames (by decide) (by decide)
  cases Package.ok_mapValues_injective
    ((TemplateSet.texts_of_load templates_loaded _).symm.trans hothers)
  refine ⟨after, paths, h, hpaths, hp.generated, hp.skipped, ?_⟩
  exact hread ("readme.md", _) (.tail _ (.tail _ (.head _)))

end Chat

end ApiTypings
