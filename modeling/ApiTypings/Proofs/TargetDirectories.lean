import ApiTypings.Proofs.DiscoveryRun
import ApiTypings.Proofs.PartialPackages
import Mathlib.Data.List.Flatten

/-! # Where the packages of a run go

The directory of a package is made of the name and the version that its description gives and of the
flag in the listing, and nothing compares it with those of the packages before. Files of two
packages are at one path exactly if their declaration files are, or if their stubs are. -/

namespace ApiTypings

/-! ## Names below two directories -/

namespace Path

open ApiTypings.Path (IsName)

theorem child_inj {base other : Path} {name last : String} (hn : IsName name) (hl : IsName last)
    (h : base.child name = other.child last) : base = other ∧ name = last := by
  rw [child_of_isName base hn, child_of_isName other hl, Path.mk.injEq] at h
  obtain ⟨hparts, hname⟩ := List.append_inj' h.2 rfl
  exact ⟨Path.mk.injEq .. ▸ ⟨h.1, hparts⟩, List.singleton_inj.mp hname⟩

/-- The text behind the last separator is part of the last piece. -/
theorem split_append (front : List Char) {tail : List Char} (h : '/' ∉ tail) :
    ∃ pieces rest, Text.split '/' (front ++ tail) = pieces ++ [rest ++ tail] := by
  induction front with
  | nil => exact ⟨[], [], split_of_not_mem h⟩
  | cons c front ih =>
    obtain ⟨pieces, rest, hs⟩ := ih
    rw [List.cons_append, Text.split, hs]
    split
    · exact ⟨[] :: pieces, rest, rfl⟩
    · cases pieces with
      | nil => exact ⟨[], c :: rest, rfl⟩
      | cons piece pieces => exact ⟨(c :: piece) :: pieces, rest, rfl⟩

/-- The last name of a path ends as the text that it is read from. -/
theorem getLast?_child (base : Path) {name : String} {front tail : List Char}
    (h : name.toList = front ++ tail) (ht : '/' ∉ tail) (hl : 2 ≤ tail.length) :
    ∃ last, (base.child name).parts.getLast? = some last ∧ tail <:+ last.toList := by
  obtain ⟨pieces, rest, hs⟩ := split_append front ht
  -- Names that are left out are shorter than the last one.
  have hkept : [String.ofList (rest ++ tail)].filter (fun name => name != "" && name != ".") =
      [String.ofList (rest ++ tail)] := by
    have hlong : ∀ short : String, short.toList.length < 2 →
        String.ofList (rest ++ tail) ≠ short := by
      rintro _ hshort rfl
      rw [String.toList_ofList, List.length_append] at hshort
      omega
    refine List.filter_eq_self.mpr fun name hm => ?_
    rw [List.mem_singleton.mp hm, Bool.and_eq_true, bne_iff_ne, bne_iff_ne]
    exact ⟨hlong _ (by decide), hlong _ (by decide)⟩
  have hparts : (ofString name).parts =
      (pieces.map String.ofList).filter (fun name => name != "" && name != ".") ++
        [String.ofList (rest ++ tail)] := by
    simp only [ofString, h, hs, List.map_append, List.map_cons, List.map_nil, List.filter_append,
      hkept]
  refine ⟨_, ?_, rest, (String.toList_ofList ..).symm⟩
  unfold child join
  split
  · rw [hparts, List.getLast?_concat]
  · simp only [hparts, ← List.append_assoc, List.getLast?_concat]

end Path

open ApiTypings.Path (IsName)

/-! ## Files and where they have been written -/

namespace Workspace

variable {before mid after : Workspace} {xs ys : List Path}

/-- Files are where the paths lead, and nothing else has changed but that directories were made. -/
def SavedTo (before after : Workspace) (paths : List Path) : Prop :=
  ∃ written : List (Location × List UInt8),
    List.Forall₂ (fun path w => after.locate path = .ok w.1) paths written ∧
      before.WroteAt after written

theorem SavedTo.refl (w : Workspace) : w.SavedTo w [] := ⟨[], .nil, .of_extends (.refl _)⟩

theorem SavedTo.append (hx : before.SavedTo mid xs) (hy : mid.SavedTo after ys) :
    before.SavedTo after (xs ++ ys) := by
  obtain ⟨first, hf, hw⟩ := hx
  obtain ⟨second, hs, hv⟩ := hy
  have hf : List.Forall₂ (fun path w => after.locate path = .ok w.1) xs first :=
    hf.imp fun _ _ hl => hv.others.locate hl
  exact ⟨first ++ second, List.rel_append hf hs, hw.append hv⟩

theorem SavedIn.savedTo {directory : Path} {files : Entries (List UInt8)}
    (h : before.SavedIn after directory files) :
    before.SavedTo after (files.map fun e => directory.child e.1) := by
  obtain ⟨written, hf, hw⟩ := h
  exact ⟨written, List.forall₂_map_left_iff.mpr (hf.imp fun _ _ hl => hl.1), hw⟩

end Workspace

/-- Where files have been written: the paths of those that are whole, and that of one that was cut
off. -/
structure WrittenPaths where
  whole : List Path
  part : Option Path

def WrittenPaths.all (paths : WrittenPaths) : List Path := paths.whole ++ paths.part.toList

namespace Saved

def paths (s : Saved) (directory : Path) : WrittenPaths :=
  ⟨s.whole.map fun e => directory.child e.1, s.part.map fun e => directory.child e.1⟩

theorem all_paths (s : Saved) (directory : Path) :
    (s.paths directory).all = s.contents.map fun e => directory.child e.1 := by
  have hpart : (s.part.map fun e => directory.child e.1).toList =
      s.part.toList.map fun e => directory.child e.1 := by cases s.part <;> rfl
  rw [contents, List.map_append, ← hpart, Entries.mapValues, List.map_map]
  rfl

end Saved

namespace Progress

variable {p mid after : Progress} {xs ys vs ws : List Path} {records : List LogRecord}

/-- What has been reported of files that were written. -/
def fileRecords (p : Progress) : List LogRecord := p.log.filter (·.origin = .output)

/-- Files have been written at the paths in turn, and each of those that are whole is reported. -/
structure Writes (p after : Progress) (whole paths : List Path) : Prop where
  workspace : p.workspace.SavedTo after.workspace paths
  records : after.fileRecords = p.fileRecords ++ whole.map OutputFile.record

theorem Writes.append (hx : p.Writes mid vs xs) (hy : mid.Writes after ws ys) :
    p.Writes after (vs ++ ws) (xs ++ ys) := by
  refine ⟨hx.workspace.append hy.workspace, ?_⟩
  rw [hy.records, hx.records, List.map_append, List.append_assoc]

theorem fileRecords_report (h : ∀ r ∈ records, r.origin ≠ .output) :
    (p.report records).fileRecords = p.fileRecords := by
  have hn : records.filter (·.origin = .output) = [] :=
    List.filter_eq_nil_iff.mpr fun r hr => by simpa using h r hr
  rw [fileRecords, report, List.filter_append, hn, List.append_nil, fileRecords]

/-- What else is reported before does not matter. -/
theorem Writes.of_report (h : ∀ r ∈ records, r.origin ≠ .output)
    (hw : (p.report records).Writes after vs xs) : p.Writes after vs xs :=
  ⟨hw.workspace, fileRecords_report (p := p) h ▸ hw.records⟩

theorem writes_report (p : Progress) (h : ∀ r ∈ records, r.origin ≠ .output) :
    p.Writes (p.report records) [] [] :=
  ⟨.refl _, (fileRecords_report h).trans (List.append_nil _).symm⟩

theorem saveFiles_writes (p : Progress) (medium : Medium) (directory : Path)
    (files : Entries (Except Cause String)) :
    let paths := (p.workspace.saved medium directory files).paths directory
    p.Writes (p.saveFiles medium directory files).1 paths.whole paths.all := by
  have hs := p.saveFiles_saves medium directory files
  generalize p.workspace.saved medium directory files = s at hs
  refine ⟨s.all_paths directory ▸ hs.workspace.savedTo, ?_⟩
  have hr : (s.whole.map fun e => OutputFile.record (directory.child e.1)).filter
      (·.origin = .output) = s.whole.map fun e => OutputFile.record (directory.child e.1) :=
    List.filter_eq_self.mpr fun r hr => by
      obtain ⟨e, _, rfl⟩ := List.mem_map.mp hr
      rfl
  rw [fileRecords, hs.log, List.filter_append, hr, Saved.paths, List.map_map]
  rfl

end Progress

theorem Loader.origin_records {source : String} :
    ∀ r ∈ records source, r.origin ≠ .output := by
  unfold records
  split
  · simp [LogRecord.debug]
  · exact nofun

theorem Package.origin_code (api : Description) (options : DeclarationOptions) :
    ∀ r ∈ (code api options).1, r.origin ≠ .output := by
  unfold code
  split
  · simp [announce, LogRecord.debug]
  · split <;> simp [announce, LogRecord.debug]

/-! ## What is written for each item -/

/-- An item whose description is there, and where files are written for it. -/
structure Attempt where
  item : DirectoryItem
  description : Description
  files : WrittenPaths

/-- All paths that are written. -/
def Attempt.paths (a : Attempt) : List Path := a.files.all

def Attempt.whole (a : Attempt) : List Path := a.files.whole

@[simp] theorem Attempt.paths_of_whole (item : DirectoryItem) (description : Description)
    (whole : List Path) : Attempt.paths ⟨item, description, whole, none⟩ = whole :=
  List.append_nil _

namespace Generator

variable {g : Generator} {w : Workspace} {p after : Progress} {item : DirectoryItem}
  {items : List DirectoryItem} {a b : Attempt}

/-- The paths of the package up to the first file that cannot be written or whose template cannot be
rendered. -/
def writtenPaths (g : Generator) (w : Workspace) (api : Description) (url : String)
    (preferred : Bool) : WrittenPaths :=
  match (Package.code api (g.settings.declarationOptions url)).2 with
  | .error _ => ⟨[], none⟩
  | .ok code =>
    let directory := Package.directory g.output api.name (Package.versionDirectory api preferred)
    (w.saved g.medium directory (Package.files g.templates api preferred code)).paths directory

def attempt? (g : Generator) (w : Workspace) (item : DirectoryItem) : Option Attempt :=
  match g.loader.description w item.discoveryRestUrl with
  | .error _ => none
  | .ok description => some ⟨item, description,
      g.writtenPaths w description.normalize item.discoveryRestUrl item.preferred⟩

/-- The attempts of a run. A file that cannot be written ends it, and so does a template that cannot
be rendered. -/
def attempts (g : Generator) (p : Progress) : List DirectoryItem → List Attempt
  | [] => []
  | item :: rest =>
    (g.attempt? p.workspace item).toList ++
      match g.process p item.discoveryRestUrl item.preferred with
      | (_, .error _) => []
      | (next, .ok _) => g.attempts next rest

theorem writePackage_writes {api : Description} {url : String} {preferred : Bool}
    {result : Except Failure (Option (List Path))}
    (h : g.writePackage p api url preferred = (after, result)) :
    let paths := g.writtenPaths p.workspace api url preferred
    p.Writes after paths.whole paths.all ∧
      ∀ outcome, result = .ok outcome → paths = ⟨outcome.getD [], none⟩ := by
  have horigin := Package.origin_code api (g.settings.declarationOptions url)
  unfold writtenPaths
  cases writePackage_packaging h with
  | @faulty records fault hc =>
    rw [hc] at horigin ⊢
    have hr : ∀ r ∈ records ++ [LogRecord.warning
        ("Skipping " ++ api.name ++ " " ++ api.version ++ ": " ++ fault.message)],
        r.origin ≠ .output := by
      intro r hm
      rcases List.mem_append.mp hm with hm | hm
      · exact horigin r hm
      · cases List.mem_singleton.mp hm
        exact nofun
    have hw := p.writes_report hr
    exact ⟨⟨hw.workspace, hw.records⟩, fun outcome he => by cases he; rfl⟩
  | @stopped records declarations stub _ _ hc hsave =>
    rw [hc] at horigin ⊢
    have hw := Progress.Writes.of_report horigin ((p.report records).saveFiles_writes g.medium
      (Package.directory g.output api.name (Package.versionDirectory api preferred))
      (Package.files g.templates api preferred
        [(Package.declarationsName, declarations), (Package.stubName api, stub)]))
    rw [hsave] at hw
    exact ⟨hw, nofun⟩
  | @saved records declarations stub _ _ hc hsave =>
    rw [hc] at horigin ⊢
    dsimp only
    generalize Package.directory g.output api.name
      (Package.versionDirectory api preferred) = directory at hsave ⊢
    generalize Package.files g.templates api preferred
      [(Package.declarationsName, declarations), (Package.stubName api, stub)] = files at hsave ⊢
    have hw := Progress.Writes.of_report horigin
      ((p.report records).saveFiles_writes g.medium directory files)
    have hs := (p.report records).saveFiles_saves g.medium directory files
    rw [hsave] at hw hs
    obtain ⟨_, hpart, hpaths⟩ := hs.result
    refine ⟨⟨hw.workspace, hw.records⟩, fun outcome he => ?_⟩
    cases he
    exact congrArg₂ WrittenPaths.mk hpaths.symm (congrArg (Option.map _) hpart)

/-- What a description that is there changes in the files is what is written for it. -/
theorem process_writes_of_loaded {description : Description} {url : String} {preferred : Bool}
    {result : Except Failure (Option (List Path))}
    (hl : g.loader.description p.workspace url = .ok description)
    (h : g.process p url preferred = (after, result)) :
    let paths := g.writtenPaths p.workspace description.normalize url preferred
    p.Writes after paths.whole paths.all ∧
      ∀ outcome, result = .ok outcome → paths = ⟨outcome.getD [], none⟩ := by
  rw [process_of_loaded hl] at h
  obtain ⟨hw, hr⟩ := writePackage_writes h
  refine ⟨.of_report Loader.origin_records (.of_report ?_ hw), hr⟩
  simp [announcement, LogRecord.info]

/-- What one item changes in the files is what is written for it. -/
theorem process_writes {result : Except Failure (Option (List Path))}
    (h : g.process p item.discoveryRestUrl item.preferred = (after, result)) :
    let tried := (g.attempt? p.workspace item).toList
    p.Writes after (tried.flatMap (·.whole)) (tried.flatMap (·.paths)) ∧
      ∀ outcome, result = .ok outcome →
        outcome.getD [] = tried.flatMap (·.paths) ∧ outcome.getD [] = tried.flatMap (·.whole) := by
  unfold attempt?
  cases hl : g.loader.description p.workspace item.discoveryRestUrl with
  | error f =>
    rw [process_of_error hl] at h
    cases h
    have hwarning : ∀ r ∈ [LogRecord.warning ("Could not process service " ++
        item.discoveryRestUrl ++ ": " ++ f.message)], r.origin ≠ .output := by
      simp [LogRecord.warning]
    have hw := (p.writes_report Loader.origin_records).append
      ((p.report (Loader.records item.discoveryRestUrl)).writes_report hwarning)
    exact ⟨⟨hw.workspace, hw.records⟩, fun outcome he => by cases he; exact ⟨rfl, rfl⟩⟩
  | ok description =>
    obtain ⟨hw, hpaths⟩ := process_writes_of_loaded hl h
    simp only [Option.toList_some, List.flatMap_singleton, Attempt.whole, Attempt.paths]
    refine ⟨hw, fun outcome he => ?_⟩
    rw [hpaths outcome he]
    exact ⟨(Attempt.paths_of_whole item description _).symm, rfl⟩

/-- What is written for an item that is generated is what is listed for it. -/
theorem attempt?_of_process {description : Description} {paths : List Path}
    (hl : g.loader.description p.workspace item.discoveryRestUrl = .ok description)
    (h : g.process p item.discoveryRestUrl item.preferred = (after, .ok (some paths))) :
    g.attempt? p.workspace item = some ⟨item, description, paths, none⟩ := by
  have hpaths := (process_writes_of_loaded hl h).2 _ rfl
  unfold attempt?
  rw [hl]
  exact congrArg (fun files => some (Attempt.mk item description files)) hpaths

section

-- How one description is processed plays no part in how the items follow each other.
attribute [local irreducible] process

theorem attempts_cons (g : Generator) (p : Progress) (item : DirectoryItem)
    (rest : List DirectoryItem) :
    g.attempts p (item :: rest) =
      (g.attempt? p.workspace item).toList ++
        match g.process p item.discoveryRestUrl item.preferred with
        | (_, .error _) => []
        | (next, .ok _) => g.attempts next rest := rfl

/-- What a run changes in the files is what is written for its items in turn. -/
theorem processItems_writes {result : Except Failure (List Path)}
    (h : g.processItems p items = (after, result)) :
    let tried := g.attempts p items
    p.Writes after (tried.flatMap (·.whole)) (tried.flatMap (·.paths)) ∧
      ∀ paths, result = .ok paths →
        paths = tried.flatMap (·.paths) ∧ paths = tried.flatMap (·.whole) := by
  induction items generalizing p after result with
  | nil =>
    cases h
    exact ⟨⟨.refl _, (List.append_nil _).symm⟩, fun paths he => by cases he; exact ⟨rfl, rfl⟩⟩
  | cons item rest ih =>
    rw [processItems_cons] at h
    dsimp only
    rw [attempts_cons, List.flatMap_append, List.flatMap_append]
    cases hp : g.process p item.discoveryRestUrl item.preferred with
    | mk next outcome =>
      obtain ⟨hw, hpaths⟩ := process_writes hp
      cases outcome with
      | error f =>
        simp only [hp] at h
        cases h
        exact ⟨by simpa using hw, nofun⟩
      | ok outcome =>
        cases hr : g.processItems next rest with
        | mk last others =>
          obtain ⟨hrest, hothers⟩ := ih hr
          simp only [hp, hr] at h
          cases others with
          | error f =>
            cases h
            exact ⟨hw.append hrest, nofun⟩
          | ok others =>
            cases h
            refine ⟨hw.append hrest, fun paths he => ?_⟩
            cases he
            exact ⟨congrArg₂ (· ++ ·) (hpaths outcome rfl).1 (hothers others rfl).1,
              congrArg₂ (· ++ ·) (hpaths outcome rfl).2 (hothers others rfl).2⟩

end

theorem attempts_items (g : Generator) (p : Progress) (items : List DirectoryItem) :
    ((g.attempts p items).map (·.item)).Sublist items := by
  induction items generalizing p with
  | nil => exact .slnil
  | cons item rest ih =>
    have hfirst : ((g.attempt? p.workspace item).toList.map (·.item)).Sublist [item] := by
      unfold attempt?
      split
      · exact List.nil_sublist _
      · exact .refl _
    rw [attempts_cons, List.map_append]
    refine hfirst.append ?_
    split
    · exact List.nil_sublist _
    next next _ _ => exact ih next

theorem attempt?_of_mem (h : a ∈ g.attempts p items) : ∃ w item, g.attempt? w item = some a := by
  induction items generalizing p with
  | nil => cases h
  | cons item rest ih =>
    rw [attempts_cons] at h
    rcases List.mem_append.mp h with h | h
    · exact ⟨p.workspace, item, Option.mem_toList.mp h⟩
    · split at h
      · cases h
      · exact ih h

end Generator

namespace DirectoryItem

theorem chosen_sublist (all : Bool) (group : List DirectoryItem) :
    (chosen all group).Sublist (chosen true group) := by
  unfold chosen
  split
  · exact .slnil
  · cases all with
    | true => exact .refl _
    | false => exact (List.Sublist.refl _).append (List.nil_sublist _)

/-- No item is planned more often than it is listed. -/
theorem plan_subperm (all : Bool) (items : List DirectoryItem) : (plan all items).Subperm items :=
  (List.Sublist.flatMap_right (groups items) fun group _ => chosen_sublist all group).subperm.trans
    (plan_all_perm items).subperm

end DirectoryItem

/-! ## Packages apart -/

namespace Attempt

variable {g : Generator} {a b : Attempt} {path : Path}

def name (a : Attempt) : String := Text.lower a.description.name

/-- The version has a directory of its own unless the listing prefers it. -/
def version? (a : Attempt) : Option String :=
  if a.item.preferred then none else some (Text.lower a.description.version)

def target (g : Generator) (a : Attempt) : Path := Package.directory g.output a.name a.version?

def stubName (a : Attempt) : String := "gapi.client." ++ a.name ++ "-tests.ts"

def fileNames (a : Attempt) : List String :=
  "index.d.ts" :: a.stubName :: ["readme.md", "tsconfig.json", "tslint.json"]

/-- Files have been written below one directory, in order and perhaps not all. -/
def Below (g : Generator) (a : Attempt) : Prop := a.paths <+: a.fileNames.map (a.target g).child

/-- The files that are written are in two directories, and their stubs are two files. -/
structure Apart (g : Generator) (a b : Attempt) : Prop where
  targets : a.paths ≠ [] → b.paths ≠ [] → a.target g ≠ b.target g
  stubs : (a.target g).child a.stubName ∈ a.paths → (b.target g).child b.stubName ∈ b.paths →
    (a.target g).child a.stubName ≠ (b.target g).child b.stubName

/-- Name and version are names of files. -/
def Named (a : Attempt) : Prop := IsName a.name ∧ ∀ v ∈ a.version?, IsName v

/-- The files that every package has under one name. -/
def fixedNames : List String := ["index.d.ts", "readme.md", "tsconfig.json", "tslint.json"]

/-- No fixed name leads elsewhere or ends as that of a stub does. -/
theorem fixedNames_plain :
    ∀ file ∈ fixedNames, IsName file ∧ ¬ "-tests.ts".toList <:+ file.toList := by decide

theorem toList_stubName (a : Attempt) :
    a.stubName.toList = ("gapi.client.".toList ++ a.name.toList) ++ "-tests.ts".toList := by
  simp [stubName]

/-- The stub is no other file of any package. -/
theorem stub_ne {base other : Path} {file : String} (h : file ∈ fixedNames) :
    other.child a.stubName ≠ base.child file := by
  intro he
  obtain ⟨hname, hsuffix⟩ := fixedNames_plain file h
  obtain ⟨last, hl, htail⟩ := Path.getLast?_child other a.toList_stubName (by decide) (by decide)
  rw [he, Path.child_of_isName base hname, List.getLast?_concat] at hl
  cases hl
  exact hsuffix htail

theorem mem_of_ne_nil (h : a.Below g) (hne : a.paths ≠ []) :
    (a.target g).child "index.d.ts" ∈ a.paths := by
  obtain ⟨rest, hrest⟩ := h
  cases hp : a.paths with
  | nil => exact absurd hp hne
  | cons first others =>
    rw [hp, fileNames, List.map_cons, List.cons_append, List.cons.injEq] at hrest
    rw [hrest.1]
    exact List.mem_cons_self

theorem Below.cases (h : a.Below g) (hp : path ∈ a.paths) :
    path = (a.target g).child a.stubName ∨
      ∃ file ∈ fixedNames, path = (a.target g).child file := by
  obtain ⟨file, hf, rfl⟩ := List.mem_map.mp (h.subset hp)
  rcases List.mem_cons.mp hf with rfl | hf
  · exact .inr ⟨_, .head _, rfl⟩
  · rcases List.mem_cons.mp hf with rfl | hf
    · exact .inl rfl
    · exact .inr ⟨file, .tail _ hf, rfl⟩

theorem disjoint_iff (ha : a.Below g) (hb : b.Below g) :
    a.paths.Disjoint b.paths ↔ a.Apart g b := by
  constructor
  case mp =>
    intro hd
    constructor
    case targets =>
      intro hna hnb he
      have hmb := mem_of_ne_nil hb hnb
      rw [← he] at hmb
      exact hd (mem_of_ne_nil ha hna) hmb
    case stubs =>
      intro hma hmb he
      rw [← he] at hmb
      exact hd hma hmb
  case mpr =>
    -- Files of one path are both stubs or both not, and what is no stub tells its directory.
    intro hapart path hpa hpb
    rcases ha.cases hpa with rfl | ⟨file, hf, rfl⟩
    · rcases hb.cases hpb with he | ⟨other, ho, he⟩
      · rw [he] at hpb
        exact hapart.stubs hpa hpb he
      · exact stub_ne ho he
    · rcases hb.cases hpb with he | ⟨other, ho, he⟩
      · exact stub_ne hf he.symm
      · have hinj := Path.child_inj (fixedNames_plain file hf).1 (fixedNames_plain other ho).1 he
        exact hapart.targets (List.ne_nil_of_mem hpa) (List.ne_nil_of_mem hpb) hinj.1

theorem target_eq (h : a.Named) :
    a.target g =
      ⟨g.output.root, g.output.parts ++ Naming.packageName a.name :: a.version?.toList⟩ := by
  have hp := Path.child_of_isName g.output (Naming.isName_packageName h.1)
  unfold target Package.directory
  cases hv : a.version? with
  | none => exact hp
  | some version =>
    dsimp only
    rw [hp, Path.child_of_isName _ (h.2 version hv), List.append_assoc]
    rfl

theorem target_eq_iff (ha : a.Named) (hb : b.Named) :
    a.target g = b.target g ↔ a.name = b.name ∧ a.version? = b.version? := by
  rw [target_eq ha, target_eq hb]
  generalize a.version? = version
  generalize b.version? = other
  cases version <;> cases other <;> simp [Naming.packageName]

/-- Where names and versions are names of files, they tell the packages apart. -/
theorem apart_iff (ha : a.Named) (hb : b.Named) :
    a.Apart g b ↔
      (a.paths ≠ [] → b.paths ≠ [] → ¬ (a.name = b.name ∧ a.version? = b.version?)) := by
  rw [← target_eq_iff (g := g) ha hb]
  refine ⟨fun h => h.targets, fun h => ⟨h, fun hma hmb he => ?_⟩⟩
  have hstub : ∀ c : Attempt, c.Named → IsName c.stubName := fun c hc =>
    @Package.isName_stubName c.description.normalize hc.1
  exact h (List.ne_nil_of_mem hma) (List.ne_nil_of_mem hmb)
    (Path.child_inj (hstub a ha) (hstub b hb) he).1

end Attempt

namespace Generator

variable {g : Generator} {p after : Progress} {a : Attempt} {engine : TemplateEngine}

/-- The paths that are written are those of the files of a package, in order and perhaps not all. -/
theorem writtenPaths_initial {w templates : Workspace} {own : Option String} {api : Description}
    (url : String) (preferred : Bool)
    (loaded : TemplateSet.load engine templates own TemplateSet.standardFiles = .ok g.templates) :
    (g.writtenPaths w api url preferred).all <+:
      (Package.declarationsName :: Package.stubName api ::
        Entries.keys TemplateSet.standardFiles).map
        (Package.directory g.output api.name (Package.versionDirectory api preferred)).child := by
  unfold writtenPaths
  cases hc : Package.code api (g.settings.declarationOptions url) with
  | mk records code =>
    cases code with
    | error fault => exact List.nil_prefix
    | ok code =>
      obtain ⟨declarations, stub, _, _, rfl⟩ := Package.code_eq_ok hc
      have hkeys := @Package.keys_files g.templates api preferred declarations stub
      rw [TemplateSet.load_keys loaded] at hkeys
      dsimp only
      rw [Saved.all_paths, ← hkeys]
      have hp := (w.saved_prefix g.medium
        (Package.directory g.output api.name (Package.versionDirectory api preferred))
        (Package.files g.templates api preferred
          [(Package.declarationsName, declarations), (Package.stubName api, stub)])).map
        (Package.directory g.output api.name (Package.versionDirectory api preferred)).child
      rwa [Entries.keys, List.map_map] at hp

theorem attempt?_below {w templates : Workspace} {own : Option String} {item : DirectoryItem}
    (loaded : TemplateSet.load engine templates own TemplateSet.standardFiles = .ok g.templates)
    (h : g.attempt? w item = some a) : a.Below g := by
  unfold attempt? at h
  cases hl : g.loader.description w item.discoveryRestUrl with
  | error f => rw [hl] at h; cases h
  | ok description =>
    rw [hl] at h
    cases h
    exact writtenPaths_initial item.discoveryRestUrl item.preferred loaded

theorem attempts_below {templates : Workspace} {own : Option String} {items : List DirectoryItem}
    (loaded : TemplateSet.load engine templates own TemplateSet.standardFiles = .ok g.templates) :
    ∀ a ∈ g.attempts p items, a.Below g := by
  intro a ha
  obtain ⟨w, item, hw⟩ := attempt?_of_mem ha
  exact attempt?_below loaded hw

/-- What the directory asks for changes the files as its items do. -/
theorem discover_writes {service : Option String} {all : Bool} {directory : Directory}
    {result : Except Failure (List Path)}
    (listed : g.loader.directory p.workspace g.settings.directoryUrl = .ok directory)
    (h : g.discover p service all = (after, result)) :
    let asked := p.report
      (.info "Discovering Google services..." :: Loader.records g.settings.directoryUrl)
    let tried := g.attempts asked
      (DirectoryItem.plan all (directory.items.filter (g.admits service)))
    p.Writes after (tried.flatMap (·.whole)) (tried.flatMap (·.paths)) ∧
      ∀ paths, result = .ok paths →
        paths = tried.flatMap (·.paths) ∧ paths = tried.flatMap (·.whole) := by
  intro asked tried
  have horigin : ∀ r ∈ LogRecord.info "Discovering Google services..." ::
      Loader.records g.settings.directoryUrl, r.origin ≠ .output := by
    rintro r (_ | ⟨_, hr⟩)
    · exact nofun
    · exact Loader.origin_records r hr
  rw [discover_of_listed listed] at h
  dsimp only at h
  split at h
  next hempty =>
    have hnone : tried = [] := by
      change g.attempts asked (DirectoryItem.plan all _) = []
      rw [List.isEmpty_iff.mp hempty]
      rfl
    cases h
    rw [hnone]
    exact ⟨p.writes_report horigin, nofun⟩
  next =>
    obtain ⟨hw, hpaths⟩ := processItems_writes h
    exact ⟨.of_report horigin hw, hpaths⟩

/-- What a run writes is written for items of the listing, for each in its own turn and below the
directory that its description and its flag give. A file that was cut off counts as written;
where nothing fails all of them are whole and are returned. None of the paths is written for two
items exactly if they are apart; where names and versions are names of files, these alone decide. -/
theorem discover_disjoint_iff {service : Option String} {all : Bool} {directory : Directory}
    {templates : Workspace} {own : Option String} {result : Except Failure (List Path)}
    (loaded : TemplateSet.load engine templates own TemplateSet.standardFiles = .ok g.templates)
    (listed : g.loader.directory p.workspace g.settings.directoryUrl = .ok directory)
    (h : g.discover p service all = (after, result)) :
    let asked := p.report
      (.info "Discovering Google services..." :: Loader.records g.settings.directoryUrl)
    let items := DirectoryItem.plan all (directory.items.filter (g.admits service))
    let attempts := g.attempts asked items
    (attempts.map (·.item)).Subperm directory.items ∧
    p.Writes after (attempts.flatMap (·.whole)) (attempts.flatMap (·.paths)) ∧
    (∀ paths, result = .ok paths →
      paths = attempts.flatMap (·.paths) ∧ paths = attempts.flatMap (·.whole)) ∧
    (∀ a ∈ attempts, a.Below g) ∧
    (attempts.Pairwise (fun a b => a.paths.Disjoint b.paths) ↔ attempts.Pairwise (·.Apart g ·)) ∧
    ∀ a ∈ attempts, ∀ b ∈ attempts, a.Named → b.Named →
      (a.Apart g b ↔
        (a.paths ≠ [] → b.paths ≠ [] → ¬ (a.name = b.name ∧ a.version? = b.version?))) := by
  intro asked items attempts
  obtain ⟨hw, hpaths⟩ := discover_writes listed h
  have hbelow : ∀ a ∈ attempts, a.Below g := attempts_below loaded
  have hitems : (attempts.map (·.item)).Subperm directory.items :=
    ((attempts_items g asked items).subperm.trans (DirectoryItem.plan_subperm all _)).trans
      List.filter_sublist.subperm
  have hiff : ∀ {a b}, a ∈ attempts → b ∈ attempts → (a.paths.Disjoint b.paths ↔ a.Apart g b) :=
    fun ha hb => Attempt.disjoint_iff (hbelow _ ha) (hbelow _ hb)
  refine ⟨hitems, hw, hpaths, hbelow, ?_, fun a _ b _ ha hb => Attempt.apart_iff ha hb⟩
  exact ⟨fun hd => hd.imp_of_mem fun ha hb => (hiff ha hb).mp,
    fun hd => hd.imp_of_mem fun ha hb => (hiff ha hb).mpr⟩

end Generator

/-! Two versions of one API. The listing prefers the first one, and the second one too or not. -/

namespace Editions

def first : String := "\x7b\"name\":\"a\",\"version\":\"x\"\x7d"

def second : String := "\x7b\"name\":\"a\",\"version\":\"y\"\x7d"

def listed (version url preferred : String) : String :=
  "\x7b\"name\":\"a\",\"version\":\"" ++ version ++ "\",\"discoveryRestUrl\":\"" ++ url ++
    "\",\"preferred\":" ++ preferred ++ "\x7d"

def listing (both : Bool) : String :=
  "\x7b\"items\":[" ++ listed "x" "x.json" "true" ++ "," ++
    listed "y" "y.json" (if both then "true" else "false") ++ "]\x7d"

def start (both : Bool) : Progress := .start
  ⟨⟨[(["list.json"], .file (Utf8.encode (listing both))),
    (["x.json"], .file (Utf8.encode first)),
    (["y.json"], .file (Utf8.encode second))]⟩, []⟩

def generator : Generator :=
  { Chat.generator with settings := { Chat.generator.settings with directoryUrl := "list.json" } }

theorem templates_loaded : TemplateSet.load TemplatePiece.engine Chat.start.workspace none
    TemplateSet.standardFiles = .ok generator.templates := Chat.templates_loaded

def item (version url : String) (preferred : Bool) : DirectoryItem :=
  ⟨none, none, "a", version, none, none, url, none, preferred⟩

def items (both : Bool) : List DirectoryItem := [item "x" "x.json" true, item "y" "y.json" both]

def api (version : String) : Description :=
  { Description.blank "a" version with kind := some Description.defaultKind }

theorem directory (both : Bool) :
    generator.loader.directory (start both).workspace generator.settings.directoryUrl =
      .ok ⟨some Directory.defaultKind, none, items both⟩ := by
  have hfields : (generator.loader.directory (start both).workspace
      generator.settings.directoryUrl).map (fun d => (d.kind, d.discoveryVersion, d.items)) =
      .ok (some Directory.defaultKind, none, items both) := by
    cases both <;> decide +kernel
  obtain ⟨⟨kind, discoveryVersion, items⟩, hd, he⟩ := Outcomes.map_eq_ok_iff.mp hfields
  cases he
  exact hd

theorem loaded {w : Workspace} {document version url : String}
    (hparsed : Json.parse document.toList =
      .ok (.object [("name", .string "a"), ("version", .string version)]))
    (hweb : ':' ∉ url.toList)
    (hfile : w.contains (generator.loader.base.join (Path.ofString url)) = true)
    (htext : w.readText (generator.loader.base.join (Path.ofString url)) = .ok document.toList) :
    generator.loader.description w url = .ok (api version) := by
  rw [Loader.description, Loader.load, Loader.read_of_file (Url.isWebAddress_of_not_mem hweb) hfile
    htext hparsed]
  rfl

theorem first_parsed : Json.parse first.toList =
    .ok (.object [("name", .string "a"), ("version", .string "x")]) := by cbv

theorem second_parsed : Json.parse second.toList =
    .ok (.object [("name", .string "a"), ("version", .string "y")]) := by cbv

def declarations (version url : String) : String :=
  Declarations.Outline.text (api version).normalize (generator.settings.declarationOptions url)
    ⟨[], [], []⟩

def stub (version : String) : String := Stub.text (api version).normalize []

theorem declarations_eq (version url : String) :
    Declarations.render (api version).normalize (generator.settings.declarationOptions url) =
      .ok (declarations version url) := by
  have ho : Declarations.Outline.of (api version).normalize
      (generator.settings.declarationOptions url).excludedResources = .ok ⟨[], [], []⟩ := rfl
  rw [Declarations.render_eq, ho, declarations]
  rfl

theorem stub_eq (version : String) : Stub.render (api version).normalize = .ok (stub version) := by
  rw [Stub.render_eq]; rfl

/-- All files of a version. -/
def save (p : Progress) (version url : String) (preferred : Bool) :
    Progress × Except Failure (List Path) :=
  (Generator.rendered p (api version).normalize url).saveFiles generator.medium
    (Package.directory generator.output (api version).normalize.name
      (Package.versionDirectory (api version).normalize preferred))
    (Package.files generator.templates (api version).normalize preferred
      [(Package.declarationsName, declarations version url),
        (Package.stubName (api version).normalize, stub version)])

theorem processed_of_saved {p : Progress} {version url : String} {preferred : Bool}
    {paths : List Path} (hl : generator.loader.description p.workspace url = .ok (api version))
    (hs : (save p version url preferred).2 = .ok paths) :
    generator.process p url preferred =
      ((save p version url preferred).1.addGenerated (Package.label (api version).normalize),
        .ok (some paths)) := by
  rw [Generator.process_of_rendered hl (declarations_eq version url) (stub_eq version)]
  unfold save at hs ⊢
  dsimp only
  generalize Progress.saveFiles _ _ _ _ = outcome at hs ⊢
  obtain ⟨saved, result⟩ := outcome
  cases hs
  rfl

theorem processed {p : Progress} {version url : String} {preferred : Bool}
    (hl : generator.loader.description p.workspace url = .ok (api version))
    (hs : (save p version url preferred).2.map List.length = .ok 5) :
    ∃ paths, paths.length = 5 ∧ generator.process p url preferred =
      ((save p version url preferred).1.addGenerated (Package.label (api version).normalize),
        .ok (some paths)) := by
  obtain ⟨paths, hpaths, hlength⟩ := Outcomes.map_eq_ok_iff.mp hs
  exact ⟨paths, hlength, processed_of_saved hl hpaths⟩

def asked (both : Bool) : Progress := (start both).report
  (.info "Discovering Google services..." :: Loader.records generator.settings.directoryUrl)

theorem saved (both : Bool) :
    let one := save (asked both) "x" "x.json" true
    let next := one.1.addGenerated (Package.label (api "x").normalize)
    let here := generator.loader.base.join (Path.ofString "y.json")
    one.2.map List.length = .ok 5 ∧ next.workspace.contains here = true ∧
      next.workspace.readText here = .ok second.toList ∧
      (save next "y" "y.json" both).2.map List.length = .ok 5 := by
  cases both <;> decide +kernel

theorem admitted (both : Bool) : (items both).filter (generator.admits none) = items both := by
  cases both <;> decide

theorem planned (both : Bool) :
    DirectoryItem.plan true ((items both).filter (generator.admits none)) = items both := by
  cases both <;> decide

/-- Both versions are generated, each with five files. -/
theorem discovered (both : Bool) :
    ∃ after one two, one.length = 5 ∧ two.length = 5 ∧
      generator.discover (start both) none true = (after, .ok (one ++ two)) ∧
      generator.attempts (asked both) (items both) =
        [⟨item "x" "x.json" true, api "x", one, none⟩, ⟨item "y" "y.json" both, api "y", two, none⟩] := by
  obtain ⟨hone, hfile, htext, htwo⟩ := saved both
  have hx : generator.loader.description (asked both).workspace "x.json" = .ok (api "x") :=
    loaded first_parsed (by decide) (by cases both <;> decide +kernel)
      (by cases both <;> decide +kernel)
  obtain ⟨one, hlone, hpone⟩ := processed hx hone
  generalize Progress.addGenerated _ _ = next at hfile htext htwo hpone
  have hy : generator.loader.description next.workspace "y.json" = .ok (api "y") :=
    loaded second_parsed (by decide) hfile htext
  obtain ⟨two, hltwo, hptwo⟩ := processed hy htwo
  generalize Progress.addGenerated _ _ = last at hptwo
  have hfirst : generator.process (asked both) (item "x" "x.json" true).discoveryRestUrl
      (item "x" "x.json" true).preferred = (next, .ok (some one)) := hpone
  have hsecond : generator.process next (item "y" "y.json" both).discoveryRestUrl
      (item "y" "y.json" both).preferred = (last, .ok (some two)) := hptwo
  have haone : generator.attempt? (asked both).workspace (item "x" "x.json" true) =
      some ⟨item "x" "x.json" true, api "x", one, none⟩ := Generator.attempt?_of_process hx hpone
  have hatwo : generator.attempt? next.workspace (item "y" "y.json" both) =
      some ⟨item "y" "y.json" both, api "y", two, none⟩ := Generator.attempt?_of_process hy hptwo
  refine ⟨last, one, two, hlone, hltwo, ?_, ?_⟩
  · rw [Generator.discover_of_listed (directory both)]
    change (if ((items both).filter (generator.admits none)).isEmpty = true then _ else
      generator.processItems (asked both)
        (DirectoryItem.plan true ((items both).filter (generator.admits none)))) = _
    rw [planned, admitted, items]
    simp only [List.isEmpty_cons, Bool.false_eq_true, if_false, Generator.processItems_cons, hfirst,
      hsecond, Option.getD_some]
    simp [Generator.processItems]
  · rw [items, Generator.attempts_cons, haone, hfirst]
    dsimp only
    rw [Generator.attempts_cons, hatwo, hsecond]
    rfl

/-- A version that is not preferred has its own directory. -/
theorem version_kept_apart :
    ∃ after one two, generator.discover (start false) none true = (after, .ok (one ++ two)) ∧
      one.length = 5 ∧ two.length = 5 ∧ (start false).Writes after (one ++ two) (one ++ two) ∧
      one.Disjoint two := by
  obtain ⟨after, one, two, hone, htwo, h, ha⟩ := discovered false
  have hattempts : generator.attempts ((start false).report
      (.info "Discovering Google services..." :: Loader.records generator.settings.directoryUrl))
      (DirectoryItem.plan true ((items false).filter (generator.admits none))) = _ :=
    (congrArg _ (planned false)).trans ha
  obtain ⟨_, hw, hpaths, _, hdisjoint, hnamed⟩ :=
    Generator.discover_disjoint_iff templates_loaded (directory false) h
  dsimp only at hw hpaths hdisjoint hnamed
  rw [← (hpaths _ rfl).1, ← (hpaths _ rfl).2] at hw
  rw [hattempts, List.pairwise_pair, List.pairwise_pair] at hdisjoint
  rw [hattempts] at hnamed
  have hname : IsName (Text.lower "a") := by decide +kernel
  have hversion : IsName (Text.lower "y") := by decide +kernel
  have hx : Attempt.Named ⟨item "x" "x.json" true, api "x", one, none⟩ := ⟨hname, nofun⟩
  have hy : Attempt.Named ⟨item "y" "y.json" false, api "y", two, none⟩ :=
    ⟨hname, fun v hv => Option.some.inj hv ▸ hversion⟩
  have hapart := (hnamed _ (.head _) _ (.tail _ (.head _)) hx hy).mpr fun _ _ he => nomatch he.2
  exact ⟨after, one, two, h, hone, htwo, hw, by simpa using hdisjoint.mpr hapart⟩

/-- A second preferred version is written over the first one. -/
theorem both_preferred_overwritten :
    ∃ after one two, generator.discover (start true) none true = (after, .ok (one ++ two)) ∧
      generator.attempts (asked true) (items true) =
        [⟨item "x" "x.json" true, api "x", one, none⟩,
          ⟨item "y" "y.json" true, api "y", two, none⟩] ∧
      ⟨"", ["out", "gapi.client.a", "index.d.ts"]⟩ ∈ one ∧
      ⟨"", ["out", "gapi.client.a", "index.d.ts"]⟩ ∈ two := by
  obtain ⟨after, one, two, hone, htwo, h, ha⟩ := discovered true
  have hindex : ∀ a ∈ generator.attempts (asked true) (items true), a.paths ≠ [] →
      (a.target generator).child "index.d.ts" ∈ a.paths := by
    intro a hm hne
    exact Attempt.mem_of_ne_nil (Generator.attempts_below templates_loaded a hm) hne
  have hpath : (Package.directory generator.output (Text.lower "a") none).child "index.d.ts" =
    ⟨"", ["out", "gapi.client.a", "index.d.ts"]⟩ := by decide +kernel
  have hthere : ∀ version url paths, paths.length = 5 →
      (⟨item version url true, api version, paths, none⟩ : Attempt) ∈
        generator.attempts (asked true) (items true) →
      ⟨"", ["out", "gapi.client.a", "index.d.ts"]⟩ ∈ paths := by
    intro version url paths hlength hm
    have hp := hindex _ hm
    rw [Attempt.paths_of_whole] at hp
    exact hpath ▸ hp (List.ne_nil_of_length_eq_add_one hlength)
  exact ⟨after, one, two, h, ha, hthere _ _ one hone (by rw [ha]; exact .head _),
    hthere _ _ two htwo (by rw [ha]; exact .tail _ (.head _))⟩

end Editions

end ApiTypings
