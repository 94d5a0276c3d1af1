import ApiTypings.Proofs.TargetDirectories

/-! # Names that are left out

The names that are left out are looked for in the listing, before any description is there, and
nowhere else. A package has the name that its description gives, in small letters, so one of a name
that is left out comes from an item that the listing has under another name, or from an address
that the settings give instead of a listing. -/

namespace ApiTypings

/-- The address in the settings as an item: no listing names it, and it stands for its API. -/
def DirectoryItem.unlisted (url : String) : DirectoryItem :=
  ⟨none, none, "", "", none, none, url, none, true⟩

/-! ## What is listed of a run -/

namespace Attempt

def label (a : Attempt) : String := a.name ++ ":" ++ Text.lower a.description.version

/-- The attempts that have files. -/
def written (tried : List Attempt) : List Attempt := tried.filter (·.paths ≠ [])

theorem written_append (tried others : List Attempt) :
    written (tried ++ others) = written tried ++ written others := List.filter_append ..

theorem written_eq_nil {tried : List Attempt} (h : tried.flatMap (·.paths) = []) :
    written tried = [] := by
  refine List.filter_eq_nil_iff.mpr fun a ha hne => ?_
  exact of_decide_eq_true hne (List.flatMap_eq_nil_iff.mp h a ha)

theorem written_singleton {a : Attempt} (h : a.paths ≠ []) : written [a] = [a] := by
  refine List.filter_eq_self.mpr fun b hb => ?_
  rw [List.mem_singleton.mp hb]
  exact decide_eq_true h

/-- A file tells by its directory which name the package has, if that is the name of a file. -/
theorem name_of_path {g : Generator} {a : Attempt} {path : Path} {name : String}
    {rest : List String} (hb : a.Below g) (hn : a.Named) (hp : path ∈ a.paths)
    (h : path.parts = g.output.parts ++ Naming.packageName name :: rest) : name = a.name := by
  have hfile : ∃ file, Path.IsName file ∧ path = (a.target g).child file := by
    rcases hb.cases hp with rfl | ⟨file, hf, rfl⟩
    · exact ⟨_, @Package.isName_stubName a.description.normalize hn.1, rfl⟩
    · exact ⟨file, (fixedNames_plain file hf).1, rfl⟩
  obtain ⟨file, hfile, rfl⟩ := hfile
  rw [Path.child_of_isName _ hfile, target_eq hn] at h
  dsimp only at h
  rw [List.append_assoc, List.append_cancel_left_eq, List.cons_append, List.cons.injEq] at h
  simpa [Naming.packageName] using h.1.symm

end Attempt

namespace Generator

variable {g : Generator} {p after : Progress} {item : DirectoryItem} {items : List DirectoryItem}
  {a : Attempt}

/-- Packages are listed in the order of the attempts, up to one whose files are not all there. -/
structure Lists (p after : Progress) (ended : Prop) (tried listed : List Attempt) : Prop where
  generated : after.generated = p.generated ++ listed.map (·.label)
  initial : listed <+: Attempt.written tried
  all : ended → listed = Attempt.written tried

theorem Lists.append {mid : Progress} {ended : Prop} {first second listed : List Attempt}
    (hf : Lists p mid True first (Attempt.written first))
    (hs : Lists mid after ended second listed) :
    Lists p after ended (first ++ second) (Attempt.written first ++ listed) := by
  refine ⟨?_, ?_, fun he => ?_⟩
  · rw [hs.generated, hf.generated, List.append_assoc, List.map_append]
  · rw [Attempt.written_append]
    exact (List.prefix_append_right_inj _).mpr hs.initial
  · rw [Attempt.written_append, hs.all he]

theorem lists_nothing {ended : Prop} {tried : List Attempt} (h : after.generated = p.generated)
    (hw : ended → Attempt.written tried = []) : Lists p after ended tried [] := by
  refine ⟨?_, List.nil_prefix, fun he => (hw he).symm⟩
  rw [h]
  exact (List.append_nil _).symm

/-- A package that is complete has files. -/
theorem writePackage_ne_nil {api : Description} {url : String} {preferred : Bool}
    {paths : List Path} (h : g.writePackage p api url preferred = (after, .ok (some paths))) :
    paths ≠ [] := by
  cases writePackage_packaging h with
  | @saved records declarations stub _ _ _ hw =>
    have hs := ((p.report records).saveFiles_saves g.medium
      (Package.directory g.output api.name (Package.versionDirectory api preferred))
      (Package.files g.templates api preferred
        [(Package.declarationsName, declarations), (Package.stubName api, stub)])).result
    rw [hw] at hs
    obtain ⟨hfiles, _, rfl⟩ := hs
    intro he
    rw [List.map_eq_nil_iff.mp he] at hfiles
    cases hfiles

/-- What one item lists is its attempt if all files are there. -/
theorem process_lists {result : Except Failure (Option (List Path))}
    (h : g.process p item.discoveryRestUrl item.preferred = (after, result)) :
    let tried := (g.attempt? p.workspace item).toList
    match result with
    | .ok _ => Lists p after True tried (Attempt.written tried)
    | .error _ => Lists p after False tried [] := by
  intro tried
  have hpaths := (process_writes h).2
  cases result with
  | error f =>
    obtain ⟨description, hl⟩ := loaded_of_process h nofun
    exact lists_nothing (stopped_of_loaded hl h).generated nofun
  | ok outcome =>
    have hp := hpaths outcome rfl
    cases outcome with
    | none =>
      have hnone : Attempt.written tried = [] := Attempt.written_eq_nil hp.1.symm
      rw [hnone]
      exact lists_nothing (skipped_of_process h).generated fun _ => hnone
    | some paths =>
      obtain ⟨description, hl⟩ := loaded_of_process h nofun
      have hpackaged := packaged_of_loaded hl h
      have hne : paths ≠ [] := by
        rw [process_of_loaded hl] at h
        exact writePackage_ne_nil h
      have htried : tried = [⟨item, description, paths, none⟩] := by
        change (g.attempt? p.workspace item).toList = _
        rw [attempt?_of_process hl h]
        rfl
      have hwritten : Attempt.written tried = [⟨item, description, paths, none⟩] := by
        rw [htried]
        exact Attempt.written_singleton (by rwa [Attempt.paths_of_whole])
      exact ⟨by rw [hwritten]; exact hpackaged.generated, List.prefix_rfl, fun _ => rfl⟩

/-- What a run lists are its attempts that have files, up to one whose files are not all there. -/
theorem processItems_lists {result : Except Failure (List Path)}
    (h : g.processItems p items = (after, result)) :
    ∃ listed, Lists p after (result.isOk = true) (g.attempts p items) listed := by
  induction items generalizing p after result with
  | nil =>
    cases h
    exact ⟨[], (List.append_nil _).symm, List.nil_prefix, fun _ => rfl⟩
  | cons item rest ih =>
    rw [processItems_cons] at h
    rw [attempts_cons]
    cases hp : g.process p item.discoveryRestUrl item.preferred with
    | mk next outcome =>
      have hfirst := process_lists hp
      cases outcome with
      | error f =>
        simp only [hp] at h
        cases h
        dsimp only
        rw [List.append_nil]
        exact ⟨[], hfirst.generated, hfirst.initial, nofun⟩
      | ok outcome =>
        cases hr : g.processItems next rest with
        | mk last others =>
          obtain ⟨listed, hlisted⟩ := ih hr
          simp only [hp, hr] at h
          cases others with
          | error f =>
            cases h
            exact ⟨_, hfirst.append ⟨hlisted.generated, hlisted.initial, nofun⟩⟩
          | ok others =>
            cases h
            exact ⟨_, hfirst.append ⟨hlisted.generated, hlisted.initial, fun _ => hlisted.all rfl⟩⟩

/-! ## What the settings ask for -/

/-- What is reported before the first item, and the items. -/
def asks (g : Generator) (w : Workspace) : List LogRecord × List DirectoryItem :=
  match nonEmpty? g.settings.url with
  | some url => ([], [.unlisted url])
  | none =>
    (.info "Discovering Google services..." :: Loader.records g.settings.directoryUrl,
      match g.loader.directory w g.settings.directoryUrl with
      | .error _ => []
      | .ok directory =>
        DirectoryItem.plan g.settings.allVersions
          (directory.items.filter (g.admits g.settings.service)))

/-- The attempts of a run as the settings ask for it. -/
def tried (g : Generator) (p : Progress) : List Attempt :=
  g.attempts (p.report (g.asks p.workspace).1) (g.asks p.workspace).2

/-- The description at an address is processed as the only item. -/
theorem generate_of_url {url : String} (h : nonEmpty? g.settings.url = some url) :
    g.generate p = g.processItems p [.unlisted url] := by
  have hitem : g.process p (DirectoryItem.unlisted url).discoveryRestUrl
    (DirectoryItem.unlisted url).preferred = g.process p url true := rfl
  rw [processItems_cons, hitem]
  simp only [generate, h]
  generalize g.process p url true = x
  obtain ⟨next, f | outcome⟩ := x
  · rfl
  · simp only [processItems, List.append_nil]

/-- A run goes through the items that are asked for. If there is none it may fail at the end. -/
theorem generate_runs {result : Except Failure (List Path)} (h : g.generate p = (after, result)) :
    ∃ outcome, g.processItems (p.report (g.asks p.workspace).1) (g.asks p.workspace).2 =
      (after, outcome) ∧ ∀ paths, result = .ok paths → outcome = .ok paths := by
  unfold asks
  cases hu : nonEmpty? g.settings.url with
  | some url =>
    have hnone : p.report [] = p := by rw [Progress.report, List.append_nil]
    rw [generate_of_url hu] at h
    dsimp only
    rw [hnone]
    exact ⟨_, h, fun _ he => he⟩
  | none =>
    simp only [generate, hu] at h
    dsimp only
    cases hl : g.loader.directory p.workspace g.settings.directoryUrl with
    | error f =>
      have hf : g.loader.directory (p.report (.info "Discovering Google services..." ::
        Loader.records g.settings.directoryUrl)).workspace g.settings.directoryUrl = .error f := hl
      simp only [discover, hf] at h
      cases h
      exact ⟨_, rfl, by simp⟩
    | ok directory =>
      rw [discover_of_listed hl] at h
      dsimp only at h ⊢
      split at h
      next hempty =>
        cases h
        rw [List.isEmpty_iff.mp hempty]
        exact ⟨_, rfl, by simp⟩
      next => exact ⟨_, h, fun _ he => he⟩

/-! ## Names that are left out -/

/-- An item of the listing that is not left out. -/
def Admitted (g : Generator) (w : Workspace) (item : DirectoryItem) : Prop :=
  ∃ directory, g.loader.directory w g.settings.directoryUrl = .ok directory ∧
    item ∈ directory.items ∧ item.name ∉ g.settings.excludedApis

theorem admitted_of_asks {w : Workspace} (listing : nonEmpty? g.settings.url = none)
    (h : item ∈ (g.asks w).2) : g.Admitted w item := by
  unfold asks at h
  rw [listing] at h
  dsimp only at h
  cases hl : g.loader.directory w g.settings.directoryUrl with
  | error f => rw [hl] at h; cases h
  | ok directory =>
    rw [hl] at h
    obtain ⟨hm, hadmits⟩ := List.mem_filter.mp ((DirectoryItem.plan_subperm ..).subset h)
    exact ⟨directory, hl, hm, (admits_iff.mp hadmits).2⟩

theorem attempt?_description {w : Workspace} (h : g.attempt? w item = some a) :
    g.loader.description w a.item.discoveryRestUrl = .ok a.description := by
  unfold attempt? at h
  cases hl : g.loader.description w item.discoveryRestUrl with
  | error f => rw [hl] at h; cases h
  | ok description => rw [hl] at h; cases h; exact hl

/-- The same run with another list of names that are left out. -/
def excluding (g : Generator) (names : List String) : Generator :=
  { g with settings := { g.settings with excludedApis := names } }

/-- The names leave out the same items of the listing. -/
def SameListed (g : Generator) (w : Workspace) (names : List String) : Prop :=
  ∀ directory, g.loader.directory w g.settings.directoryUrl = .ok directory →
    ∀ item ∈ directory.items, item.name ∈ names ↔ item.name ∈ g.settings.excludedApis

/-- A description is processed without a look at the names that are left out. -/
theorem process_excluding (names : List String) (url : String) (preferred : Bool) :
    (g.excluding names).process p url preferred = g.process p url preferred := rfl

theorem processItems_excluding (names : List String) :
    (g.excluding names).processItems p items = g.processItems p items := by
  induction items generalizing p with
  | nil => rfl
  | cons item rest ih => simp only [processItems_cons, process_excluding, ih]

theorem discover_excluding {names : List String} {service : Option String} {all : Bool}
    (h : g.SameListed p.workspace names) :
    (g.excluding names).discover p service all = g.discover p service all := by
  cases hl : g.loader.directory p.workspace g.settings.directoryUrl with
  | error f =>
    have hf : g.loader.directory (p.report (.info "Discovering Google services..." ::
      Loader.records g.settings.directoryUrl)).workspace g.settings.directoryUrl = .error f := hl
    simp only [discover, excluding, hf]
  | ok directory =>
    have hl' : (g.excluding names).loader.directory p.workspace
      (g.excluding names).settings.directoryUrl = .ok directory := hl
    have hsame : directory.items.filter ((g.excluding names).admits service) =
        directory.items.filter (g.admits service) := by
      refine List.filter_congr fun item hm => Bool.eq_iff_iff.mpr ?_
      rw [admits_iff, admits_iff]
      exact and_congr_right fun _ => not_congr (h directory hl item hm)
    rw [discover_of_listed hl, discover_of_listed hl', hsame]
    dsimp only
    rw [processItems_excluding]
    rfl

/-- Only the names of the listing are looked up, and without a listing none. -/
theorem generate_excluding {names : List String}
    (h : nonEmpty? g.settings.url = none → g.SameListed p.workspace names) :
    (g.excluding names).generate p = g.generate p := by
  have hurl : nonEmpty? (g.excluding names).settings.url = nonEmpty? g.settings.url := rfl
  unfold generate
  rw [hurl]
  cases hu : nonEmpty? g.settings.url with
  | some url => rfl
  | none => exact discover_excluding (h hu)

/-- Every package that is listed and every file that is written is that of a description found
where an item says, and files are in the directory of its name. Of the listing, only items are asked
for whose name is not left out, so a package has a name that is left out only where the listing has
another name than the one in its description has in small letters. A list that leaves out the same
items makes no difference, and where no listing is asked for no list does. -/
theorem generate_left_out {engine : TemplateEngine} {templates : Workspace} {own : Option String}
    {result : Except Failure (List Path)}
    (loaded : TemplateSet.load engine templates own TemplateSet.standardFiles = .ok g.templates)
    (h : g.generate p = (after, result)) :
    p.Writes after ((g.tried p).flatMap (·.whole)) ((g.tried p).flatMap (·.paths)) ∧
    (∃ listed, Lists p after (result.isOk = true) (g.tried p) listed) ∧
    (∀ a ∈ g.tried p, a.Below g ∧
      (∃ w, g.loader.description w a.item.discoveryRestUrl = .ok a.description) ∧
      (a.Named → ∀ path ∈ a.paths, ∀ name rest,
        path.parts = g.output.parts ++ Naming.packageName name :: rest → name = a.name)) ∧
    (nonEmpty? g.settings.url = none →
      (∀ a ∈ g.tried p, g.Admitted p.workspace a.item) ∧
      ∀ a ∈ g.tried p, Text.lower a.description.name ∈ g.settings.excludedApis →
        Text.lower a.description.name ≠ a.item.name) ∧
    ∀ names, (nonEmpty? g.settings.url = none → g.SameListed p.workspace names) →
      (g.excluding names).generate p = (after, result) := by
  obtain ⟨outcome, hrun, hok⟩ := generate_runs h
  obtain ⟨listed, hlisted⟩ := processItems_lists hrun
  have horigin : ∀ r ∈ (g.asks p.workspace).1, r.origin ≠ .output := by
    unfold asks
    split
    · exact nofun
    · rintro r (_ | ⟨_, hr⟩)
      · exact nofun
      · exact Loader.origin_records r hr
  refine ⟨.of_report horigin (processItems_writes hrun).1, ⟨listed, ?_⟩, fun a ha => ?_, ?_,
    fun names hsame => (generate_excluding hsame).trans h⟩
  · refine ⟨hlisted.generated, hlisted.initial, fun he => hlisted.all ?_⟩
    cases result with
    | error f => cases he
    | ok paths => rw [hok paths rfl]; rfl
  · obtain ⟨w, item, hw⟩ := attempt?_of_mem ha
    have hb := attempts_below loaded a ha
    exact ⟨hb, ⟨w, attempt?_description hw⟩, fun hn _ hp _ _ he => Attempt.name_of_path hb hn hp he⟩
  · intro listing
    have hadmitted : ∀ a ∈ g.tried p, g.Admitted p.workspace a.item := fun a ha =>
      admitted_of_asks listing ((attempts_items g _ _).subset (List.mem_map_of_mem ha))
    refine ⟨hadmitted, fun a ha hout hname => ?_⟩
    obtain ⟨_, _, _, hkept⟩ := hadmitted a ha
    exact hkept (hname ▸ hout)

end Generator

/-! One description that the listing has under its own name and under another. One of the names is
left out. -/

namespace Renamed

open Editions (api save)

def entry (name : String) : String :=
  "\x7b\"name\":\"" ++ name ++ "\",\"version\":\"x\",\"discoveryRestUrl\":\"x.json\"," ++
    "\"preferred\":true\x7d"

def listing : String := "\x7b\"items\":[" ++ entry "a" ++ "," ++ entry "b" ++ "]\x7d"

def start : Progress := .start
  ⟨⟨[(["list.json"], .file (Utf8.encode listing)),
    (["x.json"], .file (Utf8.encode Editions.first))]⟩, []⟩

/-- Is the name in the description left out, or the other one? -/
def generator (own : Bool) : Generator := Editions.generator.excluding [if own then "a" else "b"]

/-- The description is asked for without the listing. -/
def addressed : Generator :=
  { generator true with settings := { (generator true).settings with url := some "x.json" } }

def item (name : String) : DirectoryItem :=
  ⟨none, none, name, "x", none, none, "x.json", none, true⟩

def kept (own : Bool) : DirectoryItem := item (if own then "b" else "a")

theorem directory (own : Bool) :
    (generator own).loader.directory start.workspace (generator own).settings.directoryUrl =
      .ok ⟨some Directory.defaultKind, none, [item "a", item "b"]⟩ := by
  have hfields : (Editions.generator.loader.directory start.workspace "list.json").map
      (fun d => (d.kind, d.discoveryVersion, d.items)) =
      .ok (some Directory.defaultKind, none, [item "a", item "b"]) := by decide +kernel
  obtain ⟨⟨kind, discoveryVersion, items⟩, hd, he⟩ := Outcomes.map_eq_ok_iff.mp hfields
  cases he
  exact hd

def asked : Progress := start.report
  (.info "Discovering Google services..." :: Loader.records "list.json")

theorem unlisted (own : Bool) : nonEmpty? (generator own).settings.url = none := rfl

theorem admitted (own : Bool) : [item "a", item "b"].filter
    ((generator own).admits (generator own).settings.service) = [kept own] := by
  cases own <;> decide

theorem planned (own : Bool) : DirectoryItem.plan (generator own).settings.allVersions [kept own] =
    [kept own] := by
  cases own <;> decide

theorem asks (own : Bool) : (generator own).asks start.workspace =
    (.info "Discovering Google services..." :: Loader.records "list.json", [kept own]) := by
  unfold Generator.asks
  rw [unlisted, directory]
  dsimp only
  rw [admitted, planned]
  rfl

theorem loaded : Editions.generator.loader.description start.workspace "x.json" = .ok (api "x") :=
  Editions.loaded Editions.first_parsed (by decide) (by decide +kernel) (by decide +kernel)

def index : Path := ⟨"", ["out", "gapi.client.a", "index.d.ts"]⟩

theorem saved : ∀ p ∈ [start, asked],
    (save p "x" "x.json" true).2.map (fun paths => decide (index ∈ paths)) = .ok true := by
  decide +kernel

theorem label : Package.label (api "x").normalize = "a:x" := by decide +kernel

/-- The package of the description, before the listing has been asked for or after. -/
theorem processed {p : Progress} (hp : p ∈ [start, asked]) :
    ∃ after paths, Editions.generator.process p "x.json" true = (after, .ok (some paths)) ∧
      after.generated = ["a:x"] ∧ index ∈ paths := by
  have hw : p.workspace = start.workspace := by
    rcases List.mem_pair.mp hp with rfl | rfl <;> rfl
  have hg : p.generated = [] := by rcases List.mem_pair.mp hp with rfl | rfl <;> rfl
  have hl := hw ▸ loaded
  obtain ⟨paths, hpaths, hm⟩ := Outcomes.map_eq_ok_iff.mp (saved p hp)
  have hprocess := Editions.processed_of_saved hl hpaths
  refine ⟨_, paths, hprocess, ?_, of_decide_eq_true hm⟩
  rw [(Generator.packaged_of_loaded hl hprocess).generated, hg]
  exact congrArg (fun label => [label]) label

/-- The package is generated whichever of the names is left out. -/
theorem generated (own : Bool) :
    ∃ after paths, (generator own).generate start = (after, .ok paths) ∧
      after.generated = ["a:x"] ∧ index ∈ paths ∧
      (generator own).tried start = [⟨kept own, api "x", paths, none⟩] := by
  obtain ⟨after, paths, h, hgenerated, hm⟩ := processed (.tail _ (.head _))
  have hprocess : (generator own).process asked (kept own).discoveryRestUrl
      (kept own).preferred = (after, .ok (some paths)) := h
  have hattempt : (generator own).attempt? asked.workspace (kept own) =
    some ⟨kept own, api "x", paths, none⟩ := Generator.attempt?_of_process loaded hprocess
  refine ⟨after, paths, ?_, hgenerated, hm, ?_⟩
  · simp only [Generator.generate, unlisted]
    rw [Generator.discover_of_listed (directory own)]
    dsimp only
    rw [admitted, planned, if_neg (by simp)]
    change (generator own).processItems asked [kept own] = _
    simp only [Generator.processItems, hprocess, Option.getD_some, List.append_nil]
  · rw [Generator.tried, asks]
    change (generator own).attempts asked [kept own] = _
    rw [Generator.attempts_cons, hattempt, hprocess]
    rfl

/-- With the other name left out, all files that are written are those of the name that is kept. -/
theorem other_left_out :
    ∃ after paths, (generator false).generate start = (after, .ok paths) ∧
      after.generated = ["a:x"] ∧ start.Writes after paths paths ∧
      ∀ path ∈ paths, ∀ rest, path.parts ≠ "out" :: Naming.packageName "b" :: rest := by
  obtain ⟨after, paths, h, hgenerated, _, htried⟩ := generated false
  have ht : TemplateSet.load TemplatePiece.engine Chat.start.workspace none
    TemplateSet.standardFiles = .ok (generator false).templates := Editions.templates_loaded
  obtain ⟨hw, _, hattempts, _⟩ := Generator.generate_left_out ht h
  rw [htried] at hw hattempts
  obtain ⟨_, _, hfiles⟩ := hattempts _ (.head _)
  rw [Attempt.paths_of_whole] at hfiles
  have hname : Path.IsName (Text.lower "a") := by decide +kernel
  have hother : "b" ≠ Text.lower "a" := by decide +kernel
  exact ⟨after, paths, h, hgenerated, by simpa [Attempt.whole] using hw, fun path hp rest he =>
    hother (hfiles ⟨hname, nofun⟩ path hp "b" rest he)⟩

/-- The package is generated, whatever is left out. -/
def Generates (g : Generator) : Prop :=
  ∃ after paths, g.generate start = (after, .ok paths) ∧ after.generated = ["a:x"] ∧
    ⟨"", ["out", "gapi.client.a", "index.d.ts"]⟩ ∈ paths

/-- The name in the description is left out. The package is generated all the same if the listing
has another name for it, and if it is asked for by its address. -/
theorem own_generated :
    (generator true).settings.excludedApis = ["a"] ∧ Generates (generator true) ∧
      addressed.settings.excludedApis = ["a"] ∧ Generates addressed := by
  refine ⟨rfl, ?_, rfl, ?_⟩
  · obtain ⟨after, paths, h, hgenerated, hm, _⟩ := generated true
    exact ⟨after, paths, h, hgenerated, hm⟩
  · obtain ⟨after, paths, h, hgenerated, hm⟩ := processed (.head _)
    have hprocess : addressed.process start "x.json" true = (after, .ok (some paths)) := h
    have hurl : nonEmpty? addressed.settings.url = some "x.json" := by decide
    refine ⟨after, paths, ?_, hgenerated, hm⟩
    simp only [Generator.generate, hurl, hprocess, Option.getD_some]

end Renamed

end ApiTypings
