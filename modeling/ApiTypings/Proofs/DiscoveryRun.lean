import ApiTypings.Proofs.DirectoryPlan
import ApiTypings.Proofs.PartialPackages

/-! # A run over the directory

The items of a plan are processed one after another. A description that is skipped is noted and the
next one is taken, so that only a template that cannot be rendered or a file that cannot be written
ends the run before the plan does. -/

namespace ApiTypings.Generator

variable {g : Generator} {p after : Progress}

/-! ## Failures -/

/-- The failures that end a run before the plan does. -/
inductive Stops : Failure → Prop
  | unwritten (path : String) (cause : Option Cause) : Stops (.output path cause)
  | unrendered (cause : Cause) : Stops (.template cause)

theorem stops_of_stop {s : Saved} {directory : Path} {files : Entries (Except Cause String)}
    {f : Failure} (h : s.Stop directory files f) : Stops f := by
  cases h with
  | unrendered => exact .unrendered _
  | unopened => exact .unwritten _ _
  | cut => exact .unwritten _ _

/-- A description fails only where a file of its package cannot be written or has no text. -/
theorem process_failure {url : String} {preferred : Bool} {f : Failure}
    (h : g.process p url preferred = (after, .error f)) : Stops f := by
  obtain ⟨description, hl⟩ := loaded_of_process h nofun
  obtain ⟨_, _, _, _, _, hstop, _⟩ := (stopped_of_loaded hl h).written
  exact stops_of_stop hstop

/-! ## Runs -/

/-- Items are processed one after another, each with an outcome. -/
inductive Runs (g : Generator) :
    Progress → List DirectoryItem → List (Option (List Path)) → Progress → Prop
  | done {p : Progress} : Runs g p [] [] p
  | call {p next last : Progress} {item : DirectoryItem} {rest : List DirectoryItem}
      {outcome : Option (List Path)} {outcomes : List (Option (List Path))} :
      g.process p item.discoveryRestUrl item.preferred = (next, .ok outcome) →
      Runs g next rest outcomes last → Runs g p (item :: rest) (outcome :: outcomes) last

section

-- How one description is processed plays no part in how the items follow each other.
attribute [local irreducible] process

theorem processItems_cons (g : Generator) (p : Progress) (item : DirectoryItem)
    (rest : List DirectoryItem) :
    g.processItems p (item :: rest) =
      match g.process p item.discoveryRestUrl item.preferred with
      | (failed, .error f) => (failed, .error f)
      | (next, .ok paths?) =>
        match g.processItems next rest with
        | (failed, .error f) => (failed, .error f)
        | (done, .ok paths) => (done, .ok (paths?.getD [] ++ paths)) := rfl

/-- The items are all processed, or one of them stops the run. -/
theorem processItems_runs {items : List DirectoryItem} {result : Except Failure (List Path)}
    (h : g.processItems p items = (after, result)) :
    (∃ f, Stops f ∧ result = .error f) ∨
      ∃ outcomes, Runs g p items outcomes after ∧ result = .ok (outcomes.flatMap (·.getD [])) := by
  induction items generalizing p after result with
  | nil =>
    cases h
    exact .inr ⟨[], .done, rfl⟩
  | cons item rest ih =>
    rw [processItems_cons] at h
    cases hp : g.process p item.discoveryRestUrl item.preferred with
    | mk next outcome =>
      cases outcome with
      | error f =>
        simp only [hp] at h
        cases h
        exact .inl ⟨f, process_failure hp, rfl⟩
      | ok outcome =>
        cases hr : g.processItems next rest with
        | mk last others =>
          simp only [hp, hr] at h
          rcases ih hr with ⟨f, hf, rfl⟩ | ⟨outcomes, hruns, rfl⟩
          · cases h
            exact .inl ⟨f, hf, rfl⟩
          · cases h
            exact .inr ⟨outcome :: outcomes, .call hp hruns, rfl⟩

end

/-! ## What is noted -/

/-- Where the descriptions that were skipped were found. -/
def skippedUrls (items : List DirectoryItem) (outcomes : List (Option (List Path))) :
    List String :=
  ((items.zip outcomes).filter (·.2.isNone)).map (·.1.discoveryRestUrl)

theorem process_notes {url : String} {preferred : Bool} {outcome : Option (List Path)}
    (h : g.process p url preferred = (after, .ok outcome)) :
    match outcome with
    | none => after.generated = p.generated ∧ after.skipped = p.skipped ++ [url]
    | some _ =>
      (∃ label, after.generated = p.generated ++ [label]) ∧ after.skipped = p.skipped := by
  cases outcome with
  | none =>
    have hs := skipped_of_process h
    exact ⟨hs.generated, hs.skipped⟩
  | some paths =>
    obtain ⟨description, hl⟩ := loaded_of_process h nofun
    have hp := packaged_of_loaded hl h
    exact ⟨⟨_, hp.generated⟩, hp.skipped⟩

/-- Every item leaves one note: a label if it was generated, its address if it was skipped. -/
theorem Runs.notes {items : List DirectoryItem} {outcomes : List (Option (List Path))}
    (h : Runs g p items outcomes after) :
    outcomes.length = items.length ∧ after.skipped = p.skipped ++ skippedUrls items outcomes ∧
      ∃ labels, after.generated = p.generated ++ labels ∧
        labels.length + (skippedUrls items outcomes).length = items.length := by
  induction h with
  | done => exact ⟨rfl, (List.append_nil _).symm, [], (List.append_nil _).symm, rfl⟩
  | @call p next last item rest outcome outcomes hp _ ih =>
    obtain ⟨hl, hs, labels, hg, hn⟩ := ih
    have hnotes := process_notes hp
    refine ⟨congrArg Nat.succ hl, ?_⟩
    cases outcome with
    | none =>
      obtain ⟨hg', hs'⟩ := hnotes
      have hu : skippedUrls (item :: rest) (none :: outcomes) =
        item.discoveryRestUrl :: skippedUrls rest outcomes := rfl
      refine ⟨?_, labels, by rw [hg, hg'], ?_⟩
      · rw [hs, hs', hu, List.append_assoc, List.singleton_append]
      · rw [hu, List.length_cons, List.length_cons, ← hn, Nat.add_assoc]
    | some paths =>
      obtain ⟨⟨label, hg'⟩, hs'⟩ := hnotes
      have hu : skippedUrls (item :: rest) (some paths :: outcomes) =
        skippedUrls rest outcomes := rfl
      refine ⟨by rw [hs, hs', hu], label :: labels, ?_, ?_⟩
      · rw [hg, hg', List.append_assoc, List.singleton_append]
      · rw [hu, List.length_cons, List.length_cons, ← hn, Nat.add_right_comm]

/-! ## The whole run -/

theorem admits_iff {service : Option String} {item : DirectoryItem} :
    g.admits service item = true ↔
      (∀ name ∈ service, item.name = name) ∧ item.name ∉ g.settings.excludedApis := by
  cases service <;> simp [admits]

theorem discover_of_listed {service : Option String} {all : Bool} {directory : Directory}
    (h : g.loader.directory p.workspace g.settings.directoryUrl = .ok directory) :
    g.discover p service all =
      let asked := p.report
        (.info "Discovering Google services..." :: Loader.records g.settings.directoryUrl)
      let admitted := directory.items.filter (g.admits service)
      if admitted.isEmpty then (asked, .error (.serviceNotFound service))
      else g.processItems asked (DirectoryItem.plan all admitted) := by
  have hl : g.loader.directory (p.report (.info "Discovering Google services..." ::
    Loader.records g.settings.directoryUrl)).workspace g.settings.directoryUrl = .ok directory := h
  simp only [discover, hl]

/-- Where the directory is loaded and neither a file nor a template fails, a run processes the items
that pass the filter as they are planned, each once and whatever becomes of the others. Without such
an item nothing is asked for but the directory. -/
theorem discover_outcome {service : Option String} {all : Bool} {directory : Directory}
    {result : Except Failure (List Path)}
    (listed : g.loader.directory p.workspace g.settings.directoryUrl = .ok directory)
    (h : g.discover p service all = (after, result))
    (written : ∀ path cause, result ≠ .error (.output path cause))
    (rendered : ∀ cause, result ≠ .error (.template cause)) :
    let admitted := directory.items.filter (g.admits service)
    let asked := p.report
      (.info "Discovering Google services..." :: Loader.records g.settings.directoryUrl)
    (∀ item, item ∈ admitted ↔ item ∈ directory.items ∧ (∀ name ∈ service, item.name = name) ∧
      item.name ∉ g.settings.excludedApis) ∧
    (admitted = [] → after = asked ∧ result = .error (.serviceNotFound service)) ∧
    (admitted ≠ [] → ∃ calls outcomes, DirectoryItem.IsPlan all admitted calls ∧
      (all = true → calls.Perm admitted) ∧ Runs g asked calls outcomes after ∧
      result = .ok (outcomes.flatMap (·.getD [])) ∧
      after.skipped = p.skipped ++ skippedUrls calls outcomes ∧
      ∃ labels, after.generated = p.generated ++ labels ∧
        labels.length + (skippedUrls calls outcomes).length = calls.length) := by
  intro admitted asked
  rw [discover_of_listed listed] at h
  refine ⟨fun item => by rw [List.mem_filter, admits_iff], ?_, ?_⟩
  · intro he
    have hi : admitted.isEmpty = true := by rw [he]; rfl
    simp only [admitted] at hi
    simp only [hi, if_true] at h
    cases h
    exact ⟨rfl, rfl⟩
  · intro hne
    have hi : admitted.isEmpty = false := by simpa using hne
    simp only [admitted] at hi
    simp only [hi, Bool.false_eq_true, if_false] at h
    rcases processItems_runs h with ⟨f, hf, he⟩ | ⟨outcomes, hr, rfl⟩
    · cases hf with
      | unwritten path cause => exact absurd he (written path cause)
      | unrendered cause => exact absurd he (rendered cause)
    · obtain ⟨_, hs, hg⟩ := hr.notes
      refine ⟨_, outcomes, DirectoryItem.plan_isPlan all admitted, ?_, hr, rfl, hs, hg⟩
      rintro rfl
      exact DirectoryItem.plan_all_perm admitted

/-! A version that is listed twice, with a description that is not there. -/

namespace Relisted

def document : String :=
  "\x7b\"items\":[\x7b\"name\":\"a\",\"version\":\"b\",\"discoveryRestUrl\":\"c\"\x7d," ++
    "\x7b\"name\":\"a\",\"version\":\"b\",\"discoveryRestUrl\":\"c\"\x7d]\x7d"

def entry : Json :=
  .object [("name", .string "a"), ("version", .string "b"), ("discoveryRestUrl", .string "c")]

def item : DirectoryItem := ⟨none, none, "a", "b", none, none, "c", none, false⟩

def directory : Directory := ⟨some Directory.defaultKind, none, [item, item]⟩

def start : Progress := .start ⟨⟨[(["list.json"], .file (Utf8.encode document))]⟩, []⟩

def generator : Generator where
  settings := { Settings.defaults with directoryUrl := "list.json" }
  loader := ⟨fun _ => .unreachable "no network", true, ⟨"/", []⟩⟩
  templates := []

theorem parsed :
    Json.parse document.toList = .ok (.object [("items", .array [entry, entry])]) := by cbv

theorem listed :
    generator.loader.directory start.workspace generator.settings.directoryUrl =
      .ok directory := by
  change Loader.load _ _ _ "list.json" = _
  rw [Loader.load, Loader.read_of_file (Url.isWebAddress_of_not_mem (by decide)) (by decide)
    (by decide) parsed]
  rfl

theorem skips (p : Progress) (h : p.workspace = start.workspace) :
    ∃ next, generator.process p item.discoveryRestUrl item.preferred = (next, .ok none) ∧
      next.workspace = start.workspace := by
  have hweb : Url.isWebAddress "c" = false := Url.isWebAddress_of_not_mem (by decide)
  have hfile : start.workspace.contains
      (generator.loader.base.join (Path.ofString "c")) = false := by decide
  obtain ⟨f, hf⟩ : ∃ f, generator.loader.description p.workspace "c" = .error f := by
    rw [h, Loader.description, Loader.load]
    simp [Loader.read, hweb, Loader.fromFile, hfile, throw, throwThe, MonadExceptOf.throw]
  exact ⟨_, process_of_error hf, h⟩

theorem discovered : ∃ after, generator.discover start none true = (after, .ok []) := by
  have hadmitted : directory.items.filter (generator.admits none) = [item, item] := by decide
  have hplan : DirectoryItem.plan true [item, item] = [item, item] := by decide
  rw [discover_of_listed listed]
  obtain ⟨first, hfirst, hw⟩ := skips (start.report
    (.info "Discovering Google services..." :: Loader.records generator.settings.directoryUrl)) rfl
  obtain ⟨second, hsecond, _⟩ := skips first hw
  refine ⟨second, ?_⟩
  simp only [hadmitted, hplan, List.isEmpty_cons, Bool.false_eq_true, if_false, processItems_cons,
    hfirst, hsecond]
  rfl

/-- Equal items are processed each for itself. -/
theorem both_processed :
    ∃ after calls outcomes, generator.discover start none true = (after, .ok []) ∧
      calls.Perm [item, item] ∧
      Runs generator (start.report (.info "Discovering Google services..." ::
        Loader.records generator.settings.directoryUrl)) calls outcomes after := by
  obtain ⟨after, h⟩ := discovered
  have hadmitted : directory.items.filter (generator.admits none) = [item, item] := by decide
  obtain ⟨calls, outcomes, _, hperm, hruns, _⟩ :=
    (discover_outcome listed h nofun nofun).2.2 (by rw [hadmitted]; exact List.cons_ne_nil _ _)
  exact ⟨after, calls, outcomes, h, hadmitted ▸ hperm rfl, hruns⟩

end Relisted

end ApiTypings.Generator
