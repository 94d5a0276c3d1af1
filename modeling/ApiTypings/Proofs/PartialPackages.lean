import ApiTypings.Proofs.PackageWriting

/-! # What is left of a package that fails

The files of a package are written one after another, and nothing is taken back. When one of them
cannot be written, those before it are there. It is as it was if it could not be opened, and holds a
beginning of its text if it could; those behind it are not touched, and apart from directories
nothing else has changed. A template that cannot be rendered changes no other files than those of
the package before it. -/

namespace ApiTypings

namespace Workspace

variable {before mid after : Workspace}

/-- Octets have been written at locations, in this order. -/
structure WroteAt (before after : Workspace) (written : List (Location × List UInt8)) : Prop where
  /-- Where two are at one location the later one is there. -/
  contents : ∀ l octets, written.reverse.lookup l = some octets →
    after.tree.node? l = some (.file octets)
  others : before.Extends (written.map Prod.fst) after

theorem WroteAt.of_extends (h : before.Extends [] after) : before.WroteAt after [] := ⟨nofun, h⟩

theorem Puts.wroteAt {l : Location} {octets : List UInt8} (h : before.Puts after l octets) :
    before.WroteAt after [(l, octets)] := by
  refine ⟨fun k other hk => ?_, h.others⟩
  obtain ⟨_, _, hsplit, _⟩ := List.lookup_eq_some_iff.mp hk
  have hmem : (k, other) ∈ [(l, octets)].reverse := by rw [hsplit]; simp
  cases List.mem_singleton.mp hmem
  exact h.content

theorem lookup_reverse_eq_none_iff {written : List (Location × List UInt8)} {l : Location} :
    written.reverse.lookup l = none ↔ l ∉ written.map Prod.fst := by
  rw [List.lookup_eq_none_iff]
  simp only [List.mem_reverse, bne_iff_ne, List.mem_map, not_exists, not_and]
  exact forall₂_congr fun _ _ => ne_comm

/-- Files stay while others are written, unless one of those is written over them. -/
theorem WroteAt.append {first second : List (Location × List UInt8)}
    (hb : before.WroteAt mid first) (h : mid.WroteAt after second) :
    before.WroteAt after (first ++ second) := by
  refine ⟨fun k octets hk => ?_, List.map_append ▸ hb.others.trans h.others⟩
  rw [List.reverse_append, List.lookup_append] at hk
  cases hlater : second.reverse.lookup k with
  | some later =>
    rw [hlater] at hk
    cases hk
    exact h.contents k _ hlater
  | none =>
    rw [hlater, Option.none_or] at hk
    have hm := hb.contents k octets hk
    rcases h.others.tree.others k (lookup_reverse_eq_none_iff.mp hlater) with hs | ⟨hs, _⟩
    · exact hs.trans hm
    · rw [hm] at hs; cases hs

/-- A file that none of the writing is about is there exactly if it was. -/
theorem WroteAt.file_iff {written : List (Location × List UInt8)}
    (h : before.WroteAt after written) {l : Location} (hl : l ∉ written.map Prod.fst)
    {content : List UInt8} :
    after.tree.node? l = some (.file content) ↔ before.tree.node? l = some (.file content) := by
  rcases h.others.tree.others l hl with hs | ⟨hb, ha⟩
  · rw [hs]
  · rw [hb, ha]
    exact ⟨nofun, nofun⟩

/-- No file is new or differs exactly if what was written had been there. -/
theorem WroteAt.files_same_iff {written : List (Location × List UInt8)}
    (h : before.WroteAt after written) :
    (∀ l content, after.tree.node? l = some (.file content) ↔
        before.tree.node? l = some (.file content)) ↔
      ∀ l octets, written.reverse.lookup l = some octets →
        before.tree.node? l = some (.file octets) := by
  constructor
  · intro hsame l octets hl
    exact (hsame l _).mp (h.contents l octets hl)
  · intro hthere l content
    cases hl : written.reverse.lookup l with
    | some octets => rw [h.contents l octets hl, hthere l octets hl]
    | none => exact h.file_iff (lookup_reverse_eq_none_iff.mp hl)

/-! ## Files saved in turn -/

/-- Each file is where its name below the directory leads, with its octets. -/
def SavedIn (before after : Workspace) (directory : Path) (files : Entries (List UInt8)) : Prop :=
  ∃ written : List (Location × List UInt8),
    List.Forall₂ (fun file w => after.locate (directory.child file.1) = .ok w.1 ∧ w.2 = file.2)
      files written ∧ before.WroteAt after written

theorem SavedIn.of_extends {directory : Path} (h : before.Extends [] after) :
    before.SavedIn after directory [] := ⟨[], .nil, .of_extends h⟩

/-- A file stays where it is while others are saved. -/
theorem SavedIn.cons {directory : Path} {files : Entries (List UInt8)} {name : String}
    {octets : List UInt8} {l : Location} (hl : mid.locate (directory.child name) = .ok l)
    (hp : before.Puts mid l octets) (h : mid.SavedIn after directory files) :
    before.SavedIn after directory ((name, octets) :: files) := by
  obtain ⟨written, hf, hw⟩ := h
  exact ⟨(l, octets) :: written, .cons ⟨hw.others.locate hl, rfl⟩ hf, hp.wroteAt.append hw⟩

end Workspace

/-- What has become of files that are written one after another: those that are there as a whole,
and what there is of the next one if it was cut off. -/
structure Saved where
  whole : Entries String
  part : Option (String × List UInt8)

namespace Saved

/-- All that has been written, in order. -/
def contents (s : Saved) : Entries (List UInt8) := s.whole.mapValues Utf8.encode ++ s.part.toList

/-- Why no more files are written behind those that are there. -/
inductive Stop (directory : Path) (files : Entries (Except Cause String)) (s : Saved) :
    Failure → Prop
  | unrendered {name : String} {cause : Cause} {rest : Entries (Except Cause String)} :
      files = s.whole.mapValues .ok ++ (name, .error cause) :: rest → s.part = none →
      Stop directory files s (.template cause)
  | unopened {name text : String} {e : PathError} {rest : Entries (Except Cause String)} :
      files = s.whole.mapValues .ok ++ (name, .ok text) :: rest → s.part = none →
      Stop directory files s (.output (directory.child name).text (some e.cause))
  | cut {name text : String} {fault : DeviceFault} {taken : Nat}
      {rest : Entries (Except Cause String)} :
      files = s.whole.mapValues .ok ++ (name, .ok text) :: rest →
      s.part = some (name, (Utf8.encode text).take taken) →
      Stop directory files s
        (.output (directory.child name).text (some (WriteError.cut fault taken).cause))

variable {directory : Path} {files : Entries (Except Cause String)} {s : Saved} {f : Failure}

theorem Stop.cons (e : String × String) (h : s.Stop directory files f) :
    Stop directory ((e.1, .ok e.2) :: files) { s with whole := e :: s.whole } f := by
  cases h with
  | unrendered hf hp => exact .unrendered (congrArg (_ :: ·) hf) hp
  | unopened hf hp => exact .unopened (congrArg (_ :: ·) hf) hp
  | cut hf hp => exact .cut (congrArg (_ :: ·) hf) hp

end Saved

/-- What there is of files that are written one after another, each when it has its text. -/
def Workspace.saved (w : Workspace) (medium : Medium) (directory : Path) :
    Entries (Except Cause String) → Saved
  | [] => ⟨[], none⟩
  | (_, .error _) :: _ => ⟨[], none⟩
  | (name, .ok text) :: rest =>
    match OutputFile.save medium w (directory.child name) text with
    | (_, some (.unopened _)) => ⟨[], none⟩
    | (_, some (.cut _ taken)) => ⟨[], some (name, (Utf8.encode text).take taken)⟩
    | (next, none) =>
      let others := next.saved medium directory rest
      { others with whole := (name, text) :: others.whole }

/-- What is written are the first of the files, whatever becomes of them. -/
theorem Workspace.saved_prefix (w : Workspace) (medium : Medium) (directory : Path)
    (files : Entries (Except Cause String)) :
    Entries.keys (w.saved medium directory files).contents <+: Entries.keys files := by
  induction files generalizing w with
  | nil => exact List.prefix_rfl
  | cons e rest ih =>
    obtain ⟨name, cause | text⟩ := e
    · exact List.nil_prefix
    · rw [saved]
      split
      · exact List.nil_prefix
      · exact List.cons_prefix_cons.mpr ⟨rfl, List.nil_prefix⟩
      next next _ => exact List.cons_prefix_cons.mpr ⟨rfl, ih next⟩

namespace Progress

variable {p after : Progress} {medium : Medium} {directory : Path}
  {files : Entries (Except Cause String)}

/-- Files have been saved up to the first that cannot be, and each that is whole is reported. -/
structure Saves (p after : Progress) (result : Except Failure (List Path)) (directory : Path)
    (files : Entries (Except Cause String)) (s : Saved) : Prop where
  workspace : p.workspace.SavedIn after.workspace directory s.contents
  log : after.log = p.log ++ s.whole.map fun e => OutputFile.record (directory.child e.1)
  result : match result with
    | .ok paths => files = s.whole.mapValues .ok ∧ s.part = none ∧
        paths = s.whole.map fun e => directory.child e.1
    | .error f => s.Stop directory files f

theorem saveFiles_saves (p : Progress) (medium : Medium) (directory : Path)
    (files : Entries (Except Cause String)) :
    Saves p (p.saveFiles medium directory files).1 (p.saveFiles medium directory files).2 directory
      files (p.workspace.saved medium directory files) := by
  induction files generalizing p with
  | nil => exact ⟨.of_extends (.refl _), (List.append_nil _).symm, rfl, rfl, rfl⟩
  | cons e rest ih =>
    obtain ⟨name, cause | text⟩ := e
    · rw [saveFiles_unrendered, Workspace.saved]
      exact ⟨.of_extends (.refl _), (List.append_nil _).symm, .unrendered rfl rfl⟩
    · have hend := OutputFile.save_end medium p.workspace (directory.child name) text
      rw [saveFiles_rendered, Workspace.saved, saveFile_eq]
      generalize OutputFile.save medium p.workspace (directory.child name) text = outcome
        at hend ⊢
      obtain ⟨next, e?⟩ := outcome
      cases hend with
      | unopened hx => exact ⟨.of_extends hx, (List.append_nil _).symm, .unopened rfl rfl⟩
      | cut hl hp =>
        exact ⟨.cons hl hp (.of_extends (.refl _)), (List.append_nil _).symm, .cut rfl rfl⟩
      | whole hl hp =>
        dsimp only
        have hr := ih ({ p with workspace := next }.report
          [OutputFile.record (directory.child name)])
        generalize Progress.saveFiles _ medium directory rest = x at hr ⊢
        obtain ⟨last, result⟩ := x
        obtain ⟨hsaved, hlog, hresult⟩ := hr
        have hreports := hlog.trans (List.append_assoc ..)
        cases result with
        | error f => exact ⟨.cons hl hp hsaved, hreports, hresult.cons (name, text)⟩
        | ok paths =>
          obtain ⟨hfiles, hpart, rfl⟩ := hresult
          exact ⟨.cons hl hp hsaved, hreports, congrArg ((name, .ok text) :: ·) hfiles, hpart, rfl⟩

/-- The second of three files has no text when it is its turn. -/
example :
    let outcome := (start ⟨.empty, []⟩).saveFiles .lasting ⟨"", []⟩
      [("a", .ok ""), ("b", .error ⟨.undefinedName, "nothing is there"⟩), ("c", .ok "")]
    outcome.1.workspace.tree.files = [(["a"], [])] ∧
      outcome.2 = .error (.template ⟨.undefinedName, "nothing is there"⟩) := by decide +kernel

end Progress

/-- Files have been written below a directory, each where its name leads, and nothing else has
changed but that directories were made. No file is new or differs exactly if what was written had
been there. -/
def Workspace.Left (before after : Workspace) (directory : Path)
    (contents : Entries (List UInt8)) : Prop :=
  ∃ written : List (Location × List UInt8),
    List.Forall₂ (fun file w => after.locate (directory.child file.1) = .ok w.1 ∧ w.2 = file.2)
      contents written ∧
    before.WroteAt after written ∧
    ((∀ l content, after.tree.node? l = some (.file content) ↔
        before.tree.node? l = some (.file content)) ↔
      ∀ l octets, written.reverse.lookup l = some octets →
        before.tree.node? l = some (.file octets))

theorem Workspace.SavedIn.left {before after : Workspace} {directory : Path}
    {contents : Entries (List UInt8)} (h : before.SavedIn after directory contents) :
    before.Left after directory contents := by
  obtain ⟨written, hlocated, hwrote⟩ := h
  exact ⟨written, hlocated, hwrote, hwrote.files_same_iff⟩

namespace Generator

variable {g : Generator} {p after : Progress} {url : String} {preferred : Bool} {f : Failure}

/-- All code of the package has a text, and its files are written up to one that has none or cannot
be written, which is what the failure is about. No API is noted. If it is a template that stopped
them, it is left open how many of the files before it are kept. -/
structure Stopped (g : Generator) (p after : Progress) (api : Description) (url : String)
    (preferred : Bool) (f : Failure) : Prop where
  generated : after.generated = p.generated
  skipped : after.skipped = p.skipped
  written : ∃ declarations stub,
    Declarations.render api (g.settings.declarationOptions url) = .ok declarations ∧
    Stub.render api = .ok stub ∧
    let files := ("index.d.ts", .ok declarations) ::
      ("gapi.client." ++ api.name ++ "-tests.ts", .ok stub) ::
      g.templates.map fun (name, template) => (name, template.render ⟨api, preferred⟩)
    let directory := Package.directory g.output api.name
      (if preferred then none else some api.version)
    ∃ s : Saved, s.Stop directory files f ∧
      ∃ kept, kept <+: s.contents ∧ (∀ path cause, f = .output path cause → kept = s.contents) ∧
        p.workspace.Left after.workspace directory kept

/-- What has been reported when all code of a description is rendered. -/
def rendered (p : Progress) (api : Description) (url : String) : Progress :=
  ((p.report (Loader.records url)).report [announcement api]).report
    [Package.announce .declarations "declarations" api, Package.announce .stub "usage stub" api]

/-- A description whose code can be rendered comes to what saving its files comes to. -/
theorem process_of_rendered {description : Description} {declarations stub : String}
    (hl : g.loader.description p.workspace url = .ok description)
    (hd : Declarations.render description.normalize (g.settings.declarationOptions url) =
      .ok declarations)
    (hs : Stub.render description.normalize = .ok stub) :
    g.process p url preferred =
      let api := description.normalize
      match (rendered p api url).saveFiles g.medium
        (Package.directory g.output api.name (Package.versionDirectory api preferred))
        (Package.files g.templates api preferred
          [(Package.declarationsName, declarations), (Package.stubName api, stub)]) with
      | (failed, .error f) => (failed, .error f)
      | (saved, .ok paths) => (saved.addGenerated (Package.label api), .ok (some paths)) := by
  rw [process_of_loaded hl]
  simp only [writePackage, Package.code, hd, hs]
  rfl

theorem writePackage_stopped {api : Description}
    (h : g.writePackage p api url preferred = (after, .error f)) :
    Stopped g p after api url preferred f := by
  cases writePackage_packaging h with
  | @stopped records declarations stub _ _ hc hw =>
    obtain ⟨_, _, hd, hs, he⟩ := Package.code_eq_ok hc
    cases he
    generalize hdirectory : Package.directory g.output api.name
      (Package.versionDirectory api preferred) = directory at hw
    generalize hfiles : Package.files g.templates api preferred
      [(Package.declarationsName, declarations), (Package.stubName api, stub)] = files at hw
    have hnotes := (p.report records).saveFiles_notes g.medium directory files
    have hsaves := (p.report records).saveFiles_saves g.medium directory files
    rw [hw] at hnotes hsaves
    subst hdirectory hfiles
    exact ⟨hnotes.1, hnotes.2, declarations, stub, hd, hs, _, hsaves.result, _, List.prefix_rfl,
      fun _ _ _ => rfl, hsaves.workspace.left⟩

theorem stopped_of_loaded {description : Description}
    (hl : g.loader.description p.workspace url = .ok description)
    (h : g.process p url preferred = (after, .error f)) :
    Stopped g p after description.normalize url preferred f := by
  rw [process_of_loaded hl] at h
  have hs := writePackage_stopped h
  exact ⟨hs.generated, hs.skipped, hs.written⟩

/-- A failure ends the description at one of its files. Nothing is taken back of what has been
written, which is nothing but files of the package up to that one. -/
theorem process_stopped (h : g.process p url preferred = (after, .error f)) :
    ∃ description, g.loader.description p.workspace url = .ok description ∧
      Stopped g p after description.normalize url preferred f := by
  obtain ⟨description, hl⟩ := loaded_of_process h nofun
  exact ⟨description, hl, stopped_of_loaded hl h⟩

end Generator

/-! A directory stands where the readme would be written. -/

namespace Chat

def blocked : Progress := .start
  ⟨⟨[(["chat.json"], .file (Utf8.encode document)),
    (["out"], .directory),
    (["out", "gapi.client.chat"], .directory),
    (["out", "gapi.client.chat", "v1"], .directory),
    (["out", "gapi.client.chat", "v1", "readme.md"], .directory)]⟩, []⟩

/-- The file that could not be written, and what kept it from being written. -/
def failedAt : Except Failure (List Path) → Option (String × CauseKind)
  | .error (.output path (some cause)) => some (path, cause.kind)
  | _ => none

theorem eq_of_failedAt {result : Except Failure (List Path)} {path : String} {kind : CauseKind}
    (h : failedAt result = some (path, kind)) :
    ∃ text, result = .error (.output path (some ⟨kind, text⟩)) := by
  unfold failedAt at h
  split at h
  next cause => cases h; exact ⟨cause.text, rfl⟩
  next => cases h

theorem blocked_loaded :
    generator.loader.description blocked.workspace "chat.json" = .ok api := by
  rw [Loader.description, Loader.load,
    Loader.read_of_file (Url.isWebAddress_of_not_mem (by decide)) (by decide) (by decide) parsed]
  rfl

def index : Location := ["out", "gapi.client.chat", "v1", "index.d.ts"]

theorem blocked_saved :
    let outcome := (Generator.rendered blocked api.normalize "chat.json").saveFiles generator.medium
      (Package.directory generator.output api.normalize.name
        (Package.versionDirectory api.normalize false))
      (Package.files generator.templates api.normalize false
        [(Package.declarationsName, declarations), (Package.stubName api.normalize, stub)])
    failedAt outcome.2 = some ("out/gapi.client.chat/v1/readme.md", .isDirectory) ∧
      outcome.1.workspace.tree.node? index ≠ none ∧
      outcome.1.workspace.tree.node? index ≠ some .directory := by
  decide +kernel

theorem blocked_processed :
    ∃ after text content, generator.process blocked "chat.json" false =
        (after, .error (.output "out/gapi.client.chat/v1/readme.md"
          (some ⟨.isDirectory, text⟩))) ∧
      after.workspace.tree.node? index = some (.file content) := by
  have hd : Declarations.render api.normalize
      (generator.settings.declarationOptions "chat.json") = .ok declarations := by
    rw [Declarations.render_eq]; rfl
  have hs : Stub.render api.normalize = .ok stub := by rw [Stub.render_eq]; rfl
  obtain ⟨hfailed, hthere, hfile⟩ := blocked_saved
  rw [Generator.process_of_rendered blocked_loaded hd hs]
  dsimp only at hfailed hthere hfile ⊢
  generalize Progress.saveFiles _ _ _ _ = outcome at hfailed hthere hfile ⊢
  obtain ⟨after, result⟩ := outcome
  obtain ⟨text, rfl⟩ := eq_of_failedAt hfailed
  cases hindex : after.workspace.tree.node? index with
  | none => exact absurd hindex hthere
  | some node =>
    cases node with
    | directory => exact absurd hindex hfile
    | file content => exact ⟨after, text, content, rfl, hindex⟩

/-- The readme is the only one of the files that the failure can be about. -/
theorem whole_of_stop {s : Saved} {files : Entries (Except Cause String)} {text : String}
    (hkeys : Entries.keys files = ["index.d.ts", "gapi.client.chat-tests.ts", "readme.md",
      "tsconfig.json", "tslint.json"])
    (h : s.Stop (Package.directory generator.output "chat" (some "v1")) files
      (.output "out/gapi.client.chat/v1/readme.md" (some ⟨.isDirectory, text⟩))) :
    Entries.keys s.contents = ["index.d.ts", "gapi.client.chat-tests.ts"] := by
  generalize hf : Failure.output _ _ = f at h
  cases h with
  | unrendered => cases hf
  | cut => cases (Option.some.inj (Failure.output.inj hf).2)
  | @unopened name text _ rest hfiles hpart =>
    have hsplit : Entries.keys files = Entries.keys s.whole ++ name :: Entries.keys rest := by
      rw [hfiles, Entries.keys, List.map_append, ← Entries.keys, Entries.keys_mapValues]
      rfl
    rw [hkeys] at hsplit
    have hname : name = "readme.md" := by
      have hnames : ∀ name ∈ ["index.d.ts", "gapi.client.chat-tests.ts", "readme.md",
          "tsconfig.json", "tslint.json"],
          "out/gapi.client.chat/v1/readme.md" =
            ((Package.directory generator.output "chat" (some "v1")).child name).text →
          name = "readme.md" := by decide +kernel
      exact hnames _ (by rw [hsplit]; simp) (Failure.output.inj hf).1
    have hwhole : Entries.keys s.whole = ["index.d.ts", "gapi.client.chat-tests.ts"] ∧
        Entries.keys rest = ["tsconfig.json", "tslint.json"] := by
      simpa [hname, List.cons_eq_append_iff] using hsplit
    rw [Saved.contents, hpart, Option.toList_none, List.append_nil, Entries.keys_mapValues]
    exact hwhole.1

/-- No API is noted, and the two files of code are there. -/
theorem code_kept_without_readme :
    ∃ after cause, generator.process blocked "chat.json" false =
        (after, .error (.output "out/gapi.client.chat/v1/readme.md" cause)) ∧
      after.generated = [] ∧ after.skipped = [] ∧
      ∃ done, Entries.keys done = ["index.d.ts", "gapi.client.chat-tests.ts"] ∧
        blocked.workspace.SavedIn after.workspace
          (Package.directory generator.output "chat" (some "v1")) done := by
  obtain ⟨after, text, _, h, _⟩ := blocked_processed
  obtain ⟨description, hl, hg, hs, declarations, stub, _, _, hw⟩ := Generator.process_stopped h
  cases blocked_loaded.symm.trans hl
  obtain ⟨s, hstop, kept, _, hall, written, hlocated, hwrote, _⟩ := hw
  cases hall _ _ rfl
  exact ⟨after, _, h, hg, hs, _, whole_of_stop rfl hstop, written, hlocated, hwrote⟩

/-- The declaration file was not there before. -/
theorem declarations_left_by_failure :
    ∃ after f content, generator.process blocked "chat.json" false = (after, .error f) ∧
      blocked.workspace.tree.node? index = none ∧
      after.workspace.tree.node? index = some (.file content) := by
  obtain ⟨after, _, content, h, hindex⟩ := blocked_processed
  exact ⟨after, _, content, h, by decide, hindex⟩

end Chat

end ApiTypings
