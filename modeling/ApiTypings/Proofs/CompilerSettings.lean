import ApiTypings.Proofs.JsonLayouts
import ApiTypings.Proofs.PackageWriting
import ApiTypings.Proofs.WrittenText

/-! # The settings of the compiler fit the package

Where the files of a package are, how they are called and what its settings say of both is worked
out in different places. What is written for the compiler is read as JSON that names the two files
of code beside it, and the way that it gives leads up to the output, whether or not there is a
directory for the version in between. -/

namespace ApiTypings

open Json (Layout PlainText isPlain)
open ApiTypings.Path (IsName)

namespace TemplateContext

variable {c : TemplateContext} {base stub : PlainText}

/-! ## As a JSON text -/

/-- The options for the compiler, with the directory of all packages. -/
def optionsLayout (base : PlainText) : Layout :=
  .object (.line 8) <|
    .cons ⟨"module", rfl⟩ .space (.string ⟨"commonjs", rfl⟩) (.line 8) <|
    .cons ⟨"lib", rfl⟩ .space
      (.array .none <| .cons (.string ⟨"es6", rfl⟩) .space <|
        .last (.string ⟨"dom", rfl⟩) .none) (.line 8) <|
    .cons ⟨"noImplicitAny", rfl⟩ .space (.bool true) (.line 8) <|
    .cons ⟨"noImplicitThis", rfl⟩ .space (.bool true) (.line 8) <|
    .cons ⟨"strictNullChecks", rfl⟩ .space (.bool false) (.line 8) <|
    .cons ⟨"strictFunctionTypes", rfl⟩ .space (.bool true) (.line 8) <|
    .cons ⟨"baseUrl", rfl⟩ .space (.string base) (.line 8) <|
    .cons ⟨"typeRoots", rfl⟩ .space (.array .none (.last (.string base) .none)) (.line 8) <|
    .cons ⟨"types", rfl⟩ .space (.noItems .none) (.line 8) <|
    .cons ⟨"noEmit", rfl⟩ .space (.bool true) (.line 8) <|
    .last ⟨"forceConsistentCasingInFileNames", rfl⟩ .space (.bool true) (.line 4)

def settingsLayout (base stub : PlainText) : Layout :=
  .object (.line 4) <|
    .cons ⟨"compilerOptions", rfl⟩ .space (optionsLayout base) (.line 4) <|
    .last ⟨"files", rfl⟩ .space
      (.array .none <| .cons (.string ⟨"index.d.ts", rfl⟩) .space <|
        .last (.string stub) .none) (.line 0)

set_option maxRecDepth 2000 in
theorem compilerSettings_toList (hb : base.content = c.packagesRoot)
    (hs : stub.content = Package.stubName c.api) :
    c.compilerSettings.toList = (settingsLayout base stub).text ++ (Json.Gap.line 0).chars := by
  simp only [compilerSettings, unlines, List.map_cons, List.map_nil, String.toList_join,
    List.flatMap_cons, List.flatMap_nil, String.toList_append, ← hb, Naming.packageName,
    List.append_assoc]
  simp only [settingsLayout, optionsLayout, Layout.text, Json.Members.text, Json.Items.text,
    PlainText.text, hs, Package.stubName, Naming.packageName, String.toList_append,
    List.append_assoc, List.cons_append, List.nil_append]
  -- What is left are the same characters, in longer and in shorter pieces.
  rfl

/-- The settings name these files and no others, and this way to the other packages. -/
structure Says (settings : Json) (files : List String) (base : String) : Prop where
  files : settings.get? "files" = some (.array (files.map .string))
  options : ∃ options, settings.get? "compilerOptions" = some options ∧
    options.get? "baseUrl" = some (.string base) ∧
    options.get? "typeRoots" = some (.array [.string base])

theorem says_settingsLayout (base stub : PlainText) :
    Says (settingsLayout base stub).value ["index.d.ts", stub.content] base.content :=
  ⟨rfl, (optionsLayout base).value, rfl, rfl, rfl⟩

theorem isPlain_packagesRoot (c : TemplateContext) : c.packagesRoot.toList.all isPlain = true := by
  unfold packagesRoot
  split <;> rfl

theorem isPlain_stubName {api : Description} (h : api.name.toList.all isPlain = true) :
    (Package.stubName api).toList.all isPlain = true := by
  have hstart : ("gapi.client.".toList).all isPlain = true := rfl
  have hend : ("-tests.ts".toList).all isPlain = true := rfl
  simp only [Package.stubName, Naming.packageName, String.toList_append, List.all_append, hstart,
    h, hend, Bool.and_self]

theorem parse_compilerSettings (h : c.api.name.toList.all isPlain = true) :
    ∃ settings, Json.parse c.compilerSettings.toList = .ok settings ∧
      Says settings [Package.declarationsName, Package.stubName c.api] c.packagesRoot := by
  let base : PlainText := ⟨c.packagesRoot, c.isPlain_packagesRoot⟩
  let stub : PlainText := ⟨Package.stubName c.api, isPlain_stubName h⟩
  refine ⟨(settingsLayout base stub).value, ?_, says_settingsLayout base stub⟩
  have htext : c.compilerSettings.toList =
      (settingsLayout base stub).text ++ (Json.Gap.line 0).chars := compilerSettings_toList rfl rfl
  rw [htext]
  exact (settingsLayout base stub).parse_text .none (.line 0)

theorem not_mem_compilerSettings (h : c.api.name.toList.all isPlain = true) :
    '\r' ∉ c.compilerSettings.toList := by
  have hplain : ∀ {s : String}, s.toList.all isPlain = true → '\r' ∉ s.toList := fun hs hm =>
    Bool.false_ne_true (List.all_eq_true.mp hs _ hm)
  have hb := hplain c.isPlain_packagesRoot
  have hn := hplain h
  simp only [compilerSettings, unlines, List.map_cons, List.map_nil, String.toList_join,
    List.flatMap_cons, List.flatMap_nil, String.toList_append, Naming.packageName,
    List.mem_append, not_or, hb, hn, not_false_eq_true, and_true]
  repeat' apply And.intro
  all_goals decide

end TemplateContext

/-! ## Beside the files of a package -/

namespace Package

/-- As many steps up as a package is below the output. -/
theorem child_packagesRoot (p : Path) (api : Description) (preferred : Bool) :
    p.child (TemplateContext.packagesRoot ⟨api, preferred⟩) =
      ⟨p.root, p.parts ++ if preferred then [".."] else ["..", ".."]⟩ := by
  have hone : Path.ofString "../" = ⟨"", [".."]⟩ := by decide
  have htwo : Path.ofString "../../" = ⟨"", ["..", ".."]⟩ := by decide
  cases preferred with
  | true => exact congrArg p.join hone
  | false => exact congrArg p.join htwo

/-- The way up from the directory of a package leads to the output. -/
theorem locate_packagesRoot {w : Workspace} {output : Path} {api : Description} (preferred : Bool)
    {here : Location} (hn : IsName api.name) (hv : IsName api.version)
    (hl : w.locate (directory output api.name (versionDirectory api preferred)) = .ok here)
    (hd : w.tree.node? here = some .directory) :
    ∃ root, w.locate ((directory output api.name (versionDirectory api preferred)).child
        (TemplateContext.packagesRoot ⟨api, preferred⟩)) = .ok root ∧
      w.locate output = .ok root ∧ w.tree.node? root = some .directory := by
  have hp := (Naming.isName_packageName hn).2.2.1
  rw [child_packagesRoot]
  rw [directory_eq output preferred hn hv] at hl ⊢
  cases preferred with
  | true =>
    obtain ⟨root, hroot, hdir, rfl⟩ := (Workspace.locate_concat hp).mp hl
    exact ⟨root, Workspace.locate_up hl hd, hroot, hdir⟩
  | false =>
    have hl : w.locate ⟨output.root, (output.parts ++ [Naming.packageName api.name]) ++
        [api.version]⟩ = .ok here := by rwa [List.append_assoc]
    obtain ⟨shared, hshared, hdir, rfl⟩ := (Workspace.locate_concat hv.2.2.1).mp hl
    obtain ⟨root, hroot, hdir', rfl⟩ := (Workspace.locate_concat hp).mp hshared
    have hup := Workspace.locate_up (Workspace.locate_up hl hd) hdir
    exact ⟨root, by simpa using hup, hroot, hdir'⟩

end Package

namespace Generator

variable {g : Generator} {p after : Progress} {api description : Description} {url : String}
  {preferred : Bool} {paths : List Path}

/-- The files of a package are the children of its directory. -/
theorem Packaged.children (hp : g.Packaged p after api url preferred paths)
    (ht : g.templates.OwnNames) (hn : IsName api.name) (hv : IsName api.version) :
    let directory := Package.directory g.output api.name (Package.versionDirectory api preferred)
    ∃ declarations stub, ∃ filled : Entries String,
      Declarations.render api (g.settings.declarationOptions url) = .ok declarations ∧
      Stub.render api = .ok stub ∧
      g.templates.texts ⟨api, preferred⟩ = filled.mapValues .ok ∧
      let files := (Package.declarationsName, declarations) :: (Package.stubName api, stub) ::
        filled
      paths = files.map (fun e => directory.child e.1) ∧
      (∀ e ∈ files, after.workspace.read (directory.child e.1) = .ok (Utf8.encode e.2)) ∧
      ∃ here, after.workspace.locate directory = .ok here ∧
        after.workspace.tree.node? here = some .directory := by
  intro directory
  obtain ⟨declarations, stub, filled, hd, hs, hfilled, hpaths, hread, here, hwrote⟩ :=
    hp.written ht hn hv
  have hdirectory : directory = ⟨g.output.root, g.output.parts ++ Naming.packageName api.name ::
      if preferred then [] else [api.version]⟩ := Package.directory_eq g.output preferred hn hv
  have hnames := @Package.isName_files g.templates api preferred declarations stub ht hn
  rw [Package.files_of_texts preferred hfilled, Entries.keys_mapValues] at hnames
  have hchild : ∀ e ∈ (Package.declarationsName, declarations) :: (Package.stubName api, stub) ::
      filled, directory.child e.1 = ⟨directory.root, directory.parts ++ [e.1]⟩ := fun e he =>
    Path.child_of_isName directory (hnames _ (List.mem_map_of_mem he))
  rw [hdirectory] at hchild ⊢
  refine ⟨declarations, stub, filled, hd, hs, hfilled,
    hpaths.trans (List.map_congr_left fun e he => ?_), fun e he => ?_, here, hwrote.located,
    hwrote.directory⟩
  · exact (hchild e he).symm
  · rw [hchild e he]
    exact hread e he

/-- What a package holds for the compiler is read as JSON. It names the files of the declarations
and of the stub, and no others of the five that are in its directory, and the way up that it gives
ends at the output. -/
theorem compilerSettings_fit {engine : TemplateEngine} {w : Workspace}
    (ht : TemplateSet.load engine w none TemplateSet.standardFiles = .ok g.templates)
    (hl : g.loader.description p.workspace url = .ok description)
    (hn : IsName description.normalize.name) (hv : IsName description.normalize.version)
    (hplain : description.normalize.name.toList.all isPlain = true)
    (h : g.process p url preferred = (after, .ok (some paths))) :
    let api := description.normalize
    let directory := Package.directory g.output api.name (Package.versionDirectory api preferred)
    paths = [directory.child Package.declarationsName, directory.child (Package.stubName api),
      directory.child "readme.md", directory.child "tsconfig.json",
      directory.child "tslint.json"] ∧
    (∃ code, Declarations.render api (g.settings.declarationOptions url) = .ok code ∧
      after.workspace.read (directory.child Package.declarationsName) = .ok (Utf8.encode code)) ∧
    (∃ code, Stub.render api = .ok code ∧
      after.workspace.read (directory.child (Package.stubName api)) = .ok (Utf8.encode code)) ∧
    ∃ text settings base root,
      after.workspace.readText (directory.child "tsconfig.json") = .ok text ∧
      Json.parse text = .ok settings ∧
      TemplateContext.Says settings [Package.declarationsName, Package.stubName api] base ∧
      after.workspace.locate (directory.child base) = .ok root ∧
      after.workspace.locate g.output = .ok root ∧
      after.workspace.tree.node? root = some .directory := by
  intro api directory
  have hp := packaged_of_loaded hl h
  obtain ⟨declarations, stub, filled, hd, hs, hfilled, hpaths, hread, here, hlocated,
    hdirectory⟩ := hp.children (TemplateSet.ownNames_of_load ht) hn hv
  cases Package.ok_mapValues_injective ((TemplateSet.texts_of_load ht _).symm.trans hfilled)
  have hwritten := hread ("tsconfig.json", _) (.tail _ (.tail _ (.tail _ (.head _))))
  have htext : after.workspace.readText (directory.child "tsconfig.json") =
      .ok (TemplateContext.compilerSettings ⟨api, preferred⟩).toList := by
    rw [Workspace.readText, hwritten]
    exact decodeText_encode (TemplateContext.not_mem_compilerSettings hplain)
  obtain ⟨settings, hparse, hsays⟩ :=
    TemplateContext.parse_compilerSettings (c := ⟨api, preferred⟩) hplain
  obtain ⟨root, hup, houtput, hroot⟩ :=
    Package.locate_packagesRoot preferred hn hv hlocated hdirectory
  exact ⟨hpaths, ⟨declarations, hd, hread (_, _) (.head _)⟩,
    ⟨stub, hs, hread (_, _) (.tail _ (.head _))⟩,
    _, settings, _, root, htext, hparse, hsays, hup, houtput, hroot⟩

end Generator

/-- Of a version that is not the preferred one. -/
theorem Chat.settings_of_version :
    ∃ (after : Progress) (paths : List Path) (text : List Char) (settings : Json) (base : String)
        (root : Location),
      generator.process start "chat.json" false = (after, .ok (some paths)) ∧
      after.workspace.readText ⟨"", ["out", "gapi.client.chat", "v1", "tsconfig.json"]⟩ =
        .ok text ∧
      Json.parse text = .ok settings ∧
      TemplateContext.Says settings ["index.d.ts", "gapi.client.chat-tests.ts"] base ∧
      after.workspace.locate (Path.child ⟨"", ["out", "gapi.client.chat", "v1"]⟩ base) =
        .ok root ∧
      after.workspace.locate ⟨"", ["out"]⟩ = .ok root := by
  obtain ⟨after, paths, h⟩ := processed
  obtain ⟨-, -, -, text, settings, base, root, htext, hparse, hsays, hup, houtput, -⟩ :=
    Generator.compilerSettings_fit templates_loaded loaded (by decide) (by decide) (by decide) h
  exact ⟨after, paths, text, settings, base, root, h, htext, hparse, hsays, hup, houtput⟩

end ApiTypings
