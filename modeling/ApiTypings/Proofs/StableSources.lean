import ApiTypings.Loading
import ApiTypings.Proofs.PartialPackages
import ApiTypings.Proofs.ResolvedPaths

/-! # Sources that stay as they are

While files are written directories are made, and a path that goes through one of them comes to lead
somewhere. A path that goes up only from places that were there before leads to a file exactly if it
led to that file before. So a description that none of the writing is about is found as before, or
is not found as before. -/

namespace ApiTypings

namespace FileTree

variable {s t : FileTree} {here l : Location} {names : List String}

/-- Whatever is there is in a directory. -/
def Grounded (t : FileTree) : Prop :=
  ∀ l name, t.node? (l ++ [name]) ≠ none → t.node? l = some .directory

theorem grounded_of_nodes (h : ∀ e ∈ t.nodes, t.node? e.1.dropLast = some .directory) :
    t.Grounded := by
  intro l name hn
  obtain ⟨node, hnode⟩ := Option.ne_none_iff_exists'.mp hn
  have hlookup : t.nodes.lookup (l ++ [name]) = some node := by
    cases l with
    | nil => exact hnode
    | cons => exact hnode
  obtain ⟨front, back, hsplit, _⟩ := List.lookup_eq_some_iff.mp hlookup
  have hd := h (l ++ [name], node) (by rw [hsplit]; simp)
  rwa [List.dropLast_concat] at hd

theorem Grounded.directory_above (hg : t.Grounded) (h : t.node? (l ++ names) ≠ none)
    (hn : names ≠ []) : t.node? l = some .directory := by
  induction names using List.reverseRecOn with
  | nil => exact absurd rfl hn
  | append_singleton front last ih =>
    rw [← List.append_assoc] at h
    have hfront := hg _ _ h
    by_cases hf : front = []
    · rwa [hf, List.append_nil] at hfront
    · exact ih (by rw [hfront]; exact nofun) hf

theorem walk_cons {name : String} {rest : List String} :
    t.walk here (name :: rest) = .ok l ↔
      t.node? here = some .directory ∧ t.walk (Location.step here name) rest = .ok l := by
  rw [walk, Location.step]
  simp only [beq_iff_eq]
  cases t.node? here with
  | none => simp
  | some node =>
    cases node with
    | file => simp
    | directory => exact ⟨fun h => ⟨rfl, h⟩, And.right⟩

/-- A walk to something that was there has been possible before, if it goes up only from places that
were there. -/
theorem Grounded.walk_before (hg : s.Grounded)
    (hd : ∀ k, t.node? k = some .directory → s.node? k ≠ none → s.node? k = some .directory)
    (hw : t.walk here names = .ok l) (hl : s.node? l ≠ none)
    (hup : ∀ front back, names = front ++ ".." :: back →
      ∃ m, s.walk here front = .ok m ∧ s.node? m ≠ none) : s.walk here names = .ok l := by
  induction names generalizing here with
  | nil => exact hw
  | cons name rest ih =>
    obtain ⟨hnode, hrest⟩ := walk_cons.mp hw
    refine walk_cons.mpr ⟨?_, ih hrest fun front back he => ?_⟩
    · by_cases hm : ".." ∈ name :: rest
      · obtain ⟨front, back, he⟩ := List.append_of_mem hm
        obtain ⟨m, hwalk, hthere⟩ := hup front back he
        cases front with
        | nil =>
          cases hwalk
          exact hd _ hnode hthere
        | cons first others =>
          cases he
          exact (walk_cons.mp hwalk).1
      · rw [walk_eq_follow hw, Location.follow_of_not_mem hm] at hl
        exact hg.directory_above hl (List.cons_ne_nil _ _)
    · obtain ⟨m, hwalk, hthere⟩ := hup (name :: front) back (congrArg (name :: ·) he)
      exact ⟨m, (walk_cons.mp hwalk).2, hthere⟩

end FileTree

namespace Workspace

variable {before after : Workspace} {written : List (Location × List UInt8)} {path : Path}

/-- The path goes up only from places that are there. -/
def Settled (w : Workspace) (path : Path) : Prop :=
  ∀ front back, path.parts = front ++ ".." :: back → w.contains ⟨path.root, front⟩ = true

theorem settled_of_not_mem {w : Workspace} (h : ".." ∉ path.parts) : w.Settled path := by
  intro front back he
  exact absurd (by rw [he]; simp) h

theorem read_eq_ok_iff {w : Workspace} {content : List UInt8} :
    w.read path = .ok content ↔
      ∃ l, w.locate path = .ok l ∧ w.tree.node? l = some (.file content) := by
  unfold read
  cases w.locate path with
  | error fault => exact ⟨nofun, by rintro ⟨_, h, _⟩; cases h⟩
  | ok l =>
    simp only [Except.ok.injEq, exists_eq_left']
    cases w.tree.node? l with
    | none => exact ⟨nofun, nofun⟩
    | some node => cases node <;> simp

theorem contains_iff {w : Workspace} :
    w.contains path = true ↔ ∃ l, w.locate path = .ok l ∧ w.tree.node? l ≠ none := by
  unfold contains node?
  cases w.locate path with
  | error fault => exact ⟨nofun, by rintro ⟨_, h, _⟩; cases h⟩
  | ok l => simp [Option.isSome_iff_ne_none]

theorem WroteAt.directory_before (h : before.WroteAt after written) {l : Location}
    (hd : after.tree.node? l = some .directory) (hl : before.tree.node? l ≠ none) :
    before.tree.node? l = some .directory := by
  cases hk : written.reverse.lookup l with
  | some octets =>
    rw [h.contents l octets hk] at hd
    cases hd
  | none =>
    rcases h.others.tree.others l (lookup_reverse_eq_none_iff.mp hk) with hs | ⟨hb, _⟩
    · exact hs ▸ hd
    · exact absurd hb hl

/-- A path that goes up only from places that were there leads to a file that none of the writing is
about exactly if it did. -/
theorem WroteAt.read_iff (h : before.WroteAt after written) (hg : before.tree.Grounded)
    (hs : before.Settled path) (hp : path.resolve before.directory ∉ written.map Prod.fst)
    {content : List UInt8} : after.read path = .ok content ↔ before.read path = .ok content := by
  rw [read_eq_ok_iff, read_eq_ok_iff]
  constructor
  · rintro ⟨l, hlocate, hfile⟩
    have hl := locate_eq_resolve hlocate
    rw [h.others.directory] at hl
    have hbefore := (h.file_iff (hl ▸ hp)).mp hfile
    refine ⟨l, ?_, hbefore⟩
    unfold locate at hlocate ⊢
    rw [h.others.directory] at hlocate
    refine hg.walk_before (fun k => h.directory_before) hlocate
      (by rw [hbefore]; exact nofun) fun front back he => ?_
    exact contains_iff.mp (hs front back he)
  · rintro ⟨l, hlocate, hfile⟩
    exact ⟨l, h.others.locate hlocate, (h.file_iff (locate_eq_resolve hlocate ▸ hp)).mpr hfile⟩

end Workspace

namespace Loader

variable {loader : Loader} {w before after : Workspace} {source : String}

/-- Where a source that is no web address is looked up. -/
def path (loader : Loader) (source : String) : Path := loader.base.join (Path.ofString source)

/-- The source goes up only from places that are there, and it leads to none of some locations. -/
structure Stable (loader : Loader) (w : Workspace) (source : String) (locations : List Location) :
    Prop where
  settled : w.Settled (loader.path source)
  apart : (loader.path source).resolve w.directory ∉ locations

theorem fromFile_eq_ok_iff {json : Json} :
    loader.fromFile w source = .ok json ↔
      ∃ content text, w.read (loader.path source) = .ok content ∧
        decodeText content = .ok text ∧ parse text = .ok json := by
  have hthere : ∀ content, w.read (loader.path source) = .ok content →
      w.contains (loader.path source) = true := by
    intro content h
    obtain ⟨l, hl, hf⟩ := Workspace.read_eq_ok_iff.mp h
    exact Workspace.contains_iff.mpr ⟨l, hl, by rw [hf]; exact nofun⟩
  unfold fromFile
  change (if w.contains (loader.path source) = true then
    w.readText (loader.path source) >>= parse else _) = _ ↔ _
  constructor
  · intro h
    split at h
    · obtain ⟨text, ht, hj⟩ := Outcomes.bind_eq_ok_iff.mp h
      unfold Workspace.readText at ht
      split at ht
      next content hr => exact ⟨content, text, hr, ht, hj⟩
      next => cases ht
    · cases h
  · rintro ⟨content, text, hr, hd, hj⟩
    rw [if_pos (hthere content hr)]
    refine Outcomes.bind_eq_ok_iff.mpr ⟨text, ?_, hj⟩
    rw [Workspace.readText, hr]
    exact hd

theorem load_eq_ok_iff {α : Type} {check : Json → Checked α} {a : α} :
    load check loader w source = .ok a ↔
      ∃ json, loader.read w source = .ok json ∧ check json = .valid a := by
  unfold load
  cases loader.read w source with
  | error cause => exact ⟨nofun, by rintro ⟨_, h, _⟩; cases h⟩
  | ok json =>
    simp only [Except.ok.injEq, exists_eq_left']
    cases check json <;> simp

/-- A stable source gives the description that it gave before, or none as before. -/
theorem description_iff {written : List (Location × List UInt8)} (h : before.WroteAt after written)
    (hg : before.tree.Grounded)
    (hs : Url.isWebAddress source = false → loader.Stable before source (written.map Prod.fst))
    {description : Description} :
    loader.description after source = .ok description ↔
      loader.description before source = .ok description := by
  rw [Loader.description, Loader.description, load_eq_ok_iff, load_eq_ok_iff]
  refine exists_congr fun json => and_congr_left fun _ => ?_
  unfold read
  split
  · exact Iff.rfl
  next hweb =>
    obtain ⟨hsettled, hapart⟩ := hs (Bool.eq_false_iff.mpr hweb)
    rw [fromFile_eq_ok_iff, fromFile_eq_ok_iff]
    simp only [h.read_iff hg hsettled hapart]

end Loader

end ApiTypings
