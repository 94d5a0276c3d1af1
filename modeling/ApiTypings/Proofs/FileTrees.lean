import ApiTypings.Files.Output

/-! # What writing changes

To write a file is to make the directories above it that are missing and to set one location. All
else in the tree stays, so a path that led to a directory leads there still, and files that are
written one after another do not disturb each other. -/

namespace ApiTypings

namespace FileTree

variable {s t u : FileTree}

theorem lookup_node_cons (l k : Location) (n : Node) (nodes : List (Location × Node)) :
    ((l, n) :: nodes).lookup k = if k = l then some n else nodes.lookup k := by
  rw [List.lookup_cons]
  by_cases hk : k = l
  · rw [if_pos hk, hk, beq_self_eq_true]
  · rw [if_neg hk, beq_false_of_ne hk]

theorem lookup_setIn (l k : Location) (n : Node) (nodes : List (Location × Node)) :
    (setIn l n nodes).lookup k = if k = l then some n else nodes.lookup k := by
  induction nodes with
  | nil => exact lookup_node_cons l k n []
  | cons e rest ih =>
    obtain ⟨m, old⟩ := e
    simp only [setIn]
    split
    next hm =>
      cases eq_of_beq hm
      rw [lookup_node_cons, lookup_node_cons]
      split <;> rfl
    next hm =>
      rw [lookup_node_cons, lookup_node_cons, ih]
      by_cases hk : k = m
      · rw [if_pos hk, if_pos hk, if_neg fun hl => hm (beq_iff_eq.mpr (hk.symm.trans hl))]
      · rw [if_neg hk, if_neg hk]

theorem node?_set {l : Location} (hl : l ≠ []) (n : Node) (k : Location) :
    (t.set l n).node? k = if k = l then some n else t.node? k := by
  cases k with
  | nil => rw [if_neg hl.symm]; rfl
  | cons name rest => exact lookup_setIn l _ n t.nodes

/-! ## Trees with more in them -/

/-- Directories are where they were. Outside of some locations nothing else has changed but that
there are directories where nothing was. -/
structure Extends (written : List Location) (before after : FileTree) : Prop where
  directories : ∀ l, before.node? l = some .directory → after.node? l = some .directory
  others : ∀ l, l ∉ written → after.node? l = before.node? l ∨
    before.node? l = none ∧ after.node? l = some .directory

theorem Extends.refl (t : FileTree) : Extends [] t t := ⟨fun _ h => h, fun _ _ => .inl rfl⟩

theorem Extends.trans {xs ys : List Location} (hst : Extends xs s t) (htu : Extends ys t u) :
    Extends (xs ++ ys) s u := by
  refine ⟨fun l h => htu.directories l (hst.directories l h), fun l hl => ?_⟩
  obtain ⟨hx, hy⟩ := not_or.mp (mt List.mem_append.mpr hl)
  rcases hst.others l hx with hs | ⟨hs, ht⟩
  · rcases htu.others l hy with hu | ⟨ht, hu⟩
    · exact .inl (hu.trans hs)
    · exact .inr ⟨hs ▸ ht, hu⟩
  · exact .inr ⟨hs, htu.directories l ht⟩

theorem extends_directory {l : Location} (h : t.node? l = none) :
    Extends [] t (t.set l .directory) := by
  have hl : l ≠ [] := fun he => by rw [he] at h; cases h
  refine ⟨fun k hk => ?_, fun k _ => ?_⟩ <;> rw [node?_set hl]
  · split
    · rfl
    · exact hk
  · split
    next hk => exact .inr ⟨hk ▸ h, rfl⟩
    next => exact .inl rfl

theorem extends_file {l : Location} (h : t.node? l ≠ some .directory) (content : List UInt8) :
    Extends [l] t (t.set l (.file content)) := by
  have hl : l ≠ [] := fun he => h (by rw [he]; rfl)
  refine ⟨fun k hk => ?_, fun k hn => ?_⟩ <;> rw [node?_set hl]
  · rw [if_neg fun he : k = l => h (he ▸ hk)]
    exact hk
  · exact .inl (if_neg fun he => hn (List.mem_singleton.mpr he))

/-! ## Walks -/

/-- A walk goes through directories, so it goes the same way in a tree that has more. -/
theorem Extends.walk {xs : List Location} (h : Extends xs s t) {here l : Location}
    {names : List String} (hw : s.walk here names = .ok l) : t.walk here names = .ok l := by
  induction names generalizing here with
  | nil => exact hw
  | cons name rest ih =>
    rw [FileTree.walk] at hw ⊢
    cases hn : s.node? here with
    | none => rw [hn] at hw; cases hw
    | some n =>
      cases n with
      | file => rw [hn] at hw; cases hw
      | directory =>
        rw [hn] at hw
        rw [h.directories here hn]
        exact ih hw

/-- The last step of a walk starts at a directory. -/
theorem walk_concat {here l : Location} {names : List String} {name : String}
    (hname : name ≠ "..") :
    t.walk here (names ++ [name]) = .ok l ↔
      ∃ m, t.walk here names = .ok m ∧ t.node? m = some .directory ∧ l = m ++ [name] := by
  induction names generalizing here with
  | nil =>
    rw [List.nil_append, FileTree.walk, FileTree.walk]
    cases hn : t.node? here with
    | none => simp [hn]
    | some n =>
      cases n with
      | file => simp [hn]
      | directory =>
        simp only [FileTree.walk, beq_iff_eq, if_neg hname, Except.ok.injEq]
        exact ⟨fun he => ⟨here, rfl, hn, he.symm⟩, by rintro ⟨_, rfl, _, rfl⟩; rfl⟩
  | cons first rest ih =>
    rw [List.cons_append, FileTree.walk, FileTree.walk]
    cases hn : t.node? here with
    | none => simp
    | some n =>
      cases n with
      | file => simp
      | directory => exact ih

/-- Two dots lead from a directory to the one that it is in. -/
theorem walk_up {here l : Location} {names : List String} (hw : t.walk here names = .ok l)
    (hd : t.node? l = some .directory) : t.walk here (names ++ [".."]) = .ok l.dropLast := by
  induction names generalizing here with
  | nil =>
    cases hw
    rw [List.nil_append, FileTree.walk, hd]
    rfl
  | cons first rest ih =>
    rw [FileTree.walk] at hw
    rw [List.cons_append, FileTree.walk]
    cases hn : t.node? here with
    | none => rw [hn] at hw; cases hw
    | some n =>
      cases n with
      | file => rw [hn] at hw; cases hw
      | directory =>
        rw [hn] at hw
        exact ih hw

end FileTree

namespace Workspace

variable {v w x : Workspace}

/-- The same directory to start from, and a tree with more in it. -/
structure Extends (written : List Location) (before after : Workspace) : Prop where
  directory : after.directory = before.directory
  tree : before.tree.Extends written after.tree

theorem Extends.refl (w : Workspace) : Extends [] w w := ⟨rfl, .refl _⟩

theorem Extends.trans {xs ys : List Location} (hvw : Extends xs v w) (hwx : Extends ys w x) :
    Extends (xs ++ ys) v x := ⟨hwx.directory.trans hvw.directory, hvw.tree.trans hwx.tree⟩

theorem Extends.locate {xs : List Location} (h : Extends xs v w) {p : Path} {l : Location}
    (hl : v.locate p = .ok l) : w.locate p = .ok l := by
  rw [Workspace.locate] at hl ⊢
  rw [h.directory]
  exact h.tree.walk hl

theorem locate_concat {root name : String} {parts : List String} {l : Location}
    (hname : name ≠ "..") :
    w.locate ⟨root, parts ++ [name]⟩ = .ok l ↔
      ∃ here, w.locate ⟨root, parts⟩ = .ok here ∧ w.tree.node? here = some .directory ∧
        l = here ++ [name] := FileTree.walk_concat hname

theorem locate_up {root name : String} {parts : List String} {here : Location}
    (hl : w.locate ⟨root, parts⟩ = .ok (here ++ [name]))
    (hd : w.tree.node? (here ++ [name]) = some .directory) :
    w.locate ⟨root, parts ++ [".."]⟩ = .ok here := by
  have hup := FileTree.walk_up hl hd
  rwa [List.dropLast_concat] at hup

/-! ## Making directories -/

theorem makeDirectory_extends {medium : Medium} {p : Path}
    (h : w.makeDirectory medium p = .ok x) : Extends [] w x := by
  unfold makeDirectory at h
  split at h
  · cases h
  · split at h
    · cases h
    next hn =>
      split at h
      · cases h
        exact ⟨rfl, FileTree.extends_directory (by simpa using hn)⟩
      · cases h

theorem makeIfMissing_extends (w : Workspace) (medium : Medium) (p : Path) :
    Extends [] w (w.makeIfMissing medium p).1 := by
  unfold makeIfMissing
  split
  next h => exact makeDirectory_extends h
  next => split <;> exact .refl w

/-- Whatever it comes to, making directories changes nothing that is there. -/
theorem makeUpward_extends (w : Workspace) (medium : Medium) (root : String)
    (names : List String) : Extends [] w (w.makeUpward medium root names).1 := by
  induction names with
  | nil => exact .refl w
  | cons name above ih =>
    rw [makeUpward]
    split
    · generalize w.makeUpward medium root above = outcome at ih
      obtain ⟨made, _ | e⟩ := outcome
      · exact ih.trans (makeIfMissing_extends made medium _)
      · exact ih
    · exact makeIfMissing_extends w medium _

/-! ## Writing a file -/

/-- A file has these octets, and nothing else has changed but that directories were made. -/
structure Puts (before after : Workspace) (l : Location) (octets : List UInt8) : Prop where
  content : after.tree.node? l = some (.file octets)
  others : before.Extends [l] after

theorem puts_put {l : Location} (h : w.tree.node? l ≠ some .directory) (octets : List UInt8) :
    w.Puts (w.put l octets) l octets := by
  have hl : l ≠ [] := fun he => h (by rw [he]; rfl)
  refine ⟨?_, rfl, FileTree.extends_file h octets⟩
  rw [put, FileTree.node?_set hl, if_pos rfl]

/-- What has become of a file when writing it ends: all of the content is there, nothing has
changed, or a beginning of the content is there. -/
inductive WriteEnd (before after : Workspace) (path : Path) (content : List UInt8) :
    Option WriteError → Prop
  | whole {l : Location} : after.locate path = .ok l → before.Puts after l content →
      WriteEnd before after path content none
  | unopened {e : PathError} : before.Extends [] after →
      WriteEnd before after path content (some (.unopened e))
  | cut {l : Location} {fault : DeviceFault} {taken : Nat} : after.locate path = .ok l →
      before.Puts after l (content.take taken) →
      WriteEnd before after path content (some (.cut fault taken))

theorem WriteEnd.of_extends {path : Path} {content : List UInt8} {e? : Option WriteError}
    (hm : v.Extends [] w) (h : WriteEnd w x path content e?) : WriteEnd v x path content e? := by
  cases h with
  | whole hl hp => exact .whole hl ⟨hp.content, hm.trans hp.others⟩
  | unopened he => exact .unopened (hm.trans he)
  | cut hl hp => exact .cut hl ⟨hp.content, hm.trans hp.others⟩

theorem write_end (w : Workspace) (medium : Medium) (path : Path) (content : List UInt8) :
    WriteEnd w (w.write medium path content).1 path content
      (w.write medium path content).2 := by
  unfold write
  cases hl : w.locate path with
  | error fault => exact .unopened (.refl w)
  | ok l =>
    dsimp only
    split
    · exact .unopened (.refl w)
    next hd =>
      have hd : w.tree.node? l ≠ some .directory := fun he => hd (beq_iff_eq.mpr he)
      cases medium.writing w path content with
      | none => exact .whole ((puts_put hd content).others.locate hl) (puts_put hd content)
      | some e =>
        cases e with
        | unopened => exact .unopened (.refl w)
        | cut fault taken =>
          have hp := puts_put hd (content.take taken)
          exact .cut (hp.others.locate hl) hp

/-- The space comes to an end behind two octets. -/
example :
    let w : Workspace := ⟨⟨[(["a"], .file [1, 2, 3])]⟩, []⟩
    let medium : Medium := { Medium.lasting with writing := fun _ _ _ => some (.cut .full 2) }
    (w.write medium ⟨"", ["a"]⟩ [4, 5, 6]).1.tree.files = [(["a"], [4, 5])] := by decide

end Workspace

namespace OutputFile

variable {medium : Medium} {w saved : Workspace}

theorem save_end (medium : Medium) (w : Workspace) (path : Path) (text : String) :
    Workspace.WriteEnd w (save medium w path text).1 path (Utf8.encode text)
      (save medium w path text).2 := by
  have hm : w.Extends [] (w.makeDirectories medium path.parent).1 := w.makeUpward_extends ..
  unfold save
  generalize w.makeDirectories medium path.parent = outcome at hm
  obtain ⟨made, _ | e⟩ := outcome
  · exact .of_extends hm (made.write_end medium path _)
  · exact .unopened hm

/-- A file below a directory is at a location below that of the directory. -/
theorem save_child {root name content : String} {parts : List String} (hname : name ≠ "..")
    (h : save medium w ⟨root, parts ++ [name]⟩ content = (saved, none)) :
    ∃ here, saved.locate ⟨root, parts⟩ = .ok here ∧
      saved.tree.node? here = some .directory ∧
      w.Puts saved (here ++ [name]) (Utf8.encode content) := by
  have he := save_end medium w ⟨root, parts ++ [name]⟩ content
  rw [h] at he
  cases he with
  | whole hl hp =>
    obtain ⟨here, hhere, hd, rfl⟩ := (Workspace.locate_concat hname).mp hl
    exact ⟨here, hhere, hd, hp⟩

end OutputFile

end ApiTypings
