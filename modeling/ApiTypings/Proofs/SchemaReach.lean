import ApiTypings.Proofs.SchemaShape
import ApiTypings.Schema.Table
import Mathlib.Data.Finset.Card
import Mathlib.Data.Finset.SDiff
import Mathlib.Logic.Relation

/-! # Which schemas a value is made of

A value is made for the parts of a schema and for the schemas its references name. Followed freely,
references may run in circles. An expansion follows none whose name is on its path already, so each
reference it follows leaves fewer names, and it ends. Nothing is missed by that: a schema that can
be reached at all is reached on a path without repeated names. -/

namespace ApiTypings

/-- The parts that a value is made for. The type of further properties gets none where an object
lists properties of its own. -/
def Shape.valued {α : Type} : Shape α → List α
  | array items => [items]
  | object properties _ => properties.map (·.2)
  | map values => [values]
  | primitive .. | reference _ => []

theorem Shape.mem_parts_of_valued {α : Type} {shape : Shape α} {part : α}
    (h : part ∈ shape.valued) : part ∈ shape.parts := by
  cases shape with
  | object => exact List.mem_append_left _ h
  | primitive | array | map | reference => exact h

namespace SchemaTable

variable {table : SchemaTable}

theorem mem_keys_of_lookup {name : String} {schema : Schema}
    (h : table.lookup name = some schema) : name ∈ Entries.keys table :=
  List.mem_map_of_mem (Entries.mem_of_lookup h)

/-- One schema's value holds the value of another. -/
inductive Leads (table : SchemaTable) : Schema → Schema → Prop
  | part {s t : Schema} {shape : Shape Schema} : s.shape = .ok shape → t ∈ shape.valued →
      Leads table s t
  | reference {s t : Schema} {name : String} : s.shape = .ok (.reference name) →
      table.lookup name = some t → Leads table s t

/-- The same, below a path of names: a reference is followed if its name is not on the path, and
then it is. -/
inductive Opens (table : SchemaTable) : List String × Schema → List String × Schema → Prop
  | part {path : List String} {s t : Schema} {shape : Shape Schema} : s.shape = .ok shape →
      t ∈ shape.valued → Opens table (path, s) (path, t)
  | reference {path : List String} {s t : Schema} {name : String} :
      s.shape = .ok (.reference name) → name ∉ path → table.lookup name = some t →
      Opens table (path, s) (name :: path, t)

/-- Any number of steps. -/
abbrev Reaches (table : SchemaTable) : Schema → Schema → Prop := Relation.ReflTransGen (Leads table)

/-- What an expansion comes to, with the path it has then. -/
abbrev Visits (table : SchemaTable) : List String × Schema → List String × Schema → Prop :=
  Relation.ReflTransGen (Opens table)

/-! ## The end of an expansion -/

/-- How many names of a table are not on a path. -/
def unopened (table : SchemaTable) (path : List String) : Nat :=
  ((Entries.keys table).toFinset \ path.toFinset).card

/-- A name that comes onto the path leaves fewer names. -/
theorem unopened_cons {path : List String} {name : String} {schema : Schema}
    (hn : name ∉ path) (hs : table.lookup name = some schema) :
    table.unopened (name :: path) < table.unopened path := by
  apply Finset.card_lt_card
  rw [List.toFinset_cons]
  refine Finset.ssubset_iff_subset_ne.mpr ⟨Finset.sdiff_subset_sdiff le_rfl
    (Finset.subset_insert _ _), fun he => ?_⟩
  have hd : name ∈ (Entries.keys table).toFinset \ path.toFinset := by
    simp [mem_keys_of_lookup hs, hn]
  rw [← he] at hd
  simp at hd

theorem unopened_le_length (table : SchemaTable) (path : List String) :
    table.unopened path ≤ table.length := by
  calc table.unopened path
      ≤ (Entries.keys table).toFinset.card := Finset.card_le_card Finset.sdiff_subset
    _ ≤ (Entries.keys table).length := List.toFinset_card_le _
    _ = table.length := List.length_map _

/-- A step opens a name, or it goes to a smaller schema. -/
theorem Opens.decreases {a b : List String × Schema} (h : Opens table a b) :
    Prod.Lex (· < ·) (· < ·) (table.unopened b.1, sizeOf b.2)
      (table.unopened a.1, sizeOf a.2) := by
  cases h with
  | part hs ht => exact .right _ (Schema.sizeOf_part hs (Shape.mem_parts_of_valued ht))
  | reference hs hn hl => exact .left _ _ (unopened_cons hn hl)

/-- What holds of a schema below a path whenever it holds of all that the expansion steps to holds
everywhere. -/
@[elab_as_elim]
theorem expansionInduction (table : SchemaTable) {motive : List String → Schema → Prop}
    (step : ∀ path s, (∀ path' t, Opens table (path, s) (path', t) → motive path' t) →
      motive path s)
    (path : List String) (s : Schema) : motive path s :=
  step path s fun path' t h => have _less := h.decreases; expansionInduction table step path' t
termination_by (table.unopened path, sizeOf s)
decreasing_by exact _less

/-- Only names of the table come onto a path. -/
theorem Opens.contains {a b : List String × Schema}
    (h : Opens table a b) (hp : ∀ name ∈ a.1, table.contains name) :
    ∀ name ∈ b.1, table.contains name := by
  cases h with
  | part => exact hp
  | reference _ _ hl =>
    intro name hm
    rcases List.mem_cons.mp hm with rfl | hm
    · simp [SchemaTable.contains, hl]
    · exact hp name hm

/-- Names on the path and names that are left never become more. -/
theorem Visits.length_le {a b : List String × Schema} (h : Visits table a b) :
    b.1.length + table.unopened b.1 ≤ a.1.length + table.unopened a.1 := by
  induction h with
  | refl => exact le_rfl
  | tail _ hstep ih =>
    cases hstep with
    | part hs ht => exact ih
    | reference hs hn hl =>
      have := unopened_cons hn hl
      simp only [List.length_cons] at ih ⊢
      omega

/-! ## Paths without repeated names -/

/-- A name on the path was followed once, and what it names was visited then. -/
theorem Visits.of_mem {s t : Schema} {path : List String} {name : String}
    (h : Visits table ([], s) (path, t)) (hm : name ∈ path) :
    ∃ before target, table.lookup name = some target ∧
      Visits table ([], s) (name :: before, target) := by
  generalize hb : (path, t) = b at h
  induction h generalizing path t with
  | refl => cases hb; cases hm
  | @tail b c hvisit hstep ih =>
    subst hb
    cases hstep with
    | part hs ht => exact ih hm rfl
    | @reference path s _ opened hs hn hl =>
      rcases List.mem_cons.mp hm with rfl | hm
      · exact ⟨path, t, hl, hvisit.tail (.reference hs hn hl)⟩
      · exact ih hm rfl

theorem Opens.leads {a b : List String × Schema} (h : Opens table a b) : Leads table a.2 b.2 := by
  cases h with
  | part hs ht => exact .part hs ht
  | reference hs _ hl => exact .reference hs hl

/-- What can be reached is what an expansion from an empty path visits: a reference whose name is
on the path already leads to a schema that was visited when the name came onto it. -/
theorem reaches_iff_visits {s t : Schema} :
    Reaches table s t ↔ ∃ path, Visits table ([], s) (path, t) := by
  constructor
  · intro h
    induction h with
    | refl => exact ⟨[], .refl⟩
    | @tail t u _ hstep ih =>
      obtain ⟨path, hv⟩ := ih
      cases hstep with
      | part hs ht => exact ⟨path, hv.tail (.part hs ht)⟩
      | @reference name hs hl =>
        by_cases hm : name ∈ path
        · obtain ⟨before, target, hl', hv'⟩ := hv.of_mem hm
          rw [hl] at hl'
          cases hl'
          exact ⟨name :: before, hv'⟩
        · exact ⟨name :: path, hv.tail (.reference hs hm hl)⟩
  · rintro ⟨path, h⟩
    exact h.lift Prod.snd fun _ _ hstep => hstep.leads

end SchemaTable

end ApiTypings
