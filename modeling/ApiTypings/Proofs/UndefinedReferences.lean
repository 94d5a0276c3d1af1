import ApiTypings.Proofs.StubWriting

/-! # Where values are left undefined

The value of a schema does not say which references it was made of. With the references in it, it
says where one was left undefined and where one was followed, and so below which references each
part of it stands. The guard, which all properties of an object share, leaves a reference undefined
just where its name was open at the start or is that of a reference followed on the way to it; on
any other way the same name is followed again. -/

namespace ApiTypings.Stub

open SchemaTable

/-- A value with the references it is made of. -/
inductive Expansion where
  | literal (value : Literal)
  | array (item : Expansion)
  | object (members : List (String × Expansion))
  | entry (value : Expansion)
  /-- A reference that is left undefined. -/
  | cut (name : String)
  /-- A reference with what the schema of its name expands to. -/
  | followed (name : String) (target : Expansion)

namespace Expansion

mutual

def value : Expansion → Value
  | .literal value => .literal value
  | .array item => .array item.value
  | .object members => .object (memberValues members)
  | .entry value => .entry value.value
  | .cut _ => .undefined
  | .followed _ target => target.value

def memberValues : List (String × Expansion) → List (String × Value)
  | [] => []
  | (name, member) :: rest => (name, member.value) :: memberValues rest

end

theorem memberValues_eq (members : List (String × Expansion)) :
    memberValues members = Entries.mapValues value members := by
  induction members with
  | nil => rw [memberValues]; rfl
  | cons member rest ih => rw [memberValues, ih]; rfl

/-- The name of a reference. -/
def name? : Expansion → Option String
  | .cut name | .followed name _ => some name
  | .literal _ | .array _ | .object _ | .entry _ => none

/-- What stands in an expansion, with the names of the references followed on the way to it, the
last one first. -/
inductive Holds (whole : Expansion) : List String → Expansion → Prop
  | self : Holds whole [] whole
  | item {names : List String} {item : Expansion} (h : Holds whole names (.array item)) :
    Holds whole names item
  | member {names : List String} {members : List (String × Expansion)} {key : String}
    {member : Expansion} (h : Holds whole names (.object members))
    (hm : (key, member) ∈ members) : Holds whole names member
  | entry {names : List String} {value : Expansion} (h : Holds whole names (.entry value)) :
    Holds whole names value
  | target {names : List String} {name : String} {target : Expansion}
    (h : Holds whole names (.followed name target)) : Holds whole (name :: names) target

end Expansion

mutual

/-- The expansion of a schema below the names of a path. A reference is left undefined if its name
is on the path, and followed with its name on the path if it is not. -/
inductive Expands (table : SchemaTable) : List String → Schema → Expansion → Prop
  | literal {path : List String} {s : Schema} {kind : String} {repeated : Bool} {value : Literal}
    (hs : s.shape = .ok (.primitive kind repeated)) (hv : Literal.ofKind? kind = some value) :
    Expands table path s (.literal value)
  | array {path : List String} {s t : Schema} {item : Expansion} (hs : s.shape = .ok (.array t))
    (h : Expands table path t item) : Expands table path s (.array item)
  | object {path : List String} {s : Schema} {properties : Entries Schema}
    {additional : Option Schema} {members : List (String × Expansion)}
    (hs : s.shape = .ok (.object properties additional))
    (h : ExpandsAll table path (Entries.sortByKey properties) members) :
    Expands table path s (.object members)
  | entry {path : List String} {s t : Schema} {value : Expansion} (hs : s.shape = .ok (.map t))
    (h : Expands table path t value) : Expands table path s (.entry value)
  | cut {path : List String} {s : Schema} {name : String} (hs : s.shape = .ok (.reference name))
    (hn : name ∈ path) : Expands table path s (.cut name)
  | followed {path : List String} {s t : Schema} {name : String} {target : Expansion}
    (hs : s.shape = .ok (.reference name)) (hn : name ∉ path) (hl : table.lookup name = some t)
    (h : Expands table (name :: path) t target) : Expands table path s (.followed name target)

/-- All properties expand below the same path, whatever was followed in those before. -/
inductive ExpandsAll (table : SchemaTable) :
    List String → Entries Schema → List (String × Expansion) → Prop
  | nil {path : List String} : ExpandsAll table path [] []
  | cons {path : List String} {key : String} {s : Schema} {member : Expansion}
    {properties : Entries Schema} {members : List (String × Expansion)}
    (h : Expands table path s member) (hrest : ExpandsAll table path properties members) :
    ExpandsAll table path ((key, s) :: properties) ((key, member) :: members)

end

variable {table : SchemaTable} {path : List String} {s : Schema}

/-! ## From values -/

/-- Properties whose values come of expansions expand together. -/
theorem expandsAll_of_inStep {properties : Entries Schema} {values : Entries Value}
    (h : Entries.InStep (fun t value => ∃ e, Expands table path t e ∧ e.value = value) properties
      values) :
    ∃ members, ExpandsAll table path properties members ∧
      Expansion.memberValues members = values := by
  induction h using Entries.InStep.induct with
  | nil => exact ⟨[], .nil, by rw [Expansion.memberValues]⟩
  | @cons key t value properties values hvalue _ ih =>
    obtain ⟨member, he, rfl⟩ := hvalue
    obtain ⟨members, hall, rfl⟩ := ih
    exact ⟨(key, member) :: members, .cons he hall, by rw [Expansion.memberValues]⟩

/-- Every value that a schema is expanded to is that of an expansion. -/
theorem exists_expands {value : Value} (h : expand table path s = .ok value) :
    ∃ e, Expands table path s e ∧ e.value = value := by
  induction path, s using expansionInduction table generalizing value with
  | step path s ih =>
    cases hs : s.shape with
    | error fault =>
      rw [expand_of_fault hs] at h
      cases h
    | ok shape =>
      cases shape with
      | primitive kind repeated =>
        rw [expand_of_primitive hs] at h
        cases hk : Literal.ofKind? kind with
        | none => rw [hk] at h; cases h
        | some literal =>
          rw [hk] at h
          cases h
          exact ⟨_, .literal hs hk, by rw [Expansion.value]⟩
      | array item =>
        rw [expand_of_array hs] at h
        obtain ⟨v, hv, rfl⟩ := Outcomes.map_eq_ok_iff.mp h
        obtain ⟨e, he, rfl⟩ := ih _ _ (.part hs (List.mem_singleton_self _)) hv
        exact ⟨_, .array hs he, by rw [Expansion.value]⟩
      | object properties additional =>
        rw [expand_of_object hs] at h
        obtain ⟨values, hv, rfl⟩ := Outcomes.map_eq_ok_iff.mp h
        have hsteps := Outcomes.forall₂_imp_mem (Entries.collect_mapValues_eq_ok_iff.mp hv)
          (S := fun a b => a.1 = b.1 ∧ ∃ e, Expands table path a.2 e ∧ e.value = b.2)
          fun p hp _ hpv =>
            ⟨hpv.1, ih _ _ (.part hs (List.mem_map_of_mem (Entries.mem_sortByKey.mp hp))) hpv.2⟩
        obtain ⟨members, hall, rfl⟩ := expandsAll_of_inStep hsteps
        exact ⟨_, .object hs hall, by rw [Expansion.value]⟩
      | map values =>
        rw [expand_of_map hs] at h
        obtain ⟨v, hv, rfl⟩ := Outcomes.map_eq_ok_iff.mp h
        obtain ⟨e, he, rfl⟩ := ih _ _ (.part hs (List.mem_singleton_self _)) hv
        exact ⟨_, .entry hs he, by rw [Expansion.value]⟩
      | reference name =>
        rw [expand_of_reference hs] at h
        by_cases hn : name ∈ path
        · rw [expandReference_of_mem hn] at h
          cases h
          exact ⟨_, .cut hs hn, by rw [Expansion.value]⟩
        cases hl : table.lookup name with
        | none => rw [expandReference_of_undefined hn hl] at h; cases h
        | some target =>
          rw [expandReference_of_lookup hn hl] at h
          obtain ⟨e, he, rfl⟩ := ih _ _ (.reference hs hn hl) h
          exact ⟨_, .followed hs hn hl he, by rw [Expansion.value]⟩

/-! ## Inside an expansion -/

theorem ExpandsAll.inStep {properties : Entries Schema} {members : List (String × Expansion)}
    (h : ExpandsAll table path properties members) :
    Entries.InStep (Expands table path) properties members := by
  induction members generalizing properties with
  | nil =>
    cases h
    exact .nil
  | cons member rest ih =>
    cases h with
    | cons hmember hrest => exact .cons ⟨rfl, hmember⟩ (ih hrest)

theorem ExpandsAll.member {properties : Entries Schema} {members : List (String × Expansion)}
    (h : ExpandsAll table path properties members) {m : String × Expansion} (hm : m ∈ members) :
    ∃ p ∈ properties, Expands table path p.2 m.2 := by
  obtain ⟨p, hp, _, hpm⟩ := Outcomes.exists_right_of_mem h.inStep.flip hm
  exact ⟨p, hp, hpm⟩

/-- What stands in an expansion is an expansion itself, of a schema that is visited below the names
of the references followed on the way to it. -/
theorem Expands.of_holds {whole part : Expansion} {names : List String}
    (h : Expands table path s whole) (hp : whole.Holds names part) :
    ∃ t, Visits table (path, s) (names ++ path, t) ∧ Expands table (names ++ path) t part := by
  induction hp with
  | self => exact ⟨s, .refl, h⟩
  | item _ ih =>
    obtain ⟨t, hv, ih⟩ := ih
    cases ih with
    | array hs h => exact ⟨_, hv.tail (.part hs (List.mem_singleton_self _)), h⟩
  | member _ hm ih =>
    obtain ⟨t, hv, ih⟩ := ih
    cases ih with
    | object hs h =>
      obtain ⟨p, hp, h⟩ := h.member hm
      have hpart := List.mem_map_of_mem (f := Prod.snd) (Entries.mem_sortByKey.mp hp)
      exact ⟨_, hv.tail (.part hs hpart), h⟩
  | entry _ ih =>
    obtain ⟨t, hv, ih⟩ := ih
    cases ih with
    | entry hs h => exact ⟨_, hv.tail (.part hs (List.mem_singleton_self _)), h⟩
  | target _ ih =>
    obtain ⟨t, hv, ih⟩ := ih
    cases ih with
    | followed hs hn hl h => exact ⟨_, hv.tail (.reference hs hn hl), h⟩

/-- A reference is left undefined if its name is on the path, and is otherwise followed. -/
theorem Expands.cut_iff {e : Expansion} {name : String} (h : Expands table path s e)
    (hn : e.name? = some name) : e = .cut name ↔ name ∈ path := by
  cases h with
  | literal | array | object | entry => cases hn
  | cut _ hm =>
    cases hn
    simp [hm]
  | followed _ hm =>
    cases hn
    simp [hm]

/-- A reference is left undefined if and only if its name was open at the start or is that of a
reference that was followed on the way to it. Every other one is followed, with its name on the path
and the whole schema of the name below it. -/
theorem undefined_iff_on_path {session after : Session}
    (written : writeValue table s session = some (after, none)) :
    ∃ whole : Expansion, expand table session.guard.names s = .ok whole.value ∧
      whole.value.code.run session.page = (after.page, (none : Option RenderFault)) ∧
      Expands table session.guard.names s whole ∧
      ∀ names part name, whole.Holds names part → part.name? = some name →
        (part = .cut name ↔ name ∈ names ∨ name ∈ session.guard.names) ∧
        ∀ target, part = .followed name target → ∃ t, table.lookup name = some t ∧
          Expands table (name :: (names ++ session.guard.names)) t target := by
  obtain ⟨value, hv⟩ := writeValue_succeeds_iff.mp ⟨after, written⟩
  have hw := writes_value table s session rfl
  rw [hv, written] at hw
  obtain ⟨page, hpage, hw⟩ := hw
  cases hw
  obtain ⟨whole, he, rfl⟩ := exists_expands hv
  refine ⟨whole, hv, hpage, he, fun names part name hpart hname => ?_⟩
  obtain ⟨t, _, ht⟩ := he.of_holds hpart
  refine ⟨(ht.cut_iff hname).trans List.mem_append, ?_⟩
  rintro target rfl
  cases ht with
  | followed _ _ hl h => cases hname; exact ⟨_, hl, h⟩

/-! Pairs, whose parts are of one named schema, and which hold a pair again. -/

namespace Pairs

def reference (name : String) : Schema := { Schema.blank with ref := some name }

def schemas : SchemaTable :=
  [("Pair", { Schema.blank with
      type := some "object"
      properties := some
        [("second", reference "Word"), ("next", reference "Pair"), ("first", reference "Word")] }),
    ("Word", { Schema.blank with type := some "string" })]

/-- Both words are there, and the pair inside the pair is not. -/
def value : Value :=
  .object [("first", .literal .string), ("next", .undefined), ("second", .literal .string)]

theorem expanded : expand schemas [] (reference "Pair") = .ok value := by
  have hword : expand schemas ["Pair"] (reference "Word") = .ok (.literal .string) := by
    rw [expand_of_reference rfl, expandReference_of_lookup (by simp) rfl, expand_of_primitive rfl]
    rfl
  have hpair : expand schemas ["Pair"] (reference "Pair") = .ok .undefined := by
    rw [expand_of_reference rfl, expandReference_of_mem (by simp)]
  rw [expand_of_reference rfl, expandReference_of_lookup (by simp) rfl, expand_of_object rfl]
  have hsorted : Entries.sortByKey
      [("second", reference "Word"), ("next", reference "Pair"), ("first", reference "Word")] =
      [("first", reference "Word"), ("next", reference "Pair"), ("second", reference "Word")] := rfl
  simp only [hsorted, Entries.mapValues, List.map, hword, hpair]
  rfl

theorem undefined_inside_only :
    ∃ after whole, writeValue schemas (reference "Pair") Session.start = some (after, none) ∧
      whole.value = value ∧ Expands schemas [] (reference "Pair") whole ∧
      ∀ names part, whole.Holds names part → part.name? = some "Pair" →
        (part = .cut "Pair" ↔ "Pair" ∈ names) := by
  obtain ⟨after, written⟩ :
      ∃ after, writeValue schemas (reference "Pair") Session.start = some (after, none) :=
    writeValue_succeeds_iff.mpr ⟨_, expanded⟩
  obtain ⟨whole, hv, _, he, hiff⟩ := undefined_iff_on_path written
  have hvalue : value = whole.value := Except.ok.inj (expanded.symm.trans hv)
  refine ⟨after, whole, written, hvalue.symm, he, fun names part hp hn => ?_⟩
  simpa [Session.start, Guard.empty] using (hiff names part "Pair" hp hn).1

end Pairs

end ApiTypings.Stub
