import ApiTypings.Proofs.TypedParts
import ApiTypings.Proofs.UndefinedReferences
import ApiTypings.Proofs.ValueReading

/-! # The text of a value

What is written for a schema, read back as a value. The text of a part stands on lines and levels of
its own, in brackets that other code opens and closes, and yet each part is read from where it
begins up to where it ends. So the text says the whole value, whatever page it is on. -/

namespace ApiTypings

open TypeToken (Blank)

/-! ## Pieces of code -/

namespace Code

variable {ε : Type} {P : List Char → Prop}

/-- White space, and then these characters. -/
def Indented (ds cs : List Char) : Prop := ∃ ws, Blank ws ∧ cs = ws ++ ds

theorem prints_beginLine_text {s : String} : (beginLine s : Code ε).Prints (Indented s.toList) :=
  prints_indent.append (prints_text.mpr rfl) fun ws _ hw hs => ⟨ws, hw, hs ▸ rfl⟩

theorem prints_beginNewLine {s : String} :
    (beginNewLine s : Code ε).Prints (Indented s.toList) := by
  refine prints_newLine.append prints_beginLine_text fun us ds hu hd => ?_
  obtain ⟨ws, hw, rfl⟩ := hd
  exact ⟨us ++ ws, hu.1.append hw, (List.append_assoc ..).symm⟩

/-- The closing tag stands behind the body on a line of its own. -/
theorem prints_scope {body : Code ε} (h : body.Prints P) (opening closing : String) :
    (scope body opening closing).Prints fun cs =>
      ∃ ds ws, P ds ∧ Blank ws ∧ cs = opening.toList ++ (ds ++ ws ++ closing.toList) := by
  have hbody : (text opening ++ nest body).Prints fun cs =>
      ∃ ds, P ds ∧ cs = opening.toList ++ ds :=
    (prints_text.mpr rfl).append h.nest fun _ ds hc hd => ⟨ds, hd, hc ▸ rfl⟩
  have hline : (text opening ++ nest body ++ newLine).Prints fun cs =>
      ∃ ds ws, P ds ∧ Blank ws ∧ cs = opening.toList ++ (ds ++ ws) := by
    refine hbody.append prints_newLine fun cs ws hc hw => ?_
    obtain ⟨ds, hd, rfl⟩ := hc
    exact ⟨ds, ws, hd, hw.1, List.append_assoc ..⟩
  refine hline.append prints_beginLine_text fun cs es hc he => ?_
  obtain ⟨ds, us, hd, hu, rfl⟩ := hc
  obtain ⟨ws, hw, rfl⟩ := he
  exact ⟨ds, us ++ ws, hd, hu.append hw, by simp⟩

end Code

namespace Stub

variable {ε : Type}

/-! ## Values -/

/-- What the literal says. -/
def Literal.term : Literal → ValueTerm
  | number => .number 42
  | boolean => .boolean true
  | string => .string "Test string"
  | emptyObject => .object []

namespace Value

mutual

/-- What the value says: an array has one item, and a map has one entry, under the key `A`. -/
def term : Value → ValueTerm
  | .undefined => .undefined
  | .literal value => value.term
  | .array item => .array [item.term]
  | .object members => .object (memberTerms members)
  | .entry value => .object [("A", value.term)]

def memberTerms : List (String × Value) → List (String × ValueTerm)
  | [] => []
  | (name, value) :: rest => (name, value.term) :: memberTerms rest

end

/-- The text of the value says the value. -/
def Printed (ε : Type) (value : Value) : Prop :=
  (value.code : Code ε).Prints (ValueTerm.Says value.term)

theorem printed_undefined : Printed ε .undefined := by
  rw [Printed, code, Code.prints_text, term]
  exact ValueTerm.says_word (by decide) rfl

theorem printed_literal (l : Literal) : Printed ε (.literal l) := by
  rw [Printed, code, Code.prints_text, term]
  cases l with
  | number => exact ValueTerm.says_word (by decide) rfl
  | boolean => exact ValueTerm.says_word (by decide) rfl
  | string =>
    have htext : "Test string".toList.all ValueTerm.isStringChar := by decide
    exact ValueTerm.says_string htext
  | emptyObject =>
    have hnone : Blank [] := nofun
    exact ValueTerm.says_object ValueTerm.saysMembers_nil hnone

theorem printed_array {item : Value} (h : item.Printed ε) : Printed ε (.array item) := by
  rw [Printed, code, term]
  have hbody : (Code.beginNewLine "" ++ item.code : Code ε).Prints fun cs =>
      ∃ ws ds, Blank ws ∧ ValueTerm.Says item.term ds ∧ cs = ws ++ ds := by
    refine Code.prints_beginNewLine.append h fun cs ds hc hd => ?_
    obtain ⟨ws, hw, rfl⟩ := hc
    exact ⟨ws, ds, hw, hd, by simp⟩
  refine (Code.prints_scope hbody "[" "]").imp fun cs hc => ?_
  obtain ⟨_, ws', ⟨ws, ds, hw, hd, rfl⟩, hw', rfl⟩ := hc
  exact ValueTerm.says_array hd hw hw'

/-- The heading of a member stands on a line of its own. -/
theorem prints_heading (name : String) :
    (Code.beginNewLine (Naming.memberName name ++ ": ") : Code ε).Prints
      (Code.Indented (ValueTerm.heading name)) :=
  Code.prints_beginNewLine

theorem printed_members {members : List (String × Value)}
    (h : ∀ m ∈ members, ValueTerm.isKey m.1 ∧ m.2.Printed ε) :
    (membersCode members : Code ε).Prints (ValueTerm.SaysMembers (memberTerms members)) := by
  induction members with
  | nil =>
    rw [membersCode, memberTerms]
    exact Code.prints_nil ValueTerm.saysMembers_nil
  | cons member rest ih =>
    obtain ⟨⟨hk, hm⟩, hrest⟩ := List.forall_mem_cons.mp h
    obtain ⟨name, value⟩ := member
    rw [membersCode, memberTerms]
    have hcomma : (value.code ++ Code.text "," : Code ε).Prints fun cs =>
        ∃ ds, ValueTerm.Says value.term ds ∧ cs = ds ++ [','] :=
      hm.append (Code.prints_text.mpr rfl) fun cs _ hc hd => ⟨cs, hc, hd ▸ rfl⟩
    have hmember : (Code.beginNewLine (Naming.memberName name ++ ": ") ++
        (value.code ++ Code.text ",") : Code ε).Prints fun cs => ∃ ws ds, Blank ws ∧
          ValueTerm.Says value.term ds ∧ cs = ws ++ (ValueTerm.heading name ++ (ds ++ [','])) := by
      refine (prints_heading name).append hcomma fun cs es hc he => ?_
      obtain ⟨ws, hw, rfl⟩ := hc
      obtain ⟨ds, hd, rfl⟩ := he
      exact ⟨ws, ds, hw, hd, by simp⟩
    refine hmember.append (ih hrest) fun cs es hc he => ?_
    obtain ⟨ws, ds, hw, hd, rfl⟩ := hc
    simpa using ValueTerm.saysMembers_cons hk hw hd he

theorem printed_object {members : List (String × Value)}
    (h : ∀ m ∈ members, ValueTerm.isKey m.1 ∧ m.2.Printed ε) : Printed ε (.object members) := by
  rw [Printed, code, term]
  refine (Code.prints_scope (printed_members h) "\x7b" "\x7d").imp fun cs hc => ?_
  obtain ⟨ds, ws, hd, hw, rfl⟩ := hc
  exact ValueTerm.says_object hd hw

theorem printed_entry {value : Value} (h : value.Printed ε) : Printed ε (.entry value) := by
  rw [Printed, code, term]
  have hbody : (Code.beginNewLine (mapKey ++ ": ") ++ value.code : Code ε).Prints
      (ValueTerm.SaysMembers [("A", value.term)]) := by
    refine (prints_heading "A").append h fun cs ds hc hd => ?_
    obtain ⟨ws, hw, rfl⟩ := hc
    simpa using ValueTerm.saysMembers_single (by decide) hw hd
  refine (Code.prints_scope hbody "\x7b" "\x7d").imp fun cs hc => ?_
  obtain ⟨ds, ws, hd, hw, rfl⟩ := hc
  exact ValueTerm.says_object hd hw

end Value

end Stub

/-! ## From schemas -/

/-- Do the properties that the shape lists have distinct names, each of which can be a key? -/
def Schema.hasKeys (s : Schema) : Bool :=
  match s.shape with
  | .ok (.object properties _) =>
    decide (Entries.keys properties).Nodup && (Entries.keys properties).all ValueTerm.isKey
  | _ => true

namespace Stub

open SchemaTable

variable {ε : Type} {table : SchemaTable} {path : List String} {s : Schema}

theorem keys_of_hasKeys {properties : Entries Schema} {additional : Option Schema}
    (h : s.hasKeys) (hs : s.shape = .ok (.object properties additional)) :
    (Entries.keys properties).Nodup ∧ ∀ name ∈ Entries.keys properties, ValueTerm.isKey name := by
  rw [Schema.hasKeys, hs] at h
  obtain ⟨hn, hall⟩ := Bool.and_eq_true_iff.mp h
  exact ⟨of_decide_eq_true hn, List.all_eq_true.mp hall⟩

/-- All that is visited stands in the schema or in one that the table names. -/
theorem spans_of_visits {path' : List String} {t : Schema}
    (h : Visits table (path, s) (path', t)) : s.Spans t ∨ ∃ e ∈ table, e.2.Spans t := by
  generalize hb : (path', t) = b at h
  induction h generalizing path' t with
  | refl =>
    cases hb
    exact .inl .refl
  | tail _ hstep ih =>
    subst hb
    cases hstep with
    | part hshape hp =>
      have hpart : Schema.Part _ t := ⟨_, hshape, Shape.mem_parts_of_valued hp⟩
      exact (ih rfl).imp (·.tail hpart) fun ⟨e, he, hs⟩ => ⟨e, he, hs.tail hpart⟩
    | reference _ _ hl => exact .inr ⟨_, Entries.mem_of_lookup hl, .refl⟩

/-- All names that are visited can be keys if all those in the schema and in the table can. -/
theorem hasKeys_of_visits (hs : ∀ t, s.Spans t → t.hasKeys)
    (ht : ∀ e ∈ table, ∀ t, e.2.Spans t → t.hasKeys) {path' : List String} {t : Schema}
    (h : Visits table (path, s) (path', t)) : t.hasKeys := by
  rcases spans_of_visits h with hspan | ⟨e, he, hspan⟩
  · exact hs t hspan
  · exact ht e he t hspan

/-- What holds of every form of value whenever it holds of the values inside holds of the value of
an expansion. The keys of its objects are names of properties that are visited. -/
theorem Expands.value_induction {K : String → Prop} {P : Value → Prop}
    (undefined : P .undefined) (literal : ∀ l, P (.literal l))
    (array : ∀ item, P item → P (.array item)) (entry : ∀ value, P value → P (.entry value))
    (object : ∀ members, (∀ m ∈ members, K m.1 ∧ P m.2) → P (.object members)) {e : Expansion}
    (h : Expands table path s e)
    (named : ∀ path' t, Visits table (path, s) (path', t) → ∀ properties additional,
      t.shape = .ok (.object properties additional) → ∀ name ∈ Entries.keys properties, K name) :
    P e.value := by
  induction path, s using expansionInduction table generalizing e with
  | step path s ih =>
    have next {path' : List String} {t : Schema} {part : Expansion}
        (ho : Opens table (path, s) (path', t)) (hp : Expands table path' t part) :
        P part.value :=
      ih path' t ho hp fun path'' u hv => named path'' u (hv.head ho)
    cases h with
    | literal => rw [Expansion.value]; exact literal _
    | array hs hi =>
      rw [Expansion.value]
      exact array _ (next (.part hs (List.mem_singleton_self _)) hi)
    | object hs hall =>
      rw [Expansion.value, Expansion.memberValues_eq]
      refine object _ fun m hvalue => ?_
      obtain ⟨member, hm, rfl⟩ := List.mem_map.mp hvalue
      obtain ⟨p, hp, hkey, hpm⟩ := Outcomes.exists_right_of_mem hall.inStep.flip hm
      have hp := Entries.mem_sortByKey.mp hp
      have hname := named _ _ .refl _ _ hs p.1 (List.mem_map_of_mem hp)
      exact ⟨hkey ▸ hname, next (.part hs (List.mem_map_of_mem hp)) hpm⟩
    | entry hs hv =>
      rw [Expansion.value]
      exact entry _ (next (.part hs (List.mem_singleton_self _)) hv)
    | cut => rw [Expansion.value]; exact undefined
    | followed hs hn hl ht => rw [Expansion.value]; exact next (.reference hs hn hl) ht

/-- The value of an expansion is printed as it is, however its references run. -/
theorem Expands.printed {e : Expansion} (h : Expands table path s e)
    (named : ∀ path' t, Visits table (path, s) (path', t) → t.hasKeys) : e.value.Printed ε :=
  h.value_induction Value.printed_undefined Value.printed_literal
    (fun _ => Value.printed_array) (fun _ => Value.printed_entry) (fun _ => Value.printed_object)
    fun path' t hv _ _ hs => (keys_of_hasKeys (named path' t hv) hs).2

/-- What is written for a schema, on any page, is read as the value of its expansion: an array has
one item, a map has one entry under the key `A`, and an object has each of the properties once, in
ascending order of their names. -/
theorem text_says_value {session after : Session}
    (written : writeValue table s session = some (after, none)) (spaced : session.page.Spaced)
    (named : ∀ path t, Visits table (session.guard.names, s) (path, t) → t.hasKeys) :
    ∃ (whole : Expansion) (text : String), expand table session.guard.names s = .ok whole.value ∧
      Expands table session.guard.names s whole ∧ after.page = session.page.append text ∧
      ValueTerm.ofText? text = some whole.value.term ∧
      ∀ names members, whole.Holds names (.object members) →
        ∃ t properties additional, Visits table (session.guard.names, s)
            (names ++ session.guard.names, t) ∧
          t.shape = .ok (.object properties additional) ∧
          (Entries.keys members).Perm (Entries.keys properties) ∧
          (Entries.keys members).Pairwise (· < ·) := by
  obtain ⟨value, hv⟩ := writeValue_succeeds_iff.mp ⟨after, written⟩
  have hw := writes_value table s session rfl
  rw [hv, written] at hw
  obtain ⟨page, hpage, hw⟩ := hw
  cases hw
  obtain ⟨whole, he, rfl⟩ := exists_expands hv
  have hprinted : whole.value.Printed RenderFault := he.printed named
  obtain ⟨text, hrun, hsays⟩ := hprinted session.page spaced
  have hafter : page = session.page.append text :=
    congrArg Prod.fst (hpage.symm.trans hrun)
  refine ⟨whole, text, hv, he, hafter, ValueTerm.ofText?_of_says hsays, fun names members hm => ?_⟩
  obtain ⟨t, hvisit, ht⟩ := he.of_holds hm
  cases ht with
  | @object _ _ properties additional _ hs hall =>
    have hkeys := hall.inStep.keys_eq
    have hnodup := (keys_of_hasKeys (named _ _ hvisit) hs).1
    refine ⟨t, properties, additional, hvisit, hs, ?_, ?_⟩
    · rw [← hkeys]
      exact (Entries.sortByKey_perm properties).map Prod.fst
    · rw [← hkeys]
      exact List.pairwise_map.mpr (Entries.sortByKey_strict hnodup)

/-! Threads of messages: names that need quotes, and every form of value inside an object. -/

namespace Threads

def reference : Schema := { Schema.blank with ref := some "Thread" }

def word : Schema := { Schema.blank with type := some "string" }

def labels : Schema :=
  { Schema.blank with type := some "object", additionalProperties := some word }

def scores : Schema :=
  { Schema.blank with
    type := some "array"
    items := some { Schema.blank with type := some "integer" } }

def thread : Schema :=
  { Schema.blank with
    type := some "object"
    properties := some
      [("reply-to", reference), ("labels", labels), ("@type", word), ("scores", scores)] }

def schemas : SchemaTable := [("Thread", thread)]

def value : Value :=
  .object
    [("@type", .literal .string), ("labels", .entry (.literal .string)), ("reply-to", .undefined),
      ("scores", .array (.literal .number))]

theorem expanded : expand schemas [] reference = .ok value := by
  have hword : expand schemas ["Thread"] word = .ok (.literal .string) := by
    rw [expand_of_primitive rfl]
    rfl
  have hlabels : expand schemas ["Thread"] labels = .ok (.entry (.literal .string)) := by
    rw [expand_of_map rfl, hword]
    rfl
  have hscores : expand schemas ["Thread"] scores = .ok (.array (.literal .number)) := by
    rw [expand_of_array rfl, expand_of_primitive rfl]
    rfl
  have hreply : expand schemas ["Thread"] reference = .ok .undefined := by
    rw [expand_of_reference rfl, expandReference_of_mem (by simp)]
  have hsorted : Entries.sortByKey
      [("reply-to", reference), ("labels", labels), ("@type", word), ("scores", scores)] =
      [("@type", word), ("labels", labels), ("reply-to", reference), ("scores", scores)] := rfl
  rw [expand_of_reference rfl, expandReference_of_lookup (by simp) rfl, expand_of_object rfl]
  simp only [hsorted, Entries.mapValues, List.map, hword, hlabels, hscores, hreply]
  rfl

theorem hasKeys {path : List String} {t : Schema}
    (h : Visits schemas ([], reference) (path, t)) : t.hasKeys := by
  have hreference : ∀ t ∈ reference.spanned, t.hasKeys := by decide
  have hthread : ∀ t ∈ thread.spanned, t.hasKeys := by decide
  refine hasKeys_of_visits (fun t ht => hreference t (Schema.mem_spanned ht)) ?_ h
  intro e he t ht
  cases List.mem_singleton.mp he
  exact hthread t (Schema.mem_spanned ht)

theorem thread_read :
    ∃ after text, writeValue schemas reference Session.start = some (after, none) ∧
      after.page = Page.empty.append text ∧
      ValueTerm.ofText? text = some (.object
        [("@type", .string "Test string"), ("labels", .object [("A", .string "Test string")]),
          ("reply-to", .undefined), ("scores", .array [.number 42])]) := by
  obtain ⟨after, written⟩ :
      ∃ after, writeValue schemas reference Session.start = some (after, none) :=
    writeValue_succeeds_iff.mpr ⟨_, expanded⟩
  obtain ⟨whole, text, hv, _, hpage, hread, _⟩ :=
    text_says_value written Page.spaced_empty fun _ _ h => hasKeys h
  have hvalue : value = whole.value := Except.ok.inj (expanded.symm.trans hv)
  rw [← hvalue] at hread
  refine ⟨after, text, written, hpage, hread.trans ?_⟩
  simp [value, Value.term, Value.memberTerms, Literal.term]

end Threads

end Stub

end ApiTypings
