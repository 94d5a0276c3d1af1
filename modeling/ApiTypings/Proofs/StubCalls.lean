import ApiTypings.Proofs.ResourceTree
import ApiTypings.Proofs.StubWriting
import ApiTypings.Stub.File

/-! # The calls of the usage stub

The calls that a stub makes, as a list: one for each method of each resource, with the values that
are passed. The stub is the code of this list between a head and an end that are the same whatever
is called, and where a value cannot be given the stub fails with the fault of the first such
call. -/

namespace ApiTypings

namespace Stub

open Synthesis

variable {ε : Type}

/-! ## Calls -/

/-- A method, by the resource it belongs to and its key there. -/
structure CallSite where
  path : List String
  name : String
  method : Method

structure Call where
  path : List String
  name : String
  description : Option String
  arguments : Entries Value
  body : Option Value

/-- Names below a root, with points between them. -/
def dotted (root : String) (path : List String) : String :=
  path.foldl (fun above name => above ++ "." ++ name) root

def argumentsCode : Entries Value → Code ε
  | [] => .text "\x7b\x7d"
  | arguments => .scope (Value.membersCode arguments) "\x7b" "\x7d"

def bodyCode : Option Value → Code ε
  | none => .nil
  | some body => .text ", " ++ body.code

/-- A call of the client whose resources stand below `root`. -/
def Call.code (root : String) (c : Call) : Code ε :=
  .all [
    .endLine "" ++ .comment? c.description ++
      .beginLine ("await " ++ dotted root c.path ++ "." ++ c.name ++ "("),
    argumentsCode c.arguments, bodyCode c.body, .text ");"]

/-- What stands before the function that makes the calls. -/
def clientLoadedHead (api : Description) : Code ε :=
  .endLine "" ++ remark "now we can use gapi.client" ++
    .beginLine ("gapi.client.load('" ++ api.name ++ "', '" ++ api.version ++ "', () => ") ++
    .scope (whenLoaded api) "\x7b" "\x7d" ++
    .endLine ");" ++
    .endLine "" ++
    .beginLine "async function run() "

def clientLoadedCode (api : Description) (calls : List Call) : Code ε :=
  .all [clientLoadedHead api,
    .scope (.all (calls.map (Call.code ("gapi.client." ++ api.name)))) "\x7b" "\x7d"]

/-- The stub that makes some calls. -/
def code (api : Description) (calls : List Call) : Code ε :=
  .all [
    .text (banner api.name) ++ .line "" ++ .beginLine "gapi.load('client', () => ",
    .scope (clientLoadedCode api calls) "\x7b" "\x7d", .endLine ");"]

def text (api : Description) (calls : List Call) : String :=
  ((code api calls : Code RenderFault).run Page.empty).1.text

/-! ## Of a description -/

/-- The value of the body, if a method sends one. -/
def bodyValue (table : SchemaTable) (method : Method) : Except RenderFault (Option Value) :=
  match method.bodyRef? with
  | none => .ok none
  | some name => (expandReference table [] name).map some

def Call.of (table : SchemaTable) (site : CallSite) : Except RenderFault Call := do
  let parameters := Entries.sortByKey (Entries.orEmpty site.method.parameters)
  let arguments ← Entries.collect (parameters.mapValues (expand table []))
  let body ← bodyValue table site.method
  return ⟨site.path, site.name, site.method.description, arguments, body⟩

/-- The methods of the resource at a place, in key order. -/
def sitesAt (p : Resource.Place) : List CallSite :=
  (Entries.sortByKey p.methods).map fun (name, method) => ⟨p.path, name, method⟩

/-- The methods of all resources, those of a resource before those below it. -/
def callSites (api : Description) : List CallSite :=
  (Resource.places .parentFirst (Entries.orEmpty api.resources) []).flatMap sitesAt

def calls (api : Description) : Except RenderFault (List Call) :=
  (callSites api).mapM (Call.of (SchemaTable.ofDescription api))

/-! ## What is written -/

theorem writes_emit {path : List String} {code : Code RenderFault} (h : code.Faultless) :
    Writes path (emit code) (.ok code) := by
  intro session _
  obtain ⟨page, hp⟩ := h.run session.page
  exact ⟨page, hp, by rw [emit, hp]⟩

theorem writes_arguments (table : SchemaTable) (parameters : Entries Schema) :
    Writes []
      (match parameters with
        | [] => emit (.text "\x7b\x7d")
        | parameters => scope (writeProperties table parameters) "\x7b" "\x7d")
      ((Entries.collect ((Entries.sortByKey parameters).mapValues (expand table []))).map
        argumentsCode) := by
  cases parameters with
  | nil => exact writes_text _
  | cons e rest =>
    have hw : Writes [] _ _ := (writes_properties table (e :: rest)).scope "\x7b" "\x7d"
    dsimp only
    cases hc : Entries.collect ((Entries.sortByKey (e :: rest)).mapValues (expand table [])) with
    | error fault => rw [hc] at hw; exact hw
    | ok arguments =>
      rw [hc] at hw
      cases arguments with
      | cons => exact hw
      | nil =>
        -- There are as many arguments as parameters.
        have hs := (Entries.collect_mapValues_eq_ok_iff.mp hc).length_eq
        rw [(Entries.sortByKey_perm _).length_eq] at hs
        cases hs

theorem writes_body (table : SchemaTable) (method : Method) :
    Writes []
      (match method.bodyRef? with
        | none => done
        | some body => andThen (emit (.text ", ")) (writeRef table body))
      ((bodyValue table method).map bodyCode) := by
  unfold bodyValue
  cases method.bodyRef? with
  | none => exact writes_done
  | some name =>
    have hw := (writes_text ", ").andThen
      (writes_reference table.length (table.unopened_le_length []) name)
    dsimp only
    cases he : expandReference table [] name <;> rw [he] at hw <;> exact hw

theorem writes_call (table : SchemaTable) (root : String) (site : CallSite) :
    Writes [] (writeCall table (dotted root site.path) site.name site.method)
      ((Call.of table site).map (Call.code root)) := by
  have hh : Writes [] (emit (.endLine "" ++ .comment? site.method.description ++
    .beginLine ("await " ++ dotted root site.path ++ "." ++ site.name ++ "("))) (.ok _) :=
    writes_emit (by simp)
  have hw := hh.andThen ((writes_arguments table (Entries.orEmpty site.method.parameters)).andThen
    ((writes_body table site.method).andThen ((writes_text ");").andThen writes_done)))
  change Writes [] (all _) _
  unfold Call.of
  dsimp only
  cases hp : Entries.collect ((Entries.sortByKey (Entries.orEmpty site.method.parameters)).mapValues
      (expand table [])) with
  | error fault => rw [hp] at hw; exact hw
  | ok arguments =>
    cases hb : bodyValue table site.method with
    | error fault => rw [hp, hb] at hw; exact hw
    | ok body => rw [hp, hb] at hw; exact hw

/-- The code of the calls at some sites, or the first fault among them. -/
def listed (table : SchemaTable) (root : String) (sites : List CallSite) :
    Except RenderFault (Code RenderFault) :=
  (sites.mapM (Call.of table)).map fun calls => .all (calls.map (Call.code root))

theorem writes_listed_append {table : SchemaTable} {root : String} {a b : Synthesis}
    {xs ys : List CallSite} (ha : Writes [] a (listed table root xs))
    (hb : Writes [] b (listed table root ys)) :
    Writes [] (andThen a b) (listed table root (xs ++ ys)) := by
  have hw := ha.andThen hb
  unfold listed at hw ⊢
  rw [List.mapM_append]
  cases hx : xs.mapM (Call.of table) with
  | error fault => rw [hx] at hw; exact hw
  | ok first =>
    cases hy : ys.mapM (Call.of table) with
    | error fault => rw [hx, hy] at hw; exact hw
    | ok second =>
      rw [hx, hy] at hw
      refine hw.of_run_eq fun page => ?_
      simp only [List.map_append]
      exact (Code.same_all_append _ _ page).symm

theorem writes_listed_all {α : Type} {table : SchemaTable} {root : String} {step : α → Synthesis}
    {sites : α → List CallSite} (xs : List α)
    (h : ∀ x ∈ xs, Writes [] (step x) (listed table root (sites x))) :
    Writes [] (all (xs.map step)) (listed table root (xs.flatMap sites)) := by
  induction xs with
  | nil => exact writes_done
  | cons x rest ih =>
    exact writes_listed_append (h x (List.mem_cons_self ..))
      (ih fun y hy => h y (List.mem_cons_of_mem _ hy))

theorem writes_listed_call (table : SchemaTable) (root : String) (site : CallSite) :
    Writes [] (writeCall table (dotted root site.path) site.name site.method)
      (listed table root [site]) := by
  have hw := writes_call table root site
  unfold listed
  rw [List.mapM_cons, List.mapM_nil]
  cases hc : Call.of table site with
  | error fault => rw [hc] at hw; exact hw
  | ok call =>
    rw [hc] at hw
    exact hw.of_run_eq fun page => (Code.same_all_singleton _ page).symm

theorem writes_sitesAt (table : SchemaTable) (root : String) (p : Resource.Place) :
    Writes [] (all ((Entries.sortByKey p.methods).map fun e : String × Method =>
      writeCall table (dotted root p.path) e.1 e.2)) (listed table root (sitesAt p)) := by
  have hs : sitesAt p = (Entries.sortByKey p.methods).flatMap
    fun e => [⟨p.path, e.1, e.2⟩] := List.map_eq_flatMap
  rw [hs]
  exact writes_listed_all _ fun e _ => writes_listed_call table root ⟨p.path, e.1, e.2⟩

theorem writeCalls_eq (table : SchemaTable) (r : Resource) (path : String) :
    writeCalls table r path = andThen
      (all ((Entries.sortByKey (Entries.orEmpty r.methods)).map fun e =>
        writeCall table path e.1 e.2))
      (all ((Entries.sortByKey (Entries.orEmpty r.resources)).map fun e =>
        writeCalls table e.2 (path ++ "." ++ e.1))) := by
  rw [writeCalls, Resource.recurse_eq, Entries.sortByKey_mapValues, Entries.mapValues,
    List.map_map]
  rfl

theorem dotted_append (root : String) (path : List String) (name : String) :
    dotted root (path ++ [name]) = dotted root path ++ "." ++ name := by
  simp [dotted]

theorem writes_calls (table : SchemaTable) (root : String) (r : Resource) (above : List String)
    (name : String) :
    Writes [] (writeCalls table r (dotted root (above ++ [name])))
      (listed table root ((r.placesFrom .parentFirst above name).flatMap sitesAt)) := by
  induction r using Resource.childInduction generalizing above name with
  | step r ih =>
    rw [writeCalls_eq, Resource.placesFrom_eq, Resource.Order.arrange, List.flatMap_cons]
    refine writes_listed_append (writes_sitesAt table root ⟨above, name, r⟩) ?_
    rw [Resource.places, List.flatMap_assoc]
    refine writes_listed_all _ fun e he => ?_
    rw [← dotted_append]
    exact ih e (Entries.mem_sortByKey.mp he) (above ++ [name]) e.1

theorem writes_run (api : Description) :
    Writes [] (writeRun api)
      ((calls api).map fun calls =>
        .all (calls.map (Call.code ("gapi.client." ++ api.name)))) := by
  rw [writeRun, calls, callSites, Resource.places, List.flatMap_assoc]
  exact writes_listed_all _ fun e _ =>
    writes_calls (.ofDescription api) ("gapi.client." ++ api.name) e.2 [] e.1

/-! ## The file -/

theorem faultless_scopeList (scopes : Entries Scope) : (scopeList scopes : Code ε).Faultless := by
  refine Code.faultless_all.mpr fun piece hp => ?_
  obtain ⟨e, _, rfl⟩ := List.mem_map.mp hp
  simp

theorem faultless_whenLoaded (api : Description) : (whenLoaded api : Code ε).Faultless := by
  unfold whenLoaded
  split <;> simp [remark, authorization, authorizationCallback, faultless_scopeList]

theorem writes_clientLoaded (api : Description) :
    Writes [] (writeClientLoaded api) ((calls api).map (clientLoadedCode api)) := by
  have hh : Writes [] (emit (clientLoadedHead api)) (.ok _) :=
    writes_emit (by simp [clientLoadedHead, remark, faultless_whenLoaded])
  have hw := hh.andThen (((writes_run api).scope "\x7b" "\x7d").andThen writes_done)
  cases hc : calls api <;> rw [hc] at hw <;> exact hw

theorem writes_write (api : Description) :
    Writes [] (write api) ((calls api).map (code api)) := by
  have hh : Writes [] (emit (.text (banner api.name) ++ .line "" ++
    .beginLine "gapi.load('client', () => ")) (.ok _) := writes_emit (by simp)
  have he : Writes [] (emit (.endLine ");")) (.ok _) := writes_emit (by simp)
  have hw := hh.andThen (((writes_clientLoaded api).scope "\x7b" "\x7d").andThen
    (he.andThen writes_done))
  cases hc : calls api <;> rw [hc] at hw <;> exact hw

/-- The stub of an API makes the calls of its methods, in the order of the call sites. -/
theorem render_eq (api : Description) : render api = (calls api).map (text api) := by
  have hw := writes_write api Session.start rfl
  unfold render
  cases hc : calls api with
  | error fault =>
    rw [hc] at hw
    obtain ⟨page, hw⟩ := hw
    rw [Synthesis.run, hw]
    rfl
  | ok calls =>
    rw [hc] at hw
    obtain ⟨page, hp, hw⟩ := hw
    change Code.run _ Page.empty = _ at hp
    rw [Synthesis.run, hw]
    simp only [Except.map, text, hp, Option.getD_some]

end Stub

end ApiTypings
