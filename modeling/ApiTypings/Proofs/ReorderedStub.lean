import ApiTypings.Proofs.ReorderedDescription
import ApiTypings.Proofs.StubWriting
import ApiTypings.Stub.File

/-! # The usage stub of a description in another order

The steps of a session are taken in key order. Descriptions that are the same up to order give the
same steps, hence the same page, the same guard at any time and the same first fault. -/

namespace ApiTypings.Stub

open Synthesis

/-! ## Values -/

theorem writeMembers_eq_of_reordered {xs ys : Entries Synthesis}
    (h : Entries.Reordered Eq xs ys) : writeMembers xs = writeMembers ys := by
  rw [writeMembers, writeMembers, h.sortByKey_eq]

theorem writeSchema_eq_of_reordered {a b : Schema} (h : a.Reordered b)
    (writeRef : String → Synthesis) : writeSchema writeRef a = writeSchema writeRef b := by
  refine Schema.byShape_eq_of_reordered (fun _ _ x y _ hx => ?_) h
  cases hx with
  | error fault => rfl
  | ok hx =>
    cases hx with
    | primitive | reference => rfl
    | array hpq => rw [writeShape, writeShape, hpq.2]
    | object hp _ =>
      have hm := writeMembers_eq_of_reordered (hp.mapValues fun _ _ _ hpq => hpq.2)
      rw [writeShape, writeShape, hm]
    | map hpq => rw [writeShape, writeShape, hpq.2]

section
variable {table table' : SchemaTable} (ht : table.Reordered table')
include ht

theorem writeReference_eq_of_reordered (depth : Nat) :
    writeReference table depth = writeReference table' depth := by
  induction depth with
  | zero =>
    funext name session
    have hr := ht.resolve name
    rw [writeReference, writeReference]
    generalize table.resolve name = s, table'.resolve name = t at hr
    cases hr <;> rfl
  | succ depth ih =>
    funext name session
    have hr := ht.resolve name
    rw [writeReference, writeReference]
    generalize table.resolve name = s, table'.resolve name = t at hr
    cases hr with
    | error fault => rfl
    | ok hst => simp only [ih, writeSchema_eq_of_reordered hst]

theorem writeRef_eq_of_reordered : writeRef table = writeRef table' := by
  funext name
  rw [writeRef, writeRef, ht.length_eq, writeReference_eq_of_reordered ht]

theorem writeProperties_eq_of_reordered {xs ys : Entries Schema}
    (h : Entries.Reordered Schema.Reordered xs ys) :
    writeProperties table xs = writeProperties table' ys := by
  refine writeMembers_eq_of_reordered (h.mapValues fun _ _ _ hst => ?_)
  rw [writeValue, writeValue, writeRef_eq_of_reordered ht, writeSchema_eq_of_reordered hst]

/-! ## Calls -/

theorem writeCall_eq_of_reordered {m m' : Method} (hm : m.Reordered m') (path name : String) :
    writeCall table path name m = writeCall table' path name m' := by
  have hdescription : m.description = m'.description := (congrArg Method.description hm.rest :)
  have hbody : m.bodyRef? = m'.bodyRef? := (congrArg Method.bodyRef? hm.rest :)
  have hp := Entries.Reordered.orEmpty hm.parameters
  unfold writeCall
  rw [hdescription, hbody, writeRef_eq_of_reordered ht]
  generalize Entries.orEmpty m.parameters = xs, Entries.orEmpty m'.parameters = ys at hp
  have hw := writeProperties_eq_of_reordered ht hp
  have he := hp.isEmpty_eq
  cases xs <;> cases ys
  · rfl
  · cases he
  · cases he
  · simp only [hw]

theorem writeCalls_eq_of_reordered {r r' : Resource} (hr : r.Reordered r') :
    writeCalls table r = writeCalls table' r' := by
  refine Resource.recurse_eq_of_reordered (fun r r' xs ys hr hxy => ?_) hr
  obtain ⟨hm, _⟩ := hr
  funext path
  rw [(Entries.Reordered.orEmpty hm).sortByKey.map_eq fun name m m' hm => ?_,
    hxy.sortByKey.map_eq fun name p q hpq => ?_]
  · change p.2 (path ++ "." ++ name) = q.2 (path ++ "." ++ name)
    rw [hpq.2]
  · exact writeCall_eq_of_reordered ht hm path name

end

/-! ## The file -/

variable {a b : Description} (h : a.Reordered b)
include h

theorem writeRun_eq_of_reordered : writeRun a = writeRun b := by
  rw [writeRun, writeRun,
    (Entries.Reordered.orEmpty h.resources).sortByKey.map_eq fun name r r' hr => ?_]
  simp only [writeCalls_eq_of_reordered h.table hr, h.name_eq]

theorem whenLoaded_eq_of_reordered :
    (whenLoaded a : Code RenderFault) = whenLoaded b := by
  have hs : (scopeList a.scopes : Code RenderFault) = scopeList b.scopes := by
    rw [scopeList, scopeList, h.scopes.sortByKey_eq]
  unfold whenLoaded authorization
  rw [h.name_eq, h.scopes.isEmpty_eq, hs]

theorem render_eq_of_reordered : render a = render b := by
  unfold render write writeClientLoaded
  rw [h.name_eq, h.version_eq, writeRun_eq_of_reordered h, whenLoaded_eq_of_reordered h]

end ApiTypings.Stub
