import ApiTypings.Proofs.CodeEffect

/-! # The level that operations leave

Whoever writes a body goes one level deeper for it and comes back when it is done; what raises
something in the body does not come back. So operations that complete leave the page at the level it
was at, however they are nested, and operations that are cut short leave it as many levels deeper as
there are bodies open around what was raised. -/

namespace ApiTypings

/-! ## Operations -/

/-- A body, by what it is written between. -/
inductive Body where
  | ofNamespace (name : String)
  | ofDeclaredNamespace (name : String)
  | ofInterface (name : String)
  | ofAnonymousType
  | ofScope (opening closing : String)
deriving DecidableEq, Repr

/-- What is written on the lines of a page without a body. -/
inductive Piece where
  | text (s : String)
  | line (s : String)
  | beginLine (s : String)
  | endLine (s : String)
  | beginNewLine (s : String)
  | referenceTypes (name : String)
  | comment (description : String) (closed : Bool)
deriving DecidableEq, Repr

mutual

/-- Something to be written. The operations of a body, and those of a type that takes several lines,
are operations again. -/
inductive Operation (ε : Type) where
  | piece (piece : Piece)
  | body (body : Body) (operations : List (Operation ε))
  | type (type : WrittenType ε)
  | property (name : String) (type : WrittenType ε) (required : Bool)
  | method (name : String) (params : List (String × WrittenType ε)) (returnType : String)
    (singleLine : Bool)
  | raise (fault : ε)

/-- What is written where a type is expected. -/
inductive WrittenType (ε : Type) where
  | inline (text : String)
  | block (operations : List (Operation ε))
  | unwritable (asType asProperty : ε)

end

section
variable {ε : Type}

def Body.code (body : Body) (inner : Code ε) : Code ε :=
  match body with
  | ofNamespace name => .namespaceBlock name inner
  | ofDeclaredNamespace name => .declareNamespace name inner
  | ofInterface name => .interfaceBlock name inner
  | ofAnonymousType => .anonymousType inner
  | ofScope opening closing => .scope inner opening closing

def Piece.code : Piece → Code ε
  | text s => .text s
  | line s => .line s
  | beginLine s => .beginLine s
  | endLine s => .endLine s
  | beginNewLine s => .beginNewLine s
  | referenceTypes name => .referenceTypes name
  | comment description closed => .comment description closed

mutual

def Operation.code : Operation ε → Code ε
  | .piece piece => piece.code
  | .body body operations => body.code (Operation.allCode operations)
  | .type type => .operand type.operand
  | .property name type required => .property name type.operand required
  | .method name params returnType singleLine =>
    .method name (WrittenType.operands params) returnType singleLine
  | .raise fault => .fail fault

def Operation.allCode : List (Operation ε) → Code ε
  | [] => .nil
  | operation :: rest => operation.code ++ Operation.allCode rest

def WrittenType.operand : WrittenType ε → Operand ε
  | .inline text => .inline text
  | .block operations => .block (Operation.allCode operations)
  | .unwritable asType asProperty => .unwritable asType asProperty

def WrittenType.operands : List (String × WrittenType ε) → List (String × Operand ε)
  | [] => []
  | (name, type) :: rest => (name, type.operand) :: WrittenType.operands rest

end

/-! ## What cuts operations short -/

/-- Something raised, and the bodies that are open around it, outermost first. -/
structure Interruption (ε : Type) where
  fault : ε
  bodies : List Body
deriving Repr

def Interruption.within (body : Body) (cut : Interruption ε) : Interruption ε :=
  { cut with bodies := body :: cut.bodies }

mutual

/-- What cuts the operation short, if anything does: the first thing raised in the order of
writing. -/
def Operation.cut? : Operation ε → Option (Interruption ε)
  | .piece _ => none
  | .body body operations => (Operation.firstCut? operations).map (.within body)
  | .type type => type.cut?
  | .property _ (.unwritable _ asProperty) _ => some ⟨asProperty, []⟩
  | .property _ type _ => type.cut?
  | .method _ params _ _ => WrittenType.firstCut? params
  | .raise fault => some ⟨fault, []⟩

def Operation.firstCut? : List (Operation ε) → Option (Interruption ε)
  | [] => none
  | operation :: rest => operation.cut?.or (Operation.firstCut? rest)

def WrittenType.cut? : WrittenType ε → Option (Interruption ε)
  | .inline _ => none
  | .block operations => Operation.firstCut? operations
  | .unwritable asType _ => some ⟨asType, []⟩

def WrittenType.firstCut? : List (String × WrittenType ε) → Option (Interruption ε)
  | [] => none
  | (_, type) :: rest => type.cut?.or (WrittenType.firstCut? rest)

end

end

/-! ## How code ends -/

namespace Code

variable {ε : Type} {a b : Code ε} {cut? cutNext? : Option (Interruption ε)}

/-- On any page, the code stops at what cuts it short, as many levels deeper as there are bodies
open; or it completes at the level it began at. -/
def Ends (a : Code ε) (cut? : Option (Interruption ε)) : Prop :=
  ∀ page : Page, ∃ after, a.run page = (after, cut?.map Interruption.fault) ∧
    after.level = page.level + (cut?.elim [] Interruption.bodies).length

theorem Adds.ends (h : a.Adds) : a.Ends none := by
  intro page
  obtain ⟨s, hs⟩ := h page
  exact ⟨_, hs, by simp [Page.append]⟩

theorem ends_fail (fault : ε) : (fail fault).Ends (some ⟨fault, []⟩) :=
  fun page => ⟨page, rfl, by simp⟩

theorem Ends.append (ha : a.Ends cut?) (hb : b.Ends cutNext?) :
    (a ++ b).Ends (cut?.or cutNext?) := by
  intro page
  obtain ⟨mid, ha, hmid⟩ := ha page
  cases cut? with
  | some cut =>
    refine ⟨mid, ?_, hmid⟩
    change (append a b).run page = _
    rw [run, ha]
    rfl
  | none =>
    obtain ⟨after, hb, hafter⟩ := hb mid
    refine ⟨after, (run_append ha).trans hb, ?_⟩
    simp at hmid
    rw [hafter, hmid, Option.none_or]

/-- A body that is cut short is open around what cut it short. -/
theorem Ends.nest (h : a.Ends cut?) (body : Body) : (nest a).Ends (cut?.map (.within body)) := by
  intro page
  obtain ⟨after, ha, hafter⟩ := h (page.shift 1)
  cases cut? with
  | some cut =>
    refine ⟨after, by rw [run, ha]; rfl, ?_⟩
    simp [Page.shift, Interruption.within] at hafter ⊢
    omega
  | none =>
    refine ⟨after.shift (-1), run_nest ha, ?_⟩
    simp [Page.shift] at hafter ⊢
    omega

/-- What stands around a body neither fails nor changes the level. -/
theorem Ends.between {front back : Code ε} (hf : front.Adds) (h : a.Ends cut?) (hb : back.Adds) :
    (front ++ a ++ back).Ends cut? := by
  have hends := (hf.ends.append h).append hb.ends
  rwa [Option.none_or, Option.or_none] at hends

theorem Ends.body (h : a.Ends cut?) (body : Body) :
    (body.code a).Ends (cut?.map (.within body)) := by
  have hn := h.nest body
  cases body with
  | ofNamespace name => exact .between (adds_line _) hn (adds_line _)
  | ofDeclaredNamespace name =>
    have hbraces := Ends.between (adds_line ("declare namespace " ++ name ++ " \x7b")) hn
      (adds_line "\x7d")
    have hends := (adds_line "").ends.append hbraces
    rwa [Option.none_or] at hends
  | ofInterface name => exact .between (adds_line _) hn (adds_line _)
  | ofAnonymousType => exact .between (adds_endLine _) hn (adds_beginLine _)
  | ofScope opening closing =>
    have hopen := Ends.between (adds_text opening) hn adds_newLine
    have hends := hopen.append (adds_beginLine closing).ends
    rwa [Option.or_none] at hends

end Code

/-! ## How operations end -/

section
variable {ε : Type}

open Code

theorem Piece.adds (piece : Piece) : (piece.code : Code ε).Adds := by
  cases piece with
  | text s => exact adds_text s
  | line s => exact adds_line s
  | beginLine s => exact adds_beginLine s
  | endLine s => exact adds_endLine s
  | beginNewLine s => exact adds_newLine.append (adds_beginLine s)
  | referenceTypes name => exact adds_line _
  | comment description closed => exact adds_comment description closed

mutual

theorem Operation.ends (operation : Operation ε) : operation.code.Ends operation.cut? := by
  cases operation with
  | piece piece => exact piece.adds.ends
  | body body operations => exact (Operation.allEnd operations).body body
  | type type => exact type.ends
  | property name type required =>
    have htype := type.ends
    cases type with
    | inline text => exact (adds_line _).ends
    | block operations => exact .between (adds_beginLine _) htype (adds_endLine _)
    | unwritable asType asProperty => exact ends_fail asProperty
  | method name params returnType singleLine =>
    have hparams := Ends.between (adds_beginLine (name ++ "("))
      (WrittenType.allEnd params singleLine) (adds_text ("): " ++ returnType ++ ";"))
    have hends := hparams.append (adds_endLine "").ends
    rwa [Option.or_none] at hends
  | raise fault => exact ends_fail fault

theorem Operation.allEnd (operations : List (Operation ε)) :
    (Operation.allCode operations).Ends (Operation.firstCut? operations) := by
  cases operations with
  | nil => exact adds_nil.ends
  | cons operation rest => exact operation.ends.append (Operation.allEnd rest)

theorem WrittenType.ends (type : WrittenType ε) : (Code.operand type.operand).Ends type.cut? := by
  cases type with
  | inline text => exact (adds_text text).ends
  | block operations => exact Operation.allEnd operations
  | unwritable asType asProperty => exact ends_fail asType

theorem WrittenType.allEnd (params : List (String × WrittenType ε)) (singleLine : Bool) :
    (parameters singleLine (WrittenType.operands params)).Ends (WrittenType.firstCut? params) := by
  match params with
  | [] => exact adds_nil.ends
  | [(name, type)] =>
    have hends := (adds_text (name ++ ": ")).ends.append type.ends
    simpa [WrittenType.operands, WrittenType.firstCut?, parameters] using hends
  | (name, type) :: next :: rest =>
    have hgap : (if singleLine then text " " else beginNewLine "" : Code ε).Adds := by
      cases singleLine
      · exact adds_newLine.append (adds_beginLine "")
      · exact adds_text " "
    have hfirst := Ends.between (adds_text (name ++ ": ")) type.ends (adds_text ",")
    have hends := (hfirst.append hgap.ends).append (WrittenType.allEnd (next :: rest) singleLine)
    rwa [Option.or_none] at hends

end

/-- Operations that complete leave the page at the level it was at; operations that are cut short
leave it as many levels deeper as there are bodies open around what was raised. -/
theorem Operation.level_of_run (operations : List (Operation ε)) (page : Page) :
    match (Operation.allCode operations).run page with
    | (after, none) => Operation.firstCut? operations = none ∧ after.level = page.level
    | (after, some fault) => ∃ bodies, Operation.firstCut? operations = some ⟨fault, bodies⟩ ∧
        after.level = page.level + bodies.length := by
  obtain ⟨after, hrun, hlevel⟩ := Operation.allEnd operations page
  rw [hrun]
  cases hcut : Operation.firstCut? operations with
  | none =>
    rw [hcut] at hlevel
    exact ⟨rfl, by simpa using hlevel⟩
  | some cut =>
    rw [hcut] at hlevel
    exact ⟨cut.bodies, rfl, hlevel⟩

/-- A property of a type in braces whose method is not writable: the interface and the braces are
open. -/
example : Operation.firstCut? (ε := String)
    [.body (.ofInterface "Track") [
      .property "length" (.inline "number") true,
      .property "artist" (.block [.body .ofAnonymousType [
        .method "play" [("speed", .unwritable "no type" "no property type")] "void" true]]) false],
     .raise "not reached"] =
    some ⟨"no type", [.ofInterface "Track", .ofAnonymousType]⟩ := rfl

end

end ApiTypings
