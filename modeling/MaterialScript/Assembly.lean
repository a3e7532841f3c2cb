import MaterialScript.Action
import MaterialScript.Position
import MaterialScript.Document

/-!
# Assembly of documents

Firings assemble a document. Literals are pushed on typed stacks and popped by the composite that
needs them, so a vector pops its last component first. Options and uniforms go to the innermost open
scope: the document, a technique of it, or a pass of that technique.

* `Assembly σ` : the stacks, the open scopes, what is being built, and the state of the resolver;
* `Fault` : what can go wrong; `Fault.kind`, `Fault.message` : its kind and wording;
* `Assembly.perform` : one action; `Assembly.fire`, `Assembly.fireAll` : firings;
* `Assembly.close` : the finished document.

What an action has popped before it fails stays popped.
-/

namespace MaterialScript

/-- The scopes that statements can stand in. -/
inductive Scope where
  | file
  | technique
  | pass
deriving DecidableEq, Repr

def Scope.title : Scope → String
  | file => "File"
  | technique => "Technique"
  | pass => "Pass"

def Scope.noun : Scope → String
  | file => "file"
  | technique => "technique"
  | pass => "pass"

/-- The stacks of pending values. -/
inductive Stack where
  | bools
  | floats
  | strings
  | factors
  | uniforms
deriving DecidableEq, Repr

def Stack.Value : Stack → Type
  | bools => Bool
  | floats => Binary32
  | strings => String
  | factors => BlendFactor
  | uniforms => UniformValue

def Stack.noun : Stack → String
  | bools => "bool"
  | floats => "float"
  | strings => "string"
  | factors => "blend function"
  | uniforms => "uniform"

def Stack.leftoverNoun : Stack → String
  | uniforms => "uniform value"
  | stack => stack.noun

/-! ## Faults -/

/-- Why an action cannot be performed. -/
inductive Fault where
  /-- A value is needed from an empty stack. -/
  | underflow (stack : Stack)
  /-- Values are left on a stack at the end of a statement. -/
  | unconsumed (stack : Stack) (count : Nat)
  | techniqueInside
  | passOutside
  /-- A scope is closed that is not the innermost one. -/
  | wrongScope (expected : Scope) (found : Option Scope)
  | techniqueNotOpen
  | passNotOpen
  | noOpenScope
  /-- The input ends in an open scope. -/
  | stillOpen (scope : Option Scope)
  | resource (error : ResourceError)
deriving DecidableEq, Repr

namespace Fault

def kind : Fault → Diagnostic.Kind
  | underflow _ => .stackUnderflow
  | unconsumed .. => .unconsumedValues
  | techniqueInside | passOutside | wrongScope .. | techniqueNotOpen | passNotOpen | noOpenScope
  | stillOpen _ => .scopeImbalance
  | resource _ => .resourceError

def scopeTitle : Option Scope → String
  | none => "None"
  | some scope => "Some(" ++ scope.title ++ ")"

def message : Fault → String
  | underflow stack => "expected a pending " ++ stack.noun ++ " value but the stack is empty"
  | unconsumed stack count =>
    toString count ++ " " ++ stack.leftoverNoun ++ " value(s) left unconsumed"
  | techniqueInside => "technique opened while another scope is open"
  | passOutside => "pass opened outside of a technique"
  | wrongScope expected found =>
    "closing " ++ expected.title ++ " scope but the open scope is " ++ scopeTitle found
  | techniqueNotOpen => "technique closed without being opened"
  | passNotOpen => "pass closed without being opened"
  | noOpenScope => "no open scope to receive the statement"
  | stillOpen scope =>
    "end of input with " ++ ((scope.map Scope.noun).getD "document") ++ " scope still open"
  | resource error => error.message

/-- The wording of a fault of an action. Internal faults name the rule of the action. -/
def messageIn (f : Fault) (action : Action) : String :=
  if f.kind.isInternal then action.ruleName ++ ": " ++ f.message else f.message

end Fault

/-! ## State -/

/-- A document being assembled. Stacks have their last pushed value first, and `scopes` has the
innermost scope first. -/
structure Assembly (σ : Type) where
  bools : List Bool := []
  floats : List Binary32 := []
  strings : List String := []
  factors : List BlendFactor := []
  uniforms : List UniformValue := []
  scopes : List Scope := [.file]
  technique : Option Technique := none
  pass : Option Pass := none
  document : Document := {}
  /-- The state of the resolver. -/
  host : σ

namespace Assembly

variable {σ : Type}

def start (host : σ) : Assembly σ := { host }

def depth (a : Assembly σ) : Nat := a.scopes.length

def scope? (a : Assembly σ) : Option Scope := a.scopes.head?

/-- The values on a stack, the last one first. -/
def values (a : Assembly σ) : (stack : Stack) → List stack.Value
  | .bools => a.bools
  | .floats => a.floats
  | .strings => a.strings
  | .factors => a.factors
  | .uniforms => a.uniforms

def setValues (a : Assembly σ) : (stack : Stack) → List stack.Value → Assembly σ
  | .bools, xs => { a with bools := xs }
  | .floats, xs => { a with floats := xs }
  | .strings, xs => { a with strings := xs }
  | .factors, xs => { a with factors := xs }
  | .uniforms, xs => { a with uniforms := xs }

def pending (a : Assembly σ) (stack : Stack) : Nat := (a.values stack).length

/-- The first stack with values on it, in the order in which they are reported. -/
def leftover? (a : Assembly σ) : Option Stack :=
  [Stack.bools, .floats, .strings, .factors, .uniforms].find? (fun stack => a.pending stack ≠ 0)

end Assembly

/-! ## Steps -/

/-- A step of the assembly. A step that fails keeps what it has changed. -/
abbrev AssemblyM (σ : Type) := EStateM Fault (Assembly σ)

namespace Assembly

variable {σ : Type}

def pop (stack : Stack) : AssemblyM σ stack.Value := do
  match (← get).values stack with
  | [] => throw (.underflow stack)
  | x :: rest =>
    modify fun a => a.setValues stack rest
    return x

def popBool : AssemblyM σ Bool := pop .bools

def popFloat : AssemblyM σ Binary32 := pop .floats

def popString : AssemblyM σ String := pop .strings

def popFactor : AssemblyM σ BlendFactor := pop .factors

def popUniform : AssemblyM σ UniformValue := pop .uniforms

def push (stack : Stack) (value : stack.Value) : AssemblyM σ Unit :=
  modify fun a => a.setValues stack (value :: a.values stack)

def pushUniform (value : UniformValue) : AssemblyM σ Unit := push .uniforms value

def updateLayer (f : Layer → Layer) : AssemblyM σ Unit := do
  let a ← get
  match a.scope?, a.technique, a.pass with
  | some .file, _, _ => set { a with document.layer := f a.document.layer }
  | some .technique, some t, _ => set { a with technique := some { t with layer := f t.layer } }
  | some .pass, _, some p => set { a with pass := some { p with layer := f p.layer } }
  | _, _, _ => throw .noOpenScope

def emitOption (o : RenderOption) : AssemblyM σ Unit := updateLayer (·.pushOption o)

/-- Loads a resource that the document at `base` refers to. -/
def loadReference (resolver : Resolver σ) (base : String) (kind : ResourceKind)
    (reference : String) : AssemblyM σ (Reference kind) := do
  let a ← get
  let path := resolver.locate a.host reference base
  match resolver.load kind path a.host with
  | (.ok handle, host) =>
    set { a with host }
    return ⟨path, handle⟩
  | (.error e, host) =>
    set { a with host }
    throw (.resource e)

/-- Closes the innermost scope. The document itself is never closed. -/
def popScope (expected : Scope) : AssemblyM σ Unit := do
  let a ← get
  match a.scopes with
  | scope :: outer :: more =>
    if scope = expected then set { a with scopes := outer :: more }
    else throw (.wrongScope expected (some scope))
  | scopes => throw (.wrongScope expected scopes.head?)

def openTechnique (name : Option String) : AssemblyM σ Unit := do
  let a ← get
  if a.technique.isSome ∨ a.scope? ≠ some .file then throw .techniqueInside
  else set { a with technique := some { name }, scopes := .technique :: a.scopes }

def closeTechnique : AssemblyM σ Unit := do
  popScope .technique
  let a ← get
  match a.technique with
  | some t => set { a with technique := none, document.techniques := a.document.techniques ++ [t] }
  | none => throw .techniqueNotOpen

def openPass (name : Option String) : AssemblyM σ Unit := do
  let a ← get
  if a.pass.isSome ∨ a.technique.isNone ∨ a.scope? ≠ some .technique then throw .passOutside
  else set { a with pass := some { name }, scopes := .pass :: a.scopes }

def closePass : AssemblyM σ Unit := do
  popScope .pass
  let a ← get
  match a.pass, a.technique with
  | some p, some t =>
    set { a with pass := none, technique := some { t with passes := t.passes ++ [p] } }
  | _, _ =>
    set { a with pass := none }
    throw .passNotOpen

def checkConsumed : AssemblyM σ Unit := do
  let a ← get
  match a.leftover? with
  | some stack => throw (.unconsumed stack (a.pending stack))
  | none => return ()

/-- What an action does, without the check at the end of a statement. -/
def act (resolver : Resolver σ) (base : String) : Action → AssemblyM σ Unit
  | .bool value => push .bools value
  | .float value => push .floats value
  | .identifier text | .string text => push .strings text
  | .blendFactor factor => push .factors factor
  | .cullFaceOption face => emitOption (.cullFace face)
  | .blendOption true => do
    let dst ← popFactor
    let src ← popFactor
    emitOption (.blend (Blend.factors src dst))
  | .blendOption false => emitOption (.blend Blend.disabled)
  | .depthTestOption => do
    let on ← popBool
    emitOption (.depthTest on)
  | .depthWriteOption => do
    let on ← popBool
    emitOption (.depthWrite on)
  | .shaderOption => do
    let reference ← popString
    let shader ← loadReference resolver base .shader reference
    emitOption (.shader shader)
  | .uniformFloat => do
    let x ← popFloat
    pushUniform (.float x)
  | .uniformVec2 => do
    let y ← popFloat
    let x ← popFloat
    pushUniform (.vec2 x y)
  | .uniformVec3 => do
    let z ← popFloat
    let y ← popFloat
    let x ← popFloat
    pushUniform (.vec3 x y z)
  | .uniformVec4 => do
    let w ← popFloat
    let z ← popFloat
    let y ← popFloat
    let x ← popFloat
    pushUniform (.vec4 x y z w)
  | .uniformTexture => do
    let reference ← popString
    let texture ← loadReference resolver base .texture reference
    pushUniform (.texture texture)
  | .uniform => do
    let value ← popUniform
    let name ← popString
    updateLayer (·.pushUniform ⟨name, value⟩)
  | .techniqueBegin name => openTechnique name
  | .techniqueEnd => closeTechnique
  | .passBegin name => openPass name
  | .passEnd => closePass

/-- Performs an action; a statement has to use up all values. -/
def perform (resolver : Resolver σ) (base : String) (action : Action) : AssemblyM σ Unit := do
  act resolver base action
  if action.completesStatement then checkConsumed

end Assembly

/-! ## Runs -/

structure Misfire where
  firing : Firing
  fault : Fault
deriving DecidableEq, Repr

namespace Assembly

variable {σ : Type}

def fire (resolver : Resolver σ) (base : String) (f : Firing) : EStateM Misfire (Assembly σ) Unit :=
  (perform resolver base f.action).adaptExcept (Misfire.mk f)

/-- Performs firings in order, up to the first fault. -/
def fireAll (resolver : Resolver σ) (base : String) :
    List Firing → EStateM Misfire (Assembly σ) Unit
  | [] => pure ()
  | f :: fs => do
    fire resolver base f
    fireAll resolver base fs

/-- The finished document: no scope is open but that of the document, and all stacks are empty. -/
def close (a : Assembly σ) : Except Fault Document :=
  if a.scopes ≠ [.file] ∨ a.technique.isSome then .error (.stillOpen a.scope?)
  else
    match a.leftover? with
    | some stack => .error (.unconsumed stack (a.pending stack))
    | none => .ok a.document

end Assembly

/-! ## Diagnostics -/

def Misfire.diagnostic (m : Misfire) (file : String) (text : List Char) : Diagnostic :=
  { kind := m.fault.kind, file, message := m.fault.messageIn m.firing.action : Diagnostic }.atOffset
    text m.firing.span.start

def Fault.diagnosticAtEnd (f : Fault) (file : String) (text : List Char) : Diagnostic :=
  { kind := f.kind, file, message := f.message : Diagnostic }.atOffset text (Text.bytes text)

end MaterialScript
