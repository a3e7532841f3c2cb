import Std.Data.TreeMap
import MaterialScript.Document

/-!
# Materials

A material has techniques with the final state of each of their passes. Render state is handed over as
a sequence of setters, one for each piece of state. The uniforms of a pass are kept in the order in
which their names were first set, each with the value set last.

* `Setter` : sets one piece of the state of a pass; `RenderOption.setters`, `Layer.setters` : what a
  statement, a layer sets, in order;
* `UniformTable` : uniforms, with an index for fast look-up; `UniformTable.set` : sets a value;
  `UniformTable.get?` : the value of a name;
* `PassState` : the render state of one pass; `PassState.new` : the state that the engine starts from;
* `PassState.set`, `PassState.setAll` : what setters do to it;
* `PassState.setters` : the setters that hand the whole state over to another pass;
* `PassState.display` : the state as a reader sees it; `PassState.equal` : equality of states, with
  numbers compared by value;
* `MaterialTechnique`, `Material` : techniques and their passes; `Material.add` : one more technique;
* `Material.ofDocument` : the material that a document describes;
* `Material.update?` : changes the pass that a technique name and a pass name stand for.
-/

namespace MaterialScript

/-! ## Setters -/

/-- Sets one piece of the state of a pass. -/
inductive Setter where
  | cullFace (face : CullFace)
  | blending (enabled : Bool)
  | blendFactors (src dst : BlendFactor)
  | depthTest (on : Bool)
  | depthWrite (on : Bool)
  | shader (shader : Handle .shader)
  | uniform (name : String) (value : UniformValue)
deriving DecidableEq, Repr

/-- What a blending state sets; disabled blending leaves the factors alone. -/
def Blend.setters (b : Blend) : List Setter :=
  if b.enabled then [.blending true, .blendFactors b.src b.dst] else [.blending false]

def RenderOption.setters : RenderOption → List Setter
  | cullFace face => [.cullFace face]
  | blend b => b.setters
  | depthTest on => [.depthTest on]
  | depthWrite on => [.depthWrite on]
  | shader s => [.shader s.handle]

def Uniform.setter (u : Uniform) : Setter := .uniform u.name u.value

/-- What a layer sets: its options, then its uniforms. -/
def Layer.setters (l : Layer) : List Setter :=
  l.options.flatMap RenderOption.setters ++ l.uniforms.map Uniform.setter

/-! ## Uniform tables -/

/-- Uniforms in the order of their first setting; `index` finds the place of a name. -/
structure UniformTable where
  entries : Array (String × UniformValue) := #[]
  index : Std.TreeMap String Nat := ∅

namespace UniformTable

/-- Gives a name a value. A new name goes to the end, a known one keeps its place. -/
def set (t : UniformTable) (name : String) (value : UniformValue) : UniformTable :=
  match t.index[name]? with
  | some i => { t with entries := t.entries.modify i (fun e => (e.1, value)) }
  | none =>
    { entries := t.entries.push (name, value), index := t.index.insert name t.entries.size }

def get? (t : UniformTable) (name : String) : Option UniformValue :=
  t.index[name]?.bind (fun i => t.entries[i]?.map Prod.snd)

def toList (t : UniformTable) : List (String × UniformValue) := t.entries.toList

end UniformTable

/-! ## Pass states -/

/-- The render state of one pass. -/
structure PassState where
  name : Option String
  cullFace : CullFace
  blend : Blend
  depthTest : Bool
  depthWrite : Bool
  shader : Option (Handle .shader)
  uniforms : UniformTable

namespace PassState

/-- The state that the engine starts from: back faces culled, no blending, no depth test, no depth
write and no shader. -/
def new (name : Option String) : PassState where
  name
  cullFace := .back
  blend := .disabled
  depthTest := false
  depthWrite := false
  shader := none
  uniforms := {}

def set (p : PassState) : Setter → PassState
  | .cullFace face => { p with cullFace := face }
  | .blending enabled => { p with blend := { p.blend with enabled } }
  | .blendFactors src dst => { p with blend := { p.blend with src, dst } }
  | .depthTest on => { p with depthTest := on }
  | .depthWrite on => { p with depthWrite := on }
  | .shader handle => { p with shader := some handle }
  | .uniform name value => { p with uniforms := p.uniforms.set name value }

def setAll (p : PassState) (setters : List Setter) : PassState := setters.foldl set p

def apply (p : PassState) (l : Layer) : PassState := p.setAll l.setters

def uniform? (p : PassState) (name : String) : Option UniformValue := p.uniforms.get? name

/-- The setters that hand the whole state over. -/
def setters (p : PassState) : List Setter :=
  (p.shader.map Setter.shader).toList
    ++ [.cullFace p.cullFace, .depthTest p.depthTest, .depthWrite p.depthWrite]
    ++ p.blend.setters
    ++ p.uniforms.toList.map (fun u => .uniform u.1 u.2)

def lines (p : PassState) : List String :=
  ["CullFace " ++ p.cullFace.keyword, "BlendFunc " ++ p.blend.display,
    "DepthTest " ++ switchWord p.depthTest, "DepthWrite " ++ switchWord p.depthWrite,
    match p.shader with
    | some handle => "Shader #" ++ toString handle.id
    | none => "Shader none"]
  ++ p.uniforms.toList.map (fun u => "SetUniform " ++ u.1 ++ " " ++ u.2.display)

/-- A state as a reader sees it, each line ended. -/
def display (p : PassState) : String := String.join (p.lines.map (· ++ "\n"))

/-- Whether two states are equal, with the numbers of uniforms compared by value. -/
def equal (p q : PassState) : Bool :=
  p.name == q.name && p.cullFace == q.cullFace && p.blend == q.blend
    && p.depthTest == q.depthTest && p.depthWrite == q.depthWrite && p.shader == q.shader
    && p.uniforms.toList.length == q.uniforms.toList.length
    && (p.uniforms.toList.zip q.uniforms.toList).all fun (u, v) => u.1 == v.1 && u.2.equal v.2

@[simp] theorem setAll_nil (p : PassState) : p.setAll [] = p := rfl

@[simp] theorem setAll_cons (p : PassState) (s : Setter) (ss : List Setter) :
    p.setAll (s :: ss) = (p.set s).setAll ss := rfl

@[simp] theorem setAll_append (p : PassState) (ss ts : List Setter) :
    p.setAll (ss ++ ts) = (p.setAll ss).setAll ts := by
  simp [setAll]

@[simp] theorem name_set (p : PassState) (s : Setter) : (p.set s).name = p.name := by
  cases s <;> rfl

@[simp] theorem name_setAll (p : PassState) (ss : List Setter) : (p.setAll ss).name = p.name := by
  induction ss generalizing p with
  | nil => rfl
  | cons s ss ih => simp [ih]

end PassState

/-! ## Materials -/

structure MaterialTechnique where
  name : Option String
  passes : List PassState := []

structure Material where
  techniques : List MaterialTechnique := []

def MaterialTechnique.pass? (t : MaterialTechnique) (name : String) : Option PassState :=
  t.passes.find? (fun p => p.name == some name)

namespace Material

def add (m : Material) (t : MaterialTechnique) : Material where
  techniques := m.techniques ++ [t]

def technique? (m : Material) (name : String) : Option MaterialTechnique :=
  m.techniques.find? (fun t => t.name == some name)

def passCount (m : Material) : Nat := (m.techniques.flatMap (·.passes)).length

/-! ### From a document -/

def buildPass (name : Option String) (layers : List Layer) : PassState :=
  layers.foldl PassState.apply (PassState.new name)

/-- A technique below the layer of its document. Without passes it gets an unnamed one. -/
def buildTechnique (base : Layer) (t : Technique) : MaterialTechnique where
  name := t.name
  passes :=
    if t.passes.isEmpty then [buildPass none [base, t.layer]]
    else t.passes.map fun p => buildPass p.name [base, t.layer, p.layer]

/-- The material that a document describes. Without techniques it has an unnamed one with an unnamed
pass. -/
def ofDocument (d : Document) : Material where
  techniques :=
    if d.techniques.isEmpty then [{ name := none, passes := [buildPass none [d.layer]] }]
    else d.techniques.map (buildTechnique d.layer)

/-! ### Changing a pass -/

/-- Changes the first element with a property, if there is one. -/
def updateFirst? {α : Type} (p : α → Bool) (f : α → Option α) : List α → Option (List α)
  | [] => none
  | a :: as => if p a then (f a).map (· :: as) else (updateFirst? p f as).map (a :: ·)

/-- Changes a pass of the first technique with a name, the first pass with a name in it. -/
def update? (m : Material) (technique pass : Option String) (f : PassState → PassState) :
    Option Material :=
  (updateFirst? (fun t => t.name == technique)
    (fun t => (updateFirst? (fun p => p.name == pass) (fun p => some (f p)) t.passes).map
      fun passes => { t with passes })
    m.techniques).map Material.mk

/-- The pass that a technique name and a pass name stand for. -/
def find? (m : Material) (technique pass : Option String) : Option PassState :=
  (m.techniques.find? (fun t => t.name == technique)).bind
    fun t => t.passes.find? (fun p => p.name == pass)

end Material

end MaterialScript
