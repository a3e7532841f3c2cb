import MaterialScript.Number.Binary32
import MaterialScript.RenderState
import MaterialScript.Resource
import MaterialScript.Text.Quoted

/-!
# Documents

A document has techniques, a technique has passes, and each of the three has a layer of options and
uniforms of its own.

* `RenderOption`, `UniformValue`, `Uniform` : the statements of a layer;
* `Layer` : the statements of one level, in the order of the source; `Layer.uniform?` : the last
  value of a name;
* `Pass`, `Technique`, `Document` : the levels.
-/

namespace MaterialScript

/-- One setting of the fixed render state. -/
inductive RenderOption where
  | cullFace (face : CullFace)
  | blend (blend : Blend)
  | depthTest (on : Bool)
  | depthWrite (on : Bool)
  | shader (shader : Reference .shader)
deriving DecidableEq, Repr

namespace RenderOption

def keyword : RenderOption → String
  | cullFace _ => "CullFace"
  | blend _ => "BlendFunc"
  | depthTest _ => "DepthTest"
  | depthWrite _ => "DepthWrite"
  | shader _ => "Shader"

def valueText : RenderOption → String
  | cullFace face => face.keyword
  | blend b => b.display
  | depthTest on => switchWord on
  | depthWrite on => switchWord on
  | shader s => Text.quoted s.path

def display (o : RenderOption) : String := o.keyword ++ " " ++ o.valueText

end RenderOption

/-- The value of a uniform: one to four numbers, or a texture. -/
inductive UniformValue where
  | float (x : Binary32)
  | vec2 (x y : Binary32)
  | vec3 (x y z : Binary32)
  | vec4 (x y z w : Binary32)
  | texture (texture : Reference .texture)
deriving DecidableEq, Repr

namespace UniformValue

def typeName : UniformValue → String
  | float .. => "float"
  | vec2 .. => "vec2"
  | vec3 .. => "vec3"
  | vec4 .. => "vec4"
  | texture .. => "texture"

def components : UniformValue → List Binary32
  | float x => [x]
  | vec2 x y => [x, y]
  | vec3 x y z => [x, y, z]
  | vec4 x y z w => [x, y, z, w]
  | texture _ => []

/-- Numbers in parentheses. -/
def tupleText (xs : List Binary32) : String :=
  "(" ++ String.intercalate ", " (xs.map Binary32.text) ++ ")"

def display : UniformValue → String
  | float x => x.text
  | texture t => Text.quoted t.path
  | v => tupleText v.components

/-- Whether two values are of one type with numerically equal components, or one texture. -/
def equal : UniformValue → UniformValue → Bool
  | texture t, texture u => t == u
  | v, w => v.typeName == w.typeName && (v.components.zip w.components).all fun p => p.1.equal p.2

end UniformValue

structure Uniform where
  name : String
  value : UniformValue
deriving DecidableEq, Repr

/-- The options and the uniforms of one level, each in the order of the source. -/
structure Layer where
  options : List RenderOption := []
  uniforms : List Uniform := []
deriving DecidableEq, Repr

namespace Layer

def pushOption (l : Layer) (o : RenderOption) : Layer := { l with options := l.options ++ [o] }

def pushUniform (l : Layer) (u : Uniform) : Layer := { l with uniforms := l.uniforms ++ [u] }

def isEmpty (l : Layer) : Bool := l.options.isEmpty && l.uniforms.isEmpty

def uniform? (l : Layer) (name : String) : Option UniformValue :=
  (l.uniforms.reverse.find? (fun u => u.name == name)).map Uniform.value

end Layer

structure Pass where
  name : Option String
  layer : Layer := {}
deriving DecidableEq, Repr

structure Technique where
  name : Option String
  layer : Layer := {}
  passes : List Pass := []
deriving DecidableEq, Repr

structure Document where
  layer : Layer := {}
  techniques : List Technique := []
deriving DecidableEq, Repr

def Technique.passIndex? (t : Technique) (name : String) : Option Nat :=
  t.passes.findIdx? (fun p => p.name == some name)

def Document.techniqueIndex? (d : Document) (name : String) : Option Nat :=
  d.techniques.findIdx? (fun t => t.name == some name)

def Document.passCount (d : Document) : Nat := (d.techniques.flatMap (·.passes)).length

/-- The label of something that need not have a name. -/
def nameLabel (name : Option String) : String := name.getD "<unnamed>"

end MaterialScript
