import MaterialScript.Number.Binary32
import MaterialScript.Position
import MaterialScript.RenderState

/-!
# Actions

A rule of the grammar that matches fires actions. Literal rules hand over a value, composite rules
use up the values that their parts handed over, scope rules open and close techniques and passes.

* `Action` : what fires; `Action.ruleName` : the rule it belongs to;
* `Action.completesStatement` : it ends an option or a uniform;
* `Firing` : an action with the span its rule matched.
-/

namespace MaterialScript

/-- What a matching rule fires. -/
inductive Action where
  | bool (value : Bool)
  | float (value : Binary32)
  | identifier (text : String)
  | string (text : String)
  | blendFactor (factor : BlendFactor)
  | cullFaceOption (face : CullFace)
  /-- Uses up a source and a destination factor when blending is enabled. -/
  | blendOption (enabled : Bool)
  | depthTestOption
  | depthWriteOption
  | shaderOption
  | uniformFloat
  | uniformVec2
  | uniformVec3
  | uniformVec4
  | uniformTexture
  | uniform
  | techniqueBegin (name : Option String)
  | techniqueEnd
  | passBegin (name : Option String)
  | passEnd
deriving DecidableEq, Repr

namespace Action

/-- The name of the rule that fires an action, as messages give it. -/
def ruleName : Action → String
  | bool false => "BoolFalse"
  | bool true => "BoolTrue"
  | float _ => "FloatingPointNumber"
  | identifier _ => "IdentifierText"
  | string _ => "StringLiteral"
  | blendFactor _ => "BlendFuncValue"
  | cullFaceOption _ => "CullFaceOption"
  | blendOption _ => "BlendOption"
  | depthTestOption => "DepthTestOption"
  | depthWriteOption => "DepthWriteOption"
  | shaderOption => "ShaderOption"
  | uniformFloat => "UniformFloatValue"
  | uniformVec2 => "UniformVec2Value"
  | uniformVec3 => "UniformVec3Value"
  | uniformVec4 => "UniformVec4Value"
  | uniformTexture => "UniformTextureValue"
  | uniform => "Uniform"
  | techniqueBegin _ => "TechniqueBegin"
  | techniqueEnd => "TechniqueEnd"
  | passBegin _ => "PassBegin"
  | passEnd => "PassEnd"

/-- Whether an action ends an option or a uniform. -/
def completesStatement : Action → Bool
  | cullFaceOption _ | blendOption _ | depthTestOption | depthWriteOption | shaderOption
  | uniform => true
  | _ => false

end Action

/-- An action and the bytes that its rule matched. -/
structure Firing where
  action : Action
  span : Span
deriving DecidableEq, Repr

end MaterialScript
