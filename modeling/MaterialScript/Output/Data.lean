import MaterialScript.Document

/-!
# Documents as data

* `Data` : what data formats hold: scalars, lists, records, and values with a tag;
* `Document.toData` : a document as data, with its fields in a fixed order.
-/

namespace MaterialScript

/-- What data formats hold. -/
inductive Data where
  | null
  | bool (value : Bool)
  | nat (value : Nat)
  | float (value : Binary32)
  | text (value : String)
  | list (items : List Data)
  | record (fields : List (String × Data))
  /-- A value that says by a tag of which sort it is. -/
  | variant (tag : String) (value : Data)

namespace Data

/-- A text that need not be there. -/
def ofOption : Option String → Data
  | none => null
  | some s => text s

end Data

def Reference.toData {kind : ResourceKind} (r : Reference kind) : Data :=
  .record [("path", .text r.path), ("handle", .nat r.handle.id)]

def Blend.toData (b : Blend) : Data :=
  .record [("enabled", .bool b.enabled), ("src", .text b.src.keyword), ("dst", .text b.dst.keyword)]

def RenderOption.toData : RenderOption → Data
  | cullFace face => .variant "CullFace" (.text face.keyword)
  | blend b => .variant "Blend" b.toData
  | depthTest on => .variant "DepthTest" (.bool on)
  | depthWrite on => .variant "DepthWrite" (.bool on)
  | shader s => .variant "Shader" s.toData

def UniformValue.toData : UniformValue → Data
  | float x => .variant "Float" (.float x)
  | vec2 x y => .variant "Vec2" (.list [.float x, .float y])
  | vec3 x y z => .variant "Vec3" (.list [.float x, .float y, .float z])
  | vec4 x y z w => .variant "Vec4" (.list [.float x, .float y, .float z, .float w])
  | texture t => .variant "Texture" t.toData

def Uniform.toData (u : Uniform) : Data :=
  .record [("name", .text u.name), ("value", u.value.toData)]

/-- The fields of a layer, which stand among those of its level. -/
def Layer.fields (l : Layer) : List (String × Data) :=
  [("options", .list (l.options.map RenderOption.toData)),
    ("uniforms", .list (l.uniforms.map Uniform.toData))]

def Pass.toData (p : Pass) : Data := .record (("name", .ofOption p.name) :: p.layer.fields)

def Technique.toData (t : Technique) : Data :=
  .record (("name", .ofOption t.name) :: t.layer.fields
    ++ [("passes", .list (t.passes.map Pass.toData))])

def Document.toData (d : Document) : Data :=
  .record (d.layer.fields ++ [("techniques", .list (d.techniques.map Technique.toData))])

end MaterialScript
