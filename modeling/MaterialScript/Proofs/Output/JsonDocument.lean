import MaterialScript.Output.Printer
import MaterialScript.Proofs.Output.JsonText
import MaterialScript.Proofs.Translation.Numbers

/-!
# Documents from JSON texts

A document whose floats are finite is recovered from its JSON text: records by the names of their fields,
values with a tag by that tag, and floats as the ones nearest to the numbers that are written.

* `Json.Value.float?`, `Json.Value.name?`, … : what a JSON text stands for at a place of a document;
* `RenderOption.ofJson?`, …, `Document.ofJson?` : documents of JSON texts;
* `Document.ofJson?_toJson` : what a document stands for is the document;
* `Document.read_json` : so is its text.
-/

namespace MaterialScript

open Json Number

/-! ## Places -/

namespace Json.Value

def text? : Value → Option String
  | string s => some s
  | _ => none

def name? : Value → Option (Option String)
  | null => some none
  | string s => some (some s)
  | _ => none

def bool? : Value → Option Bool
  | bool b => some b
  | _ => none

/-- A whole number that is not negative, of any size. -/
def nat? : Value → Option Nat
  | number false ⟨n, 0⟩ => some n
  | _ => none

/-- The 32-bit float nearest to a number, with its sign. -/
def float? : Value → Option Binary32
  | number negative d => some (Binary32.ofCode negative (Format.binary32.ofDecimal d))
  | _ => none

/-- A list of things that stand for something. -/
def list? {α : Type} (f : Value → Option α) : Value → Option (List α)
  | array items => items.mapM f
  | _ => none

def fields? : Value → Option (List (String × Value))
  | object fields => some fields
  | _ => none

/-- A value with a tag: a record with the tag as its only field. -/
def variant? : Value → Option (String × Value)
  | object [field] => some field
  | _ => none

end Json.Value

/-! ## Documents -/

def Reference.ofJson? (kind : ResourceKind) (v : Value) : Option (Reference kind) := do
  let fields ← v.fields?
  let path ← (← fields.lookup "path").text?
  let handle ← (← fields.lookup "handle").nat?
  return ⟨path, ⟨handle⟩⟩

def Blend.ofJson? (v : Value) : Option Blend := do
  let fields ← v.fields?
  let enabled ← (← fields.lookup "enabled").bool?
  let src ← BlendFactor.ofKeyword? (← (← fields.lookup "src").text?)
  let dst ← BlendFactor.ofKeyword? (← (← fields.lookup "dst").text?)
  return ⟨enabled, src, dst⟩

def RenderOption.ofJson? (v : Value) : Option RenderOption := do
  let (tag, v) ← v.variant?
  match tag with
  | "CullFace" => return .cullFace (← CullFace.ofKeyword? (← v.text?))
  | "Blend" => return .blend (← Blend.ofJson? v)
  | "DepthTest" => return .depthTest (← v.bool?)
  | "DepthWrite" => return .depthWrite (← v.bool?)
  | "Shader" => return .shader (← Reference.ofJson? .shader v)
  | _ => none

def UniformValue.ofJson? (v : Value) : Option UniformValue := do
  let (tag, v) ← v.variant?
  match tag with
  | "Float" => return .float (← v.float?)
  | "Texture" => return .texture (← Reference.ofJson? .texture v)
  | _ =>
    match tag, ← v.list? Value.float? with
    | "Vec2", [x, y] => return .vec2 x y
    | "Vec3", [x, y, z] => return .vec3 x y z
    | "Vec4", [x, y, z, w] => return .vec4 x y z w
    | _, _ => none

def Uniform.ofJson? (v : Value) : Option Uniform := do
  let fields ← v.fields?
  let name ← (← fields.lookup "name").text?
  let value ← UniformValue.ofJson? (← fields.lookup "value")
  return ⟨name, value⟩

/-- A layer, whose fields stand among those of its level. -/
def Layer.ofFields? (fields : List (String × Value)) : Option Layer := do
  let options ← (← fields.lookup "options").list? RenderOption.ofJson?
  let uniforms ← (← fields.lookup "uniforms").list? Uniform.ofJson?
  return ⟨options, uniforms⟩

def Pass.ofJson? (v : Value) : Option Pass := do
  let fields ← v.fields?
  let name ← (← fields.lookup "name").name?
  let layer ← Layer.ofFields? fields
  return ⟨name, layer⟩

def Technique.ofJson? (v : Value) : Option Technique := do
  let fields ← v.fields?
  let name ← (← fields.lookup "name").name?
  let layer ← Layer.ofFields? fields
  let passes ← (← fields.lookup "passes").list? Pass.ofJson?
  return ⟨name, layer, passes⟩

def Document.ofJson? (v : Value) : Option Document := do
  let fields ← v.fields?
  let layer ← Layer.ofFields? fields
  let techniques ← (← fields.lookup "techniques").list? Technique.ofJson?
  return ⟨layer, techniques⟩

/-! ## What documents stand for -/

theorem list?_toJson {α : Type} {f : Value → Option α} {toData : α → Data} {xs : List α}
    (h : ∀ x ∈ xs, f (toData x).toJson = some x) :
    (Data.toJson (.list (xs.map toData))).list? f = some xs := by
  rw [Data.toJson, Data.listToJson_eq, Value.list?, List.map_map]
  induction xs with
  | nil => rfl
  | cons x xs ih =>
    obtain ⟨hx, hxs⟩ := List.forall_mem_cons.1 h
    rw [List.map_cons, List.mapM_cons, Function.comp_apply, hx, Option.bind_eq_bind, Option.bind_some,
      ih hxs]
    rfl

/-- **A finite float is the one nearest to the number it is written as.** -/
theorem float?_floatValue {x : Binary32} (hx : x.isFinite = true) :
    (floatValue x).float? = some x := by
  obtain ⟨l, -, hsign, hcode, -, hvalue⟩ := exists_literal_number hx
  rw [hvalue, Value.float?, hcode, hsign, Binary32.ofCode_code]

theorem Reference.ofJson?_toJson {kind : ResourceKind} (r : Reference kind) :
    Reference.ofJson? kind r.toData.toJson = some r := by
  simp [ofJson?, toData, Data.toJson, Data.fieldsToJson, Value.fields?, List.lookup_cons, Value.text?,
    Value.nat?]

theorem Blend.ofJson?_toJson (b : Blend) : Blend.ofJson? b.toData.toJson = some b := by
  simp [ofJson?, toData, Data.toJson, Data.fieldsToJson, Value.fields?, List.lookup_cons, Value.text?,
    Value.bool?]

theorem RenderOption.ofJson?_toJson (o : RenderOption) :
    RenderOption.ofJson? o.toData.toJson = some o := by
  cases o with
  | cullFace face => simp [ofJson?, toData, Data.toJson, Value.variant?, Value.text?]
  | blend b => simp [ofJson?, toData, Data.toJson, Value.variant?, Blend.ofJson?_toJson]
  | depthTest on => simp [ofJson?, toData, Data.toJson, Value.variant?, Value.bool?]
  | depthWrite on => simp [ofJson?, toData, Data.toJson, Value.variant?, Value.bool?]
  | shader s => simp [ofJson?, toData, Data.toJson, Value.variant?, Reference.ofJson?_toJson]

theorem UniformValue.ofJson?_toJson {v : UniformValue} (hv : ∀ x ∈ v.components, x.isFinite = true) :
    UniformValue.ofJson? v.toData.toJson = some v := by
  have hfloat : ∀ x ∈ v.components, (floatValue x).float? = some x :=
    fun x hx => float?_floatValue (hv x hx)
  cases v with
  | texture t => simp [ofJson?, toData, Data.toJson, Value.variant?, Reference.ofJson?_toJson]
  | float x =>
    simp only [components, List.forall_mem_cons] at hfloat
    simp [ofJson?, toData, Data.toJson, Value.variant?, hfloat]
  | _ =>
    simp only [components, List.forall_mem_cons] at hfloat
    simp [ofJson?, toData, Data.toJson, Data.listToJson, Value.variant?, Value.list?, hfloat]

theorem Uniform.ofJson?_toJson {u : Uniform} (hu : ∀ x ∈ u.value.components, x.isFinite = true) :
    Uniform.ofJson? u.toData.toJson = some u := by
  simp [ofJson?, toData, Data.toJson, Data.fieldsToJson, Value.fields?, List.lookup_cons, Value.text?,
    UniformValue.ofJson?_toJson hu]

theorem name?_toJson (name : Option String) : (Data.ofOption name).toJson.name? = some name := by
  cases name <;> rfl

theorem Layer.ofFields?_of_lookup {l : Layer} (hl : ∀ x ∈ l.floats, x.isFinite = true)
    (fields : List (String × Value))
    (hoptions : fields.lookup "options" =
      some (Data.toJson (.list (l.options.map RenderOption.toData))))
    (huniforms : fields.lookup "uniforms" =
      some (Data.toJson (.list (l.uniforms.map Uniform.toData)))) :
    Layer.ofFields? fields = some l := by
  have hos : (Data.toJson (.list (l.options.map RenderOption.toData))).list? RenderOption.ofJson? =
      some l.options :=
    list?_toJson fun o _ => RenderOption.ofJson?_toJson o
  have hus : (Data.toJson (.list (l.uniforms.map Uniform.toData))).list? Uniform.ofJson? =
      some l.uniforms :=
    list?_toJson fun u hu => Uniform.ofJson?_toJson fun x hx =>
      hl x (List.mem_flatMap.2 ⟨u, hu, hx⟩)
  simp [ofFields?, hoptions, huniforms, hos, hus]

theorem Pass.ofJson?_toJson {p : Pass} (hp : ∀ x ∈ p.layer.floats, x.isFinite = true) :
    Pass.ofJson? p.toData.toJson = some p := by
  have hlayer := Layer.ofFields?_of_lookup hp
    (Data.fieldsToJson (("name", .ofOption p.name) :: p.layer.fields)) rfl rfl
  simp only [ofJson?, toData, Data.toJson, Value.fields?, Option.bind_eq_bind, Option.bind_some,
    hlayer]
  simp [Data.fieldsToJson, name?_toJson]

theorem Technique.ofJson?_toJson {t : Technique} (ht : ∀ x ∈ t.floats, x.isFinite = true) :
    Technique.ofJson? t.toData.toJson = some t := by
  obtain ⟨hl, hps⟩ := List.forall_mem_append.1 ht
  have hlayer := Layer.ofFields?_of_lookup hl (Data.fieldsToJson
    (("name", .ofOption t.name) :: t.layer.fields ++
      [("passes", .list (t.passes.map Pass.toData))])) rfl rfl
  have hpasses : (Data.toJson (.list (t.passes.map Pass.toData))).list? Pass.ofJson? =
      some t.passes :=
    list?_toJson fun p hp => Pass.ofJson?_toJson fun x hx =>
      hps x (List.mem_flatMap.2 ⟨p, hp, hx⟩)
  simp only [ofJson?, toData, Data.toJson, Value.fields?, Option.bind_eq_bind, Option.bind_some,
    hlayer]
  simp [Data.fieldsToJson, Layer.fields, List.lookup_cons, name?_toJson, hpasses]

/-- **What a document stands for is the document**, if its floats are finite. -/
theorem Document.ofJson?_toJson {d : Document} (hd : ∀ x ∈ d.floats, x.isFinite = true) :
    Document.ofJson? d.toData.toJson = some d := by
  obtain ⟨hl, hts⟩ := List.forall_mem_append.1 hd
  have hlayer := Layer.ofFields?_of_lookup hl (Data.fieldsToJson
    (d.layer.fields ++ [("techniques", .list (d.techniques.map Technique.toData))])) rfl rfl
  have htechniques : (Data.toJson (.list (d.techniques.map Technique.toData))).list?
      Technique.ofJson? = some d.techniques :=
    list?_toJson fun t ht => Technique.ofJson?_toJson fun x hx =>
      hts x (List.mem_flatMap.2 ⟨t, ht, hx⟩)
  simp only [ofJson?, toData, Data.toJson, Value.fields?, Option.bind_eq_bind, Option.bind_some,
    hlayer]
  simp [Data.fieldsToJson, Layer.fields, List.lookup_cons, htechniques]

/-- **The JSON text of a document with finite floats is read back to that document**: the options and
uniforms of each level, the names and their absence, the paths, the handles, and the floats bit for bit. -/
theorem Document.read_json (d : Document) (hd : ∀ x ∈ d.floats, x.isFinite = true) :
    (read? (d.print .json)).bind Document.ofJson? = some d := by
  have hread : read? (d.print .json) = some d.toData.toJson := read?_value d.toData
  rw [hread, Option.bind_some, ofJson?_toJson hd]

/-- Names that are absent or empty, a path with a quote, a line end and a control character, the greatest
64-bit handle, a negative zero, the least positive float and the greatest one. -/
theorem Document.read_json_extremes :
    let d : Document :=
      { layer := { options := [.shader ⟨"a\"\n\x01é", ⟨18446744073709551615⟩⟩] }
        techniques := [
          { name := none, passes := [{ name := some "" }] },
          { name := some "",
            layer := { uniforms := [⟨"", .vec3 ⟨0x80000000⟩ ⟨1⟩ ⟨0x7F7FFFFF⟩⟩] } }] }
    (∀ x ∈ d.floats, x.isFinite = true) ∧ (read? (d.print .json)).bind Document.ofJson? = some d := by
  intro d
  have hfinite : ∀ x ∈ d.floats, x.isFinite = true := by decide +kernel
  exact ⟨hfinite, d.read_json hfinite⟩

end MaterialScript
