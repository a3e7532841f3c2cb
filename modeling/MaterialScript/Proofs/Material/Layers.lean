import MaterialScript.Proofs.Material.Parcels
import MaterialScript.Proofs.Material.Uniforms

/-!
# What the layers of a pass amount to

A pass of a material is what setters leave, one after the other. What is left in the end can be read
off the layers: the last option of a kind counts, disabled blending leaves the factors alone, and the
innermost layer that gives a value to a uniform wins.

* `lastOption?` : the last option of a kind in some layers;
* `Sums layers p` : the state `p` is what `layers` amount to;
* `PassState.setAll_field` : a piece of state is what was set last; `field_buildPass` : as options;
* `PassState.holds_setAll` : the uniform table holds the uniforms that were set;
* `sums_buildPass` : what is built from layers is what they amount to.
-/

namespace MaterialScript

/-! ## Options and uniforms of layers -/

namespace RenderOption

def cullFace? : RenderOption → Option CullFace
  | cullFace face => some face
  | _ => none

def blend? : RenderOption → Option Blend
  | blend b => some b
  | _ => none

/-- The blending that an option asks for, if there is any. -/
def enabledBlend? (o : RenderOption) : Option Blend := o.blend?.filter Blend.enabled

def depthTest? : RenderOption → Option Bool
  | depthTest on => some on
  | _ => none

def depthWrite? : RenderOption → Option Bool
  | depthWrite on => some on
  | _ => none

def shader? : RenderOption → Option (Reference .shader)
  | shader s => some s
  | _ => none

end RenderOption

/-- The last option of a kind in some layers, the outermost one first. -/
def lastOption? {α : Type} (kind? : RenderOption → Option α) (layers : List Layer) : Option α :=
  ((layers.flatMap Layer.options).filterMap kind?).getLast?

/-- A state is what layers amount to, the outermost one first. Every piece of it is what the last
option of its kind says, or what the engine starts with. Only enabled blending has factors. A uniform
has the value that the innermost layer gives to it, and uniforms stand in the order in which their
names come first. -/
structure Sums (layers : List Layer) (p : PassState) : Prop where
  cullFace : p.cullFace = (lastOption? RenderOption.cullFace? layers).getD .back
  depthTest : p.depthTest = (lastOption? RenderOption.depthTest? layers).getD false
  depthWrite : p.depthWrite = (lastOption? RenderOption.depthWrite? layers).getD false
  shader : p.shader = (lastOption? RenderOption.shader? layers).map Reference.handle
  enabled : p.blend.enabled = ((lastOption? RenderOption.blend? layers).map Blend.enabled).getD false
  factors : (p.blend.src, p.blend.dst) =
    ((lastOption? RenderOption.enabledBlend? layers).map fun b => (b.src, b.dst)).getD
      (.srcAlpha, .oneMinusSrcAlpha)
  uniform : ∀ name, p.uniform? name = layers.reverse.findSome? (·.uniform? name)
  names : p.uniforms.toList.map Prod.fst =
    ((layers.flatMap Layer.uniforms).map Uniform.name).eraseDups
  values : ∀ name value, (name, value) ∈ p.uniforms.toList → p.uniform? name = some value

/-! ## Pieces of state -/

namespace Setter

def cullFace? : Setter → Option CullFace
  | cullFace face => some face
  | _ => none

def depthTest? : Setter → Option Bool
  | depthTest on => some on
  | _ => none

def depthWrite? : Setter → Option Bool
  | depthWrite on => some on
  | _ => none

def shader? : Setter → Option (Handle .shader)
  | shader handle => some handle
  | _ => none

def blending? : Setter → Option Bool
  | blending on => some on
  | _ => none

def blendFactors? : Setter → Option (BlendFactor × BlendFactor)
  | blendFactors src dst => some (src, dst)
  | _ => none

end Setter

section Fields
variable {α β : Type}

/-- **A piece of state is what was set last**, or what it was before. -/
theorem PassState.setAll_field {field : PassState → β} {read : Setter → Option β}
    (hset : ∀ p s, field (p.set s) = (read s).getD (field p)) (p : PassState) (ss : List Setter) :
    field (p.setAll ss) = (ss.filterMap read).getLast?.getD (field p) := by
  induction ss generalizing p with
  | nil => rfl
  | cons s ss ih =>
    rw [setAll_cons, ih, hset]
    cases hs : read s with
    | none => simp [hs]
    | some x => simp [hs, List.getLast?_cons]

theorem filterMap_setters {read : Setter → Option β} {readOption : RenderOption → Option β}
    (hoption : ∀ o, o.setters.filterMap read = (readOption o).toList)
    (huniform : ∀ u : Uniform, read u.setter = none) (layers : List Layer) :
    (layers.flatMap Layer.setters).filterMap read =
      (layers.flatMap Layer.options).filterMap readOption := by
  have hlayer : ∀ l : Layer, l.setters.filterMap read = l.options.filterMap readOption := by
    intro l
    have huniforms : (l.uniforms.map Uniform.setter).filterMap read = [] := by
      rw [List.filterMap_map, List.filterMap_eq_nil_iff]
      exact fun u _ => huniform u
    rw [Layer.setters, List.filterMap_append, huniforms, List.append_nil, List.filterMap_flatMap]
    simp only [hoption, List.filterMap_eq_flatMap_toList]
  rw [List.filterMap_flatMap, List.filterMap_flatMap]
  simp only [hlayer]

/-- A piece of state that belongs to options is what the last option of its kind says. -/
theorem field_buildPass (field : PassState → β) (read : Setter → Option β)
    (kind? : RenderOption → Option α) (f : α → β) (name : Option String) (layers : List Layer)
    (hset : ∀ p s, field (p.set s) = (read s).getD (field p) := by
      intro p s; cases s <;> rfl)
    (hoption : ∀ o, o.setters.filterMap read = ((kind? o).map f).toList := by
      rintro (_ | ⟨_ | _, _, _⟩ | _ | _ | _) <;> rfl)
    (huniform : ∀ u : Uniform, read u.setter = none := by intro u; rfl) :
    field (Material.buildPass name layers) =
      ((lastOption? kind? layers).map f).getD (field (PassState.new name)) := by
  have hlast : ((layers.flatMap Layer.options).filterMap fun o => (kind? o).map f).getLast? =
      (lastOption? kind? layers).map f := by
    rw [lastOption?, ← List.getLast?_map, List.map_filterMap]
  rw [Material.buildPass, PassState.foldl_apply, PassState.setAll_field hset,
    filterMap_setters hoption huniform, hlast]

end Fields

/-! ## Uniforms -/

def Setter.uniform? : Setter → Option Uniform
  | .uniform name value => some ⟨name, value⟩
  | _ => none

theorem PassState.uniforms_setAll (p : PassState) (ss : List Setter) :
    (p.setAll ss).uniforms = p.uniforms.setAll (ss.filterMap Setter.uniform?) := by
  induction ss generalizing p with
  | nil => rfl
  | cons s ss ih =>
    rw [setAll_cons, ih]
    cases s <;> rfl

/-- **The table of a pass holds the uniforms that were set.** -/
theorem PassState.holds_setAll {p : PassState} {ws : List Uniform} (h : p.uniforms.Holds ws)
    (ss : List Setter) : (p.setAll ss).uniforms.Holds (ws ++ ss.filterMap Setter.uniform?) := by
  rw [uniforms_setAll]
  exact h.setAll _

theorem filterMap_uniform?_setters (layers : List Layer) :
    (layers.flatMap Layer.setters).filterMap Setter.uniform? = layers.flatMap Layer.uniforms := by
  have hoption : ∀ o : RenderOption, o.setters.filterMap Setter.uniform? = [] := by
    intro o
    cases o with
    | blend b => rcases b with ⟨_ | _, _, _⟩ <;> rfl
    | _ => rfl
  have hlayer : ∀ l : Layer, l.setters.filterMap Setter.uniform? = l.uniforms := by
    intro l
    have huniforms : (l.uniforms.map Uniform.setter).filterMap Setter.uniform? = l.uniforms := by
      rw [List.filterMap_map]
      exact List.filterMap_some
    rw [Layer.setters, List.filterMap_append, huniforms, List.filterMap_flatMap]
    simp [hoption]
  rw [List.filterMap_flatMap]
  simp only [hlayer]

theorem lastValue?_flatMap (layers : List Layer) (name : String) :
    lastValue? (layers.flatMap Layer.uniforms) name =
      layers.reverse.findSome? (·.uniform? name) := by
  induction layers with
  | nil => rfl
  | cons l layers ih =>
    rw [List.flatMap_cons, lastValue?_append, ih, List.reverse_cons, List.findSome?_append,
      List.findSome?_singleton]
    rfl

/-! ## Passes -/

/-- **What is built from layers is what they amount to.** -/
theorem sums_buildPass (name : Option String) (layers : List Layer) :
    Sums layers (Material.buildPass name layers) := by
  have hholds : (Material.buildPass name layers).uniforms.Holds (layers.flatMap Layer.uniforms) := by
    have h := PassState.holds_setAll (p := PassState.new name) UniformTable.holds_empty
      (layers.flatMap Layer.setters)
    rw [filterMap_uniform?_setters] at h
    rw [Material.buildPass, PassState.foldl_apply]
    exact h
  have huniform : ∀ n, (Material.buildPass name layers).uniform? n =
      layers.reverse.findSome? (·.uniform? n) := by
    intro n
    rw [PassState.uniform?, hholds.get?_eq, lastValue?_flatMap]
  exact
    { cullFace := by
        have h := field_buildPass PassState.cullFace Setter.cullFace? RenderOption.cullFace? id name
          layers
        rwa [Option.map_id] at h
      depthTest := by
        have h := field_buildPass PassState.depthTest Setter.depthTest? RenderOption.depthTest? id
          name layers
        rwa [Option.map_id] at h
      depthWrite := by
        have h := field_buildPass PassState.depthWrite Setter.depthWrite? RenderOption.depthWrite? id
          name layers
        rwa [Option.map_id] at h
      shader := by
        have h := field_buildPass PassState.shader (fun s => s.shader?.map some)
          RenderOption.shader? (fun s => some s.handle) name layers
        rw [h]
        cases lastOption? RenderOption.shader? layers <;> rfl
      enabled :=
        field_buildPass (·.blend.enabled) Setter.blending? RenderOption.blend? Blend.enabled name
          layers
      factors :=
        field_buildPass (fun p => (p.blend.src, p.blend.dst)) Setter.blendFactors?
          RenderOption.enabledBlend? (fun b => (b.src, b.dst)) name layers
      uniform := huniform
      names := hholds.names
      values := fun n value hmem => by
        rw [PassState.uniform?, hholds.get?_eq, hholds.values n value hmem] }

/-- **The passes of a material are what the layers of its document amount to**: every pass, asked for
by its names, is what the layer of the document, that of its technique and its own amount to, as far
as there are such layers. -/
theorem material_sums_layers (doc : Document) :
    List.Forall₂ (fun parcel entry => entry.1 = parcel.target ∧ Sums parcel.layers entry.2)
      doc.parcels (Material.ofDocument doc).entries := by
  rw [Material.entries_ofDocument, List.forall₂_map_right_iff, List.forall₂_same]
  exact fun parcel _ => ⟨rfl, sums_buildPass _ _⟩

example : (Material.buildPass none
    [⟨[.blend ⟨true, .one, .zero⟩], []⟩, ⟨[.blend ⟨false, .dstColor, .dstAlpha⟩], []⟩]).blend =
      ⟨false, .one, .zero⟩ := rfl

end MaterialScript
