import MaterialScript.Proofs.Derivation.Tree
import MaterialScript.Assembly

/-!
# The meaning of derivation trees

A tree is translated to its document by recursion, with no stacks and no open scopes. The state of
the resolver is threaded from left to right, and the first resource that is denied ends the
translation.

* `TranslateM σ` : translation with a resolver whose state is `σ`; `Denial` : why it ends early;
  `run_bind_eq_ok`, `run_map_eq_ok` : what a translation that ends well did before;
* `fetch` : a string literal as a resolved path with its handle;
* `OptionTree.translate`, `ValueTree.translate`, `UniformTree.translate` : statements;
* `Node`, `layerOf`, `nestedOf` : what the items of a scope become, in the order of the source;
* `PassTree.translate`, `TechniqueTree.translate`, `DocumentTree.translate` : scopes;
* `outcome` : the translation as the result of a compilation.
-/

namespace MaterialScript.Grammar

/-- A resource that the resolver denies: why, and the bytes of the literal that asks for it. -/
structure Denial where
  error : ResourceError
  span : Span
deriving DecidableEq, Repr

def Denial.diagnostic (d : Denial) (file : String) (text : List Char) : Diagnostic :=
  { kind := .resourceError, file, message := d.error.message : Diagnostic }.atOffset text
    d.span.start

/-- Translation threads the state of the resolver, which a denial leaves as it is then. -/
abbrev TranslateM (σ : Type) := EStateM Denial σ

variable {σ : Type}

section Running
variable {α β : Type}

theorem run_bind_eq_ok {m : TranslateM σ α} {k : α → TranslateM σ β} {s s' : σ} {y : β}
    (h : (m >>= k).run s = .ok y s') : ∃ x t, m.run s = .ok x t ∧ (k x).run t = .ok y s' := by
  rw [EStateM.run_bind] at h
  cases hx : m.run s with
  | ok x t =>
    rw [hx] at h
    exact ⟨x, t, rfl, h⟩
  | error e t =>
    rw [hx] at h
    cases h

theorem run_map_eq_ok {m : TranslateM σ α} {f : α → β} {s s' : σ} {y : β}
    (h : (f <$> m).run s = .ok y s') : ∃ x, m.run s = .ok x s' ∧ f x = y := by
  rw [← bind_pure_comp] at h
  obtain ⟨x, t, hx, hy⟩ := run_bind_eq_ok h
  cases hy
  exact ⟨x, hx, rfl⟩

end Running

/-- The resource that a literal in the document at `base` asks for. -/
def fetch (resolver : Resolver σ) (base : String) (kind : ResourceKind) (literal : Located String) :
    TranslateM σ (Reference kind) := fun host =>
  let path := resolver.locate host literal.value base
  match resolver.load kind path host with
  | (.ok handle, host') => .ok ⟨path, handle⟩ host'
  | (.error e, host') => .error ⟨e, literal.span⟩ host'

/-! ## Statements -/

def BlendTree.state : BlendTree → Blend
  | disabled _ => Blend.disabled
  | factors src _ dst => Blend.factors src.value dst.value

def OptionTree.translate (resolver : Resolver σ) (base : String) :
    OptionTree → TranslateM σ RenderOption
  | cullFace _ face => pure (.cullFace face.value)
  | blend _ value => pure (.blend value.state)
  | depthTest _ on => pure (.depthTest on.value)
  | depthWrite _ on => pure (.depthWrite on.value)
  | shader _ path => do
    let shader ← fetch resolver base .shader path
    return .shader shader

def ValueTree.translate (resolver : Resolver σ) (base : String) :
    ValueTree → TranslateM σ UniformValue
  | scalar x => pure (.float x.value.value)
  | vec2 _ x _ y _ => pure (.vec2 x.value.value y.value.value)
  | vec3 _ x _ y _ z _ => pure (.vec3 x.value.value y.value.value z.value.value)
  | vec4 _ x _ y _ z _ w _ =>
    pure (.vec4 x.value.value y.value.value z.value.value w.value.value)
  | texture path => do
    let texture ← fetch resolver base .texture path
    return .texture texture

def UniformTree.translate (resolver : Resolver σ) (base : String) (u : UniformTree) :
    TranslateM σ Uniform := do
  let value ← u.value.translate resolver base
  return ⟨u.name.value, value⟩

/-! ## Scopes -/

/-- What an item of a scope becomes. -/
inductive Node (M : Type) where
  | option (o : RenderOption)
  | uniform (u : Uniform)
  | nested (m : M)

section Nodes
variable {N M : Type}

def Node.option? : Node M → Option RenderOption
  | option o => some o
  | _ => none

def Node.uniform? : Node M → Option Uniform
  | uniform u => some u
  | _ => none

def Node.nested? : Node M → Option M
  | nested m => some m
  | _ => none

/-- The options and the uniforms among the nodes of a scope, each in the order of the source. -/
def layerOf (nodes : List (Node M)) : Layer :=
  { options := nodes.filterMap Node.option?, uniforms := nodes.filterMap Node.uniform? }

/-- The nested scopes among the nodes of a scope, in the order of the source. -/
def nestedOf (nodes : List (Node M)) : List M := nodes.filterMap Node.nested?

/-- The node of an item, given the meaning of nested scopes. -/
def Item.translate (resolver : Resolver σ) (base : String) (inner : N → TranslateM σ M) :
    Item N → TranslateM σ (Node M)
  | option o => Node.option <$> o.translate resolver base
  | uniform u => Node.uniform <$> u.translate resolver base
  | nested n => Node.nested <$> inner n

end Nodes

def PassTree.translate (resolver : Resolver σ) (base : String) (t : PassTree) :
    TranslateM σ Pass := do
  let nodes ← t.body.mapM (Item.translate resolver base (M := Empty) Empty.elim)
  return { name := t.name.map Located.value, layer := layerOf nodes }

def TechniqueTree.translate (resolver : Resolver σ) (base : String) (t : TechniqueTree) :
    TranslateM σ Technique := do
  let nodes ← t.body.mapM (Item.translate resolver base (PassTree.translate resolver base))
  return { name := t.name.map Located.value, layer := layerOf nodes, passes := nestedOf nodes }

def DocumentTree.translate (resolver : Resolver σ) (base : String) (d : DocumentTree) :
    TranslateM σ Document := do
  let nodes ← d.items.mapM (Item.translate resolver base (TechniqueTree.translate resolver base))
  return { layer := layerOf nodes, techniques := nestedOf nodes }

/-- A translation as the result of a compilation of a text. -/
def outcome (file : String) (text : List Char) :
    EStateM.Result Denial σ Document → Except Diagnostic Document × σ
  | .ok document host => (.ok document, host)
  | .error denial host => (.error (denial.diagnostic file text), host)

end MaterialScript.Grammar
