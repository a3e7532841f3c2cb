import Mathlib.Data.List.Induction
import MaterialScript.Proofs.Material.Layers

/-!
# Copies of passes

A pass hands its state over as setters, and a new pass of the same name that runs them becomes a copy
of it. The uniform table is written anew, name by name, and comes out the same down to its index. The
factors of blending that is off are not handed over, so the copy has those that the engine starts from.

* `UniformTable.writes` : what a table lists, as writes; `Holds.writes_self` : it holds them;
* `UniformTable.Indexed` : the index is the one that the listed names get one after the other;
* `UniformTable.setAll_writes` : what a table lists, written to an empty one, gives it again;
* `PassState.setAll_setters_of_set` : what a new pass becomes;
* `PassState.Copied` : how far it is a copy; `new_pass_copies` : it is one, whatever was set on the
  pass.
-/

namespace MaterialScript

theorem eraseDups_eraseDups (names : List String) :
    names.eraseDups.eraseDups = names.eraseDups := by
  induction names using List.reverseRecOn with
  | nil => rfl
  | append_singleton names name ih =>
    rw [eraseDups_concat]
    split
    · exact ih
    · next hnew => rw [eraseDups_concat, if_neg (by simpa using hnew), ih]

/-! ## Tables -/

namespace UniformTable

attribute [ext] UniformTable

variable {t u : UniformTable} {ws : List Uniform}

/-- What a table lists, as writes. -/
def writes (t : UniformTable) : List Uniform := t.toList.map fun e => ⟨e.1, e.2⟩

theorem names_writes (t : UniformTable) : t.writes.map Uniform.name = t.toList.map Prod.fst := by
  simp [writes]

theorem Holds.lastValue?_writes (h : t.Holds ws) (name : String) :
    lastValue? t.writes name = lastValue? ws name := by
  cases hlast : lastValue? t.writes name with
  | some value =>
    obtain ⟨w, hfind, rfl⟩ := Option.map_eq_some_iff.1 hlast
    have hname : w.name = name := by simpa using List.find?_some hfind
    have hw : w ∈ t.writes := List.mem_reverse.1 (List.mem_of_find?_eq_some hfind)
    obtain ⟨e, hmem, rfl⟩ := List.mem_map.1 hw
    rw [← hname]
    exact (h.values e.1 e.2 hmem).symm
  | none =>
    have hwrites : ¬ (lastValue? t.writes name).isSome := by simp [hlast]
    rw [lastValue?_isSome, names_writes, h.names, List.mem_eraseDups, ← lastValue?_isSome,
      Option.not_isSome_iff_eq_none] at hwrites
    exact hwrites.symm

theorem Holds.writes_self (h : t.Holds ws) : t.Holds t.writes where
  names := by rw [names_writes, h.names, eraseDups_eraseDups]
  index := h.index
  values := fun name value hmem => by rw [h.lastValue?_writes, h.values name value hmem]

theorem Holds.toList_eq (ht : t.Holds ws) (hu : u.Holds ws) : t.toList = u.toList := by
  have hnames : t.toList.map Prod.fst = u.toList.map Prod.fst := ht.names.trans hu.names.symm
  refine List.ext_getElem? fun i => ?_
  have hname := congrArg (·[i]?) hnames
  simp only [List.getElem?_map] at hname
  cases he : t.toList[i]? with
  | none =>
    rw [he] at hname
    exact (Option.map_eq_none_iff.1 hname.symm).symm
  | some e =>
    rw [he] at hname
    obtain ⟨⟨name, value⟩, hf, rfl⟩ := Option.map_eq_some_iff.1 hname.symm
    have hvalue := ht.values _ _ (List.mem_of_getElem? he)
    rw [hu.values _ _ (List.mem_of_getElem? hf)] at hvalue
    rw [hf, Option.some.inj hvalue]

/-- The index that names get one after the other. -/
def indexOf (names : List String) : Std.TreeMap String Nat :=
  names.zipIdx.foldl (fun index entry => index.insert entry.1 entry.2) ∅

theorem indexOf_concat (names : List String) (name : String) :
    indexOf (names ++ [name]) = (indexOf names).insert name names.length := by
  simp [indexOf, List.zipIdx_append]

/-- The index of a table is the one that the listed names get one after the other. Two such tables
that list the same are the same, which need not be so for tables that only find the same. -/
def Indexed (t : UniformTable) : Prop := t.index = indexOf (t.toList.map Prod.fst)

theorem indexed_empty : Indexed {} := rfl

theorem Indexed.set (h : t.Indexed) (name : String) (value : UniformValue) :
    (t.set name value).Indexed := by
  unfold Indexed at *
  cases hi : t.index[name]? with
  | some i =>
    rw [t.set_of_known name value hi, names_overwrite]
    exact h
  | none =>
    rw [t.set_of_new name value hi, toList_extend, List.map_append, List.map_singleton,
      indexOf_concat, ← h]
    simp [extend, toList]

theorem Indexed.setAll (h : t.Indexed) (us : List Uniform) : (t.setAll us).Indexed := by
  induction us generalizing t with
  | nil => exact h
  | cons u us ih => exact ih (h.set u.name u.value)

/-- **What a table lists, written to an empty one, gives the table again.** -/
theorem setAll_writes (ws : List Uniform) :
    setAll {} (setAll {} ws).writes = setAll {} ws := by
  have hholds : (setAll {} ws).Holds ws := holds_empty.setAll ws
  have hlist : (setAll {} (setAll {} ws).writes).toList = (setAll {} ws).toList :=
    (holds_empty.setAll _).toList_eq hholds.writes_self
  have hindex : (setAll {} (setAll {} ws).writes).index = (setAll {} ws).index := by
    rw [indexed_empty.setAll, indexed_empty.setAll, hlist]
  exact UniformTable.ext (Array.toList_inj.1 hlist) hindex

end UniformTable

/-! ## Passes -/

namespace PassState

variable (p : PassState) (name : Option String)

theorem setAll_uniforms (us : List Uniform) :
    p.setAll (us.map Uniform.setter) = { p with uniforms := p.uniforms.setAll us } := by
  induction us generalizing p with
  | nil => rfl
  | cons u us ih => exact ih _

theorem map_uniform_toList (t : UniformTable) :
    t.toList.map (fun u => Setter.uniform u.1 u.2) = t.writes.map Uniform.setter := by
  rw [UniformTable.writes, List.map_map]
  rfl

theorem setAll_setters :
    (new name).setAll p.setters =
      { p with
        name
        blend := if p.blend.enabled then p.blend else .disabled
        uniforms := UniformTable.setAll {} p.uniforms.writes } := by
  obtain ⟨_, _, ⟨_ | _, _, _⟩, _, _, _ | _, _⟩ := p <;>
    simp only [setters, setAll_append, map_uniform_toList, setAll_uniforms] <;> rfl

/-- A new pass of the same name becomes the same pass, but for the factors of blending that is
off. -/
theorem setAll_setters_of_set (ss : List Setter) :
    let p := (new name).setAll ss
    (new p.name).setAll p.setters =
      { p with blend := if p.blend.enabled then p.blend else .disabled } := by
  intro p
  have htable : UniformTable.setAll {} p.uniforms.writes = p.uniforms := by
    rw [uniforms_setAll]
    exact UniformTable.setAll_writes _
  rw [setAll_setters, htable]

/-- The blending factors of a pass count, or they are those that the engine starts from. -/
def FactorsKept (p : PassState) : Prop :=
  p.blend.enabled ∨ (p.blend.src, p.blend.dst) = (.srcAlpha, .oneMinusSrcAlpha)

/-- A copy of a pass agrees with it in all but the blending factors. They are kept or are those that
the engine starts from, and the copy is the same pass just if they are kept. -/
structure Copied (p copy : PassState) : Prop where
  name : copy.name = p.name
  cullFace : copy.cullFace = p.cullFace
  depthTest : copy.depthTest = p.depthTest
  depthWrite : copy.depthWrite = p.depthWrite
  shader : copy.shader = p.shader
  enabled : copy.blend.enabled = p.blend.enabled
  uniforms : copy.uniforms.toList = p.uniforms.toList
  uniform : ∀ name, copy.uniform? name = p.uniform? name
  factors : (copy.blend.src, copy.blend.dst) = (p.blend.src, p.blend.dst) ↔ p.FactorsKept
  otherwise : ¬ p.FactorsKept →
    (copy.blend.src, copy.blend.dst) = (.srcAlpha, .oneMinusSrcAlpha)
  same : copy = p ↔ p.FactorsKept

theorem copied_blend :
    p.Copied { p with blend := if p.blend.enabled then p.blend else .disabled } := by
  have hblend : (if p.blend.enabled then p.blend else .disabled) = p.blend ↔ p.FactorsKept := by
    obtain ⟨_, _, ⟨_ | _, src, dst⟩, _⟩ := p <;> simp [FactorsKept, Blend.disabled, eq_comm]
  exact
    { name := rfl, cullFace := rfl, depthTest := rfl, depthWrite := rfl, shader := rfl
      enabled := by cases h : p.blend.enabled <;> simp [h, Blend.disabled]
      uniforms := rfl
      uniform := fun _ => rfl
      factors := by cases h : p.blend.enabled <;> simp [h, FactorsKept, Blend.disabled, eq_comm]
      otherwise := fun h => by
        have hoff : p.blend.enabled ≠ true := fun hon => h (.inl hon)
        simp [hoff, Blend.disabled]
      same := by
        rw [← hblend]
        exact ⟨congrArg PassState.blend, fun h => by rw [h]⟩ }

end PassState

/-- **A pass that is handed over to a new one of its name is copied**, whatever was set on it. -/
theorem new_pass_copies (name : Option String) (ss : List Setter) :
    let p := (PassState.new name).setAll ss
    p.Copied ((PassState.new p.name).setAll p.setters) := by
  intro p
  rw [PassState.setAll_setters_of_set]
  exact p.copied_blend

example :
    let p := (PassState.new none).setAll [.blending true, .blendFactors .one .zero, .blending false]
    p.blend = ⟨false, .one, .zero⟩ ∧
      ((PassState.new p.name).setAll p.setters).blend = ⟨false, .srcAlpha, .oneMinusSrcAlpha⟩ :=
  ⟨rfl, rfl⟩

end MaterialScript
