import Mathlib.Data.List.Induction
import MaterialScript.Material
import MaterialScript.Proofs.Material.Uniforms

/-!
# Setting state again

Setters that have run change nothing when they run again, on any pass. A setter makes up for the same
setter run earlier, whatever else has run in between. Only a name that is new to the uniform table
would tell: it gets its place when it is set first.

* `UniformTable.set_set_set` : a value that is set before and after that of a known name need not be
  set before;
* `PassState.Knows` : a pass has the piece of state that a setter is about;
* `PassState.set_setAll_set` : a setter that runs before and after some others need not run before;
* `PassState.setAll_again` : what is set twice is set once.
-/

namespace MaterialScript

/-! ## Tables -/

namespace UniformTable

variable (t : UniformTable) (name other : String) (x y : UniformValue)

theorem index_extend_self : (t.extend name x).index[name]? = some t.entries.size := by
  simp [extend]

theorem index_set_self : ((t.set name x).index[name]?).isSome := by
  cases h : t.index[name]? with
  | some i =>
    rw [t.set_of_known name x h]
    exact Option.isSome_of_eq_some h
  | none =>
    rw [t.set_of_new name x h]
    exact Option.isSome_of_eq_some (t.index_extend_self name x)

theorem index_set_of_known {i : Nat} (h : t.index[other]? = some i) :
    (t.set name x).index[other]? = some i := by
  cases hname : t.index[name]? with
  | some j => rwa [t.set_of_known name x hname]
  | none =>
    have hne : name ≠ other := by
      rintro rfl
      rw [h] at hname
      cases hname
    rw [t.set_of_new name x hname, extend, Std.TreeMap.getElem?_insert]
    simpa [hne] using h

theorem overwrite_overwrite (i : Nat) : (t.overwrite x i).overwrite y i = t.overwrite y i := by
  simp only [overwrite, UniformTable.mk.injEq, and_true]
  refine Array.ext_getElem? fun k => ?_
  simp only [Array.getElem?_modify]
  cases t.entries[k]? <;> grind

theorem overwrite_extend : (t.extend name x).overwrite y t.entries.size = t.extend name y := by
  simp only [overwrite, extend, UniformTable.mk.injEq, and_true]
  refine Array.ext_getElem? fun k => ?_
  simp only [Array.getElem?_modify, Array.getElem?_push]
  grind

theorem set_set : (t.set name x).set name y = t.set name y := by
  cases h : t.index[name]? with
  | some i =>
    rw [t.set_of_known name x h, t.set_of_known name y h, set_of_known (t.overwrite x i) name y h,
      overwrite_overwrite]
  | none =>
    rw [t.set_of_new name x h, t.set_of_new name y h,
      set_of_known (t.extend name x) name y (t.index_extend_self name x), overwrite_extend]

theorem overwrite_overwrite_overwrite (i j : Nat) :
    ((t.overwrite x i).overwrite y j).overwrite x i = (t.overwrite y j).overwrite x i := by
  simp only [overwrite, UniformTable.mk.injEq, and_true]
  refine Array.ext_getElem? fun k => ?_
  simp only [Array.getElem?_modify]
  cases t.entries[k]? <;> grind

theorem extend_overwrite (j : Nat) :
    ((t.extend name x).overwrite y j).overwrite x t.entries.size =
      (t.overwrite y j).extend name x := by
  simp only [overwrite, extend, Array.size_modify, UniformTable.mk.injEq, and_true]
  refine Array.ext_getElem? fun k => ?_
  simp only [Array.getElem?_modify, Array.getElem?_push, Array.size_modify]
  grind

/-- **A value that is set before and after that of a known name need not be set before.** -/
theorem set_set_set (h : (t.index[other]?).isSome) :
    ((t.set name x).set other y).set name x = (t.set other y).set name x := by
  obtain ⟨j, hj⟩ := Option.isSome_iff_exists.1 h
  rw [t.set_of_known other y hj, set_of_known _ other y (t.index_set_of_known name other x hj)]
  cases hi : t.index[name]? with
  | some i =>
    rw [t.set_of_known name x hi, set_of_known (t.overwrite y j) name x hi,
      set_of_known ((t.overwrite x i).overwrite y j) name x hi, overwrite_overwrite_overwrite]
  | none =>
    rw [t.set_of_new name x hi, set_of_new (t.overwrite y j) name x hi,
      set_of_known ((t.extend name x).overwrite y j) name x (t.index_extend_self name x),
      extend_overwrite]

end UniformTable

/-! ## Passes -/

namespace PassState

variable {p : PassState}

/-- A pass has the piece of state that a setter is about. Only a uniform can be missing. -/
def Knows (p : PassState) : Setter → Prop
  | .uniform name _ => (p.uniforms.index[name]?).isSome
  | _ => True

theorem knows_set_self (p : PassState) (s : Setter) : (p.set s).Knows s := by
  cases s with
  | uniform name value => exact p.uniforms.index_set_self name value
  | _ => trivial

theorem Knows.set {s' : Setter} (h : p.Knows s') (s : Setter) : (p.set s).Knows s' := by
  cases s' with
  | uniform other y =>
    cases s with
    | uniform name x =>
      obtain ⟨i, hi⟩ := Option.isSome_iff_exists.1 h
      exact Option.isSome_of_eq_some (p.uniforms.index_set_of_known name other x hi)
    | _ => exact h
  | _ => trivial

theorem Knows.setAll {s' : Setter} (h : p.Knows s') (ss : List Setter) : (p.setAll ss).Knows s' := by
  induction ss generalizing p with
  | nil => exact h
  | cons s ss ih => exact ih (h.set s)

theorem knows_setAll {ss : List Setter} {s : Setter} (h : s ∈ ss) : (p.setAll ss).Knows s := by
  induction ss generalizing p with
  | nil => cases h
  | cons s' ss ih =>
    rcases List.mem_cons.1 h with rfl | h
    · exact (p.knows_set_self s).setAll ss
    · exact ih h

theorem set_set (p : PassState) (s : Setter) : (p.set s).set s = p.set s := by
  cases s with
  | uniform name value => simp only [set, UniformTable.set_set]
  | _ => rfl

/-- A setter that runs before and after another one need not run before. -/
theorem set_set_set (s : Setter) {s' : Setter} (h : p.Knows s') :
    ((p.set s).set s').set s = (p.set s').set s := by
  cases s with
  | uniform name x =>
    cases s' with
    | uniform other y =>
      exact congrArg (fun uniforms => { p with uniforms }) (p.uniforms.set_set_set name other x y h)
    | _ => simp only [set, UniformTable.set_set]
  | _ => cases s' <;> rfl

/-- **A setter that runs before and after some others need not run before.** -/
theorem set_setAll_set (s : Setter) {ss : List Setter} (h : ∀ s' ∈ ss, p.Knows s') :
    ((p.set s).setAll ss).set s = (p.setAll ss).set s := by
  induction ss generalizing p with
  | nil => exact p.set_set s
  | cons s' ss ih =>
    have hrest : ∀ q ∈ ss, p.Knows q := fun q hq => h q (List.mem_cons_of_mem _ hq)
    -- Another `s` behind `s'` does no harm, and with that the one in front is not needed.
    calc (((p.set s).set s').setAll ss).set s
        = ((((p.set s).set s').set s).setAll ss).set s :=
          (ih fun q hq => ((hrest q hq).set s).set s').symm
      _ = (((p.set s').set s).setAll ss).set s := by rw [set_set_set s (h s' List.mem_cons_self)]
      _ = ((p.set s').setAll ss).set s := ih fun q hq => (hrest q hq).set s'

/-- **What is set twice is set once.** -/
theorem setAll_again (p : PassState) (ss : List Setter) : (p.setAll ss).setAll ss = p.setAll ss := by
  induction ss using List.reverseRecOn with
  | nil => rfl
  | append_singleton ss s ih =>
    calc (p.setAll (ss ++ [s])).setAll (ss ++ [s])
        = (((p.setAll ss).set s).setAll ss).set s := by simp
      _ = ((p.setAll ss).setAll ss).set s := set_setAll_set s fun _ => knows_setAll
      _ = p.setAll (ss ++ [s]) := by simp [ih]

end PassState

end MaterialScript
