import Mathlib.Data.List.Basic
import MaterialScript.Proofs.Material.Parcels

/-!
# Places of the passes of a material

A target asks for a pass by names, and names need not be distinct. A place says which pass is meant:
its technique and itself, by their numbers.

* `Material.names` : the names in a material; they fix what a target stands for;
* `Material.StandsFor` : a target stands for the first pass with its name, and that only inside the
  first technique with its name; `Material.place?` : the place that it stands for, found by search
  (`place?_eq_some_iff`);
* `Material.passAt?` : the pass at a place; `Material.ext_places` : a material is its names and what
  stands at its places;
* `Material.modifyAt` : a change at one place; `update?_eq` : a change of the pass that names stand
  for is one.
-/

namespace MaterialScript

/-- The place of a pass: the number of its technique, and its own number in it. -/
structure Place where
  technique : Nat
  pass : Nat
deriving DecidableEq, Repr

namespace Material

variable {α : Type} (m : Material) (target : Target) (place : Place) (f : PassState → PassState)

def names : List (Option String × List (Option String)) :=
  m.techniques.map fun t => (t.name, t.passes.map PassState.name)

def passAt? : Option PassState :=
  m.techniques[place.technique]?.bind fun t => t.passes[place.pass]?

/-- A target stands for the first pass with its name, and that only inside the first technique with
its name. -/
def StandsFor : Prop :=
  ∃ passNames, m.names[place.technique]? = some (target.technique, passNames) ∧
    passNames[place.pass]? = some target.pass ∧
    (∀ entry ∈ m.names.take place.technique, entry.1 ≠ target.technique) ∧
    target.pass ∉ passNames.take place.pass

def place? : Option Place :=
  (m.names.findIdx? fun entry => entry.1 == target.technique).bind fun i =>
    m.names[i]?.bind fun entry => (entry.2.findIdx? (· == target.pass)).map (Place.mk i)

def modifyAt : Material where
  techniques := m.techniques.modify place.technique fun t =>
    { t with passes := t.passes.modify place.pass f }

/-! ## Names -/

theorem findIdx?_eq_some_iff_take {p : α → Bool} {as : List α} {i : Nat} :
    as.findIdx? p = some i ↔ ∃ a, as[i]? = some a ∧ p a ∧ ∀ b ∈ as.take i, ¬ p b := by
  rw [List.findIdx?_eq_some_iff_getElem]
  constructor
  · rintro ⟨hi, ha, hbefore⟩
    refine ⟨as[i], List.getElem?_eq_getElem hi, ha, fun b hb => ?_⟩
    obtain ⟨j, hj, rfl⟩ := List.mem_take_iff_getElem.1 hb
    exact hbefore j (by omega)
  · rintro ⟨a, ha, hpa, hbefore⟩
    obtain ⟨hi, rfl⟩ := List.getElem?_eq_some_iff.1 ha
    exact ⟨hi, hpa, fun j hj => hbefore _ (List.mem_take_iff_getElem.2 ⟨j, by omega, rfl⟩)⟩

/-- **The search finds the place that a target stands for.** -/
theorem place?_eq_some_iff : m.place? target = some place ↔ m.StandsFor target place := by
  obtain ⟨i, j⟩ := place
  simp only [place?, Option.bind_eq_some_iff, Option.map_eq_some_iff, findIdx?_eq_some_iff_take,
    beq_iff_eq]
  constructor
  · rintro ⟨_, ⟨⟨_, _⟩, hentry, rfl, hfirst⟩, _, hsame, _, ⟨_, hpass, rfl, hpassFirst⟩, ⟨⟩⟩
    cases hentry.symm.trans hsame
    exact ⟨_, hentry, hpass, hfirst, fun hmem => hpassFirst _ hmem rfl⟩
  · rintro ⟨passNames, hentry, hpass, hfirst, hpassFirst⟩
    exact ⟨i, ⟨_, hentry, rfl, hfirst⟩, _, hentry, j,
      ⟨_, hpass, rfl, fun b hb heq => hpassFirst (heq ▸ hb)⟩, rfl⟩

example :
    let m : Material := { techniques := [⟨some "main", []⟩, ⟨some "main", [PassState.new none]⟩] }
    m.place? ⟨some "main", none⟩ = none := by
  decide

/-- What a target stands for is read off the names. -/
theorem place?_congr {m n : Material} (h : m.names = n.names) (target : Target) :
    m.place? target = n.place? target := by
  unfold place?
  rw [h]

/-- A material is its names and what stands at its places. -/
theorem ext_places {m n : Material} (hnames : m.names = n.names)
    (hpasses : ∀ place, m.passAt? place = n.passAt? place) : m = n := by
  obtain ⟨ts⟩ := m
  obtain ⟨us⟩ := n
  congr 1
  refine List.ext_getElem? fun i => ?_
  have hentry := congrArg (·[i]?) hnames
  simp only [names, List.getElem?_map] at hentry
  have hpass : ∀ j, (ts[i]?.bind fun t => t.passes[j]?) = us[i]?.bind fun u => u.passes[j]? :=
    fun j => hpasses ⟨i, j⟩
  cases ht : ts[i]? with
  | none =>
    rw [ht] at hentry
    exact (Option.map_eq_none_iff.1 hentry.symm).symm
  | some t =>
    rw [ht] at hentry
    obtain ⟨u, hu, heq⟩ := Option.map_eq_some_iff.1 hentry.symm
    rw [hu]
    simp only [ht, hu, Option.bind_some] at hpass
    obtain ⟨hname, -⟩ := Prod.mk.inj heq
    have hps : t.passes = u.passes := List.ext_getElem? hpass
    cases t; cases u
    cases hname
    cases hps
    rfl

/-! ## Changes -/

theorem passAt?_modifyAt (q : Place) :
    (m.modifyAt place f).passAt? q =
      if q = place then (m.passAt? q).map f else m.passAt? q := by
  obtain ⟨i, j⟩ := place
  obtain ⟨i', j'⟩ := q
  simp only [passAt?, modifyAt, List.getElem?_modify, Place.mk.injEq]
  cases m.techniques[i']? with
  | none => simp
  | some t =>
    by_cases hi : i = i'
    · subst hi
      by_cases hj : j = j'
      · subst hj
        simp
      · simp [hj, Ne.symm hj]
    · simp [hi, Ne.symm hi]

theorem names_modifyAt (h : ∀ p, (f p).name = p.name) : (m.modifyAt place f).names = m.names := by
  have hpasses : ∀ ps : List PassState,
      (ps.modify place.pass f).map PassState.name = ps.map PassState.name := by
    intro ps
    refine List.ext_getElem? fun j => ?_
    rw [List.getElem?_map, List.getElem?_map, List.getElem?_modify]
    cases ps[j]? with
    | none => rfl
    | some p => by_cases hj : place.pass = j <;> simp [hj, h]
  refine List.ext_getElem? fun i => ?_
  simp only [names, modifyAt, List.getElem?_map, List.getElem?_modify]
  cases m.techniques[i]? with
  | none => rfl
  | some t => by_cases hi : place.technique = i <;> simp [hi, hpasses]

theorem updateFirst?_eq (p : α → Bool) (g : α → Option α) (as : List α) :
    updateFirst? p g as =
      (as.findIdx? p).bind fun i => as[i]?.bind fun a => (g a).map fun b => as.set i b := by
  induction as with
  | nil => rfl
  | cons a as ih =>
    rw [updateFirst?, List.findIdx?_cons]
    split
    · simp
    · rw [ih]
      cases as.findIdx? p with
      | none => rfl
      | some i =>
        simp only [Option.map_some, Option.bind_some, List.getElem?_cons_succ]
        cases as[i]? with
        | none => rfl
        | some b =>
          rw [Option.bind_some, Option.bind_some]
          cases g b <;> rfl

theorem modify_eq_set {as : List α} {i : Nat} {a : α} (h : as[i]? = some a) (g : α → α) :
    as.modify i g = as.set i (g a) := by
  rw [List.modify_eq_set_getElem?, h]
  rfl

theorem place?_eq :
    m.place? target =
      (m.techniques.findIdx? fun t => t.name == target.technique).bind fun i =>
        m.techniques[i]?.bind fun t =>
          (t.passes.findIdx? fun p => p.name == target.pass).map (Place.mk i) := by
  simp only [place?, names, List.findIdx?_map, List.getElem?_map, Option.bind_map,
    Function.comp_def]

/-- **A change of the pass that names stand for is a change at the place that they stand for.** -/
theorem update?_eq (technique pass : Option String) :
    m.update? technique pass f = (m.place? ⟨technique, pass⟩).map (m.modifyAt · f) := by
  rw [place?_eq, update?, updateFirst?_eq]
  cases m.techniques.findIdx? fun t => t.name == technique with
  | none => rfl
  | some i =>
    cases ht : m.techniques[i]? with
    | none => simp [ht]
    | some t =>
      cases hj : t.passes.findIdx? fun p => p.name == pass with
      | none => simp [ht, hj, updateFirst?_eq]
      | some j =>
        obtain ⟨p, hp, -⟩ := findIdx?_eq_some_iff_take.1 hj
        simp [ht, hj, hp, updateFirst?_eq, modifyAt, modify_eq_set ht, modify_eq_set hp]

theorem find?_eq (technique pass : Option String) :
    m.find? technique pass = (m.place? ⟨technique, pass⟩).bind m.passAt? := by
  simp only [place?_eq, find?, List.find?_eq_bind_findIdx?_getElem?]
  cases m.techniques.findIdx? fun t => t.name == technique with
  | none => rfl
  | some i =>
    cases ht : m.techniques[i]? with
    | none => simp [ht]
    | some t =>
      cases hj : t.passes.findIdx? fun p => p.name == pass <;> simp [ht, hj, passAt?]

end Material

end MaterialScript
