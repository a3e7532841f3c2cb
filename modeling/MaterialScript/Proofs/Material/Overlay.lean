import Mathlib.Data.List.Induction
import MaterialScript.Proofs.Material.Places
import MaterialScript.Proofs.Material.Repetition

/-!
# Documents over a material

A document that is delivered to a material changes the passes that its targets stand for, and
nothing else. Many targets can stand for one pass, and then all their layers go over it.

* `Material.layersAt` : the layers that parcels bring to a place;
* `Material.Overlaid m ps d` : the delivery `d` is what the parcels `ps` make of the material `m`;
* `Overlaid.send` : one more parcel; `overlaid_deliver` : a whole document; `Overlaid.again` : the
  same parcels again;
* `document_overlays_material` : what a document does to a material, and to which passes;
* `second_delivery_changes_nothing` : a document that is delivered again changes nothing.
-/

namespace MaterialScript

attribute [ext] Delivery

theorem Parcel.send_host (p : Parcel) (d : Delivery Material) :
    p.send Material.host d =
      match d.state.place? p.target with
      | some place =>
        { d with state := d.state.modifyAt place (·.setAll p.setters), applied := d.applied + 1 }
      | none => { d with missed := d.missed ++ [p.note] } := by
  unfold send Delivery.send Material.host
  simp only [Material.update?_eq]
  cases d.state.place? p.target <;> rfl

namespace Material

/-- The layers that parcels bring to a place: those of the parcels whose targets stand for it. -/
def layersAt (m : Material) (ps : List Parcel) (place : Place) : List Layer :=
  (ps.filter fun p => m.place? p.target = some place).flatMap Parcel.layers

/-- What parcels make of a material. No name changes, and every pass gets the layers of the parcels
whose targets stand for it, in the order of the parcels. A parcel whose target stands for a pass
counts, one whose target stands for none leaves its note. -/
structure Overlaid (m : Material) (ps : List Parcel) (d : Delivery Material) : Prop where
  names : d.state.names = m.names
  passes : ∀ place, d.state.passAt? place =
    (m.passAt? place).map fun p => (m.layersAt ps place).foldl PassState.apply p
  applied : d.applied = ps.countP fun p => (m.place? p.target).isSome
  missed : d.missed = (ps.filter fun p => (m.place? p.target).isNone).map Parcel.note

variable {m : Material} {ps : List Parcel} {d : Delivery Material}

theorem layersAt_concat (p : Parcel) (place : Place) :
    m.layersAt (ps ++ [p]) place =
      m.layersAt ps place ++ if m.place? p.target = some place then p.layers else [] := by
  unfold layersAt
  by_cases h : m.place? p.target = some place <;> simp [h]

/-- **One more parcel.** -/
theorem Overlaid.send (h : m.Overlaid ps d) (p : Parcel) :
    m.Overlaid (ps ++ [p]) (p.send host d) := by
  -- No parcel changes a name, so the target stands for what it stood for at the start.
  rw [p.send_host, place?_congr h.names]
  cases hplace : m.place? p.target with
  | none =>
    exact
      { names := h.names
        passes := fun place => by simpa [layersAt_concat, hplace] using h.passes place
        applied := by simpa [hplace] using h.applied
        missed := by simp [hplace, h.missed] }
  | some q =>
    have hname : ∀ r : PassState, (r.setAll p.setters).name = r.name := fun r => r.name_setAll _
    exact
      { names := (names_modifyAt _ _ _ hname).trans h.names
        passes := fun place => by
          rw [passAt?_modifyAt, h.passes, layersAt_concat, hplace]
          by_cases hq : place = q
          · subst hq
            simp [Parcel.setters, PassState.foldl_apply, Function.comp_def]
          · simp [hq, Ne.symm hq]
        applied := by simp [hplace, h.applied]
        missed := by simp [hplace, h.missed] }

theorem overlaid_foldl (m : Material) (ps : List Parcel) :
    m.Overlaid ps (ps.foldl (Parcel.send host) { state := m }) := by
  induction ps using List.reverseRecOn with
  | nil => exact ⟨rfl, fun place => by simp [layersAt], rfl, rfl⟩
  | append_singleton ps p ih =>
    rw [List.foldl_concat]
    exact ih.send p

theorem overlaid_deliver (m : Material) (doc : Document) :
    m.Overlaid doc.parcels (doc.deliver host m) := by
  rw [doc.deliver_eq_foldl]
  exact overlaid_foldl m doc.parcels

/-- **Parcels that come again change nothing.** -/
theorem Overlaid.again {e : Delivery Material} (h : m.Overlaid ps d) (h' : d.state.Overlaid ps e) :
    e = d := by
  have hplace : ∀ target, d.state.place? target = m.place? target := place?_congr h.names
  have hlayers : d.state.layersAt ps = m.layersAt ps := by
    funext place
    simp only [layersAt, hplace]
  have hstate : e.state = d.state := by
    refine ext_places h'.names fun place => ?_
    rw [h'.passes, h.passes, hlayers, Option.map_map]
    congr 1
    funext p
    simp only [Function.comp_apply, PassState.foldl_apply, PassState.setAll_again]
  have happlied : e.applied = d.applied := by
    rw [h'.applied, h.applied]
    simp only [hplace]
  have hmissed : e.missed = d.missed := by
    rw [h'.missed, h.missed]
    simp only [hplace]
  exact Delivery.ext hstate happlied hmissed

end Material

/-- **A document changes the passes that its targets stand for, and nothing else.** -/
theorem document_overlays_material (doc : Document) (m : Material) :
    m.Overlaid doc.parcels (doc.deliver Material.host m) ∧
      (∀ target place, m.place? target = some place ↔ m.StandsFor target place) ∧
      (∀ target, m.find? target.technique target.pass = (m.place? target).bind m.passAt?) ∧
      ∀ place, (∀ p ∈ doc.parcels, ¬ m.StandsFor p.target place) →
        (doc.deliver Material.host m).state.passAt? place = m.passAt? place := by
  have h := m.overlaid_deliver doc
  refine ⟨h, m.place?_eq_some_iff, fun target => m.find?_eq _ _, fun place hplace => ?_⟩
  have hlayers : m.layersAt doc.parcels place = [] := by
    rw [Material.layersAt, List.filter_eq_nil_iff.2, List.flatMap_nil]
    intro p hp heq
    exact hplace p hp ((m.place?_eq_some_iff _ _).1 (of_decide_eq_true heq))
  rw [h.passes, hlayers]
  simp

/-- **A document that is delivered again changes nothing**: every pass stays as the first delivery
left it, and the same targets are there. -/
theorem second_delivery_changes_nothing (doc : Document) (m : Material) :
    doc.deliver Material.host (doc.deliver Material.host m).state = doc.deliver Material.host m :=
  (m.overlaid_deliver doc).again (Material.overlaid_deliver _ doc)

end MaterialScript
