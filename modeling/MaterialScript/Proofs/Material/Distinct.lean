import MaterialScript.Proofs.Material.Overlay

/-!
# Documents over their own materials

The material of a document has an unnamed pass wherever the document spells out none, and a delivery
asks for the same passes by the same names. If the names are distinct, every pass is asked for once,
is found, and has the layers already.

* `Material.Distinct` : techniques have distinct names, and so have the passes of each of them;
* `Distinct.standsFor`, `Distinct.place?_of_mem_entries` : then names stand for the pass that has
  them;
* `Overlaid.eq_of_held` : parcels that a material holds already leave it unchanged;
* `distinct_ofDocument` : a document with distinct names has a material with distinct names;
* `own_material_unchanged` : delivered to its own material, such a document changes nothing.
-/

namespace MaterialScript

theorem not_mem_take_of_nodup {α : Type} {as : List α} (h : as.Nodup) {i : Nat} {a : α}
    (ha : as[i]? = some a) : a ∉ as.take i := by
  obtain ⟨hi, rfl⟩ := List.getElem?_eq_some_iff.1 ha
  intro hmem
  obtain ⟨j, hj, heq⟩ := List.mem_take_iff_getElem.1 hmem
  exact List.pairwise_iff_getElem.1 h j i (by omega) hi (by omega) heq

namespace Material

/-- The techniques of a material have distinct names, and so have the passes of each technique. At most
one of them is unnamed. -/
structure Distinct (m : Material) : Prop where
  techniques : (m.names.map Prod.fst).Nodup
  passes : ∀ entry ∈ m.names, entry.2.Nodup

variable {m : Material}

theorem Distinct.standsFor (h : m.Distinct) {target : Target} {place : Place}
    {passNames : List (Option String)}
    (htechnique : m.names[place.technique]? = some (target.technique, passNames))
    (hpass : passNames[place.pass]? = some target.pass) : m.StandsFor target place := by
  have hmem : (target.technique, passNames) ∈ m.names := List.mem_of_getElem? htechnique
  refine ⟨passNames, htechnique, hpass, fun entry hentry heq => ?_,
    not_mem_take_of_nodup (h.passes _ hmem) hpass⟩
  have hname : (m.names.map Prod.fst)[place.technique]? = some target.technique := by
    rw [List.getElem?_map, htechnique]
    rfl
  refine not_mem_take_of_nodup h.techniques hname ?_
  rw [← List.map_take, ← heq]
  exact List.mem_map_of_mem hentry

theorem Distinct.place?_of_mem_entries (h : m.Distinct) {target : Target} {p : PassState}
    (hmem : (target, p) ∈ m.entries) :
    ∃ place, m.place? target = some place ∧ m.passAt? place = some p := by
  obtain ⟨t, ht, hp⟩ := List.mem_flatMap.1 hmem
  obtain ⟨q, hq, heq⟩ := List.mem_map.1 hp
  cases heq
  obtain ⟨i, hi⟩ := List.mem_iff_getElem?.1 ht
  obtain ⟨j, hj⟩ := List.mem_iff_getElem?.1 hq
  have htechnique : m.names[i]? = some (t.name, t.passes.map PassState.name) := by
    simp [names, hi]
  have hpass : (t.passes.map PassState.name)[j]? = some p.name := by simp [hj]
  have hplace : m.passAt? ⟨i, j⟩ = some p := by simp [passAt?, hi, hj]
  exact ⟨⟨i, j⟩, (m.place?_eq_some_iff _ _).2 (h.standsFor htechnique hpass), hplace⟩

theorem foldl_apply_of_held {p : PassState} {ps : List Parcel} (h : ∀ q ∈ ps, q.pass = p) :
    (ps.flatMap Parcel.layers).foldl PassState.apply p = p := by
  induction ps with
  | nil => rfl
  | cons q ps ih =>
    have hq : q.layers.foldl PassState.apply p = p := by
      rw [← h q List.mem_cons_self, q.pass_eq, PassState.foldl_apply, ← Parcel.setters,
        PassState.setAll_again]
    rw [List.flatMap_cons, List.foldl_append, hq]
    exact ih fun r hr => h r (List.mem_cons_of_mem _ hr)

/-- Parcels leave a material unchanged if their targets stand for the passes that they describe. -/
theorem Overlaid.eq_of_held {ps : List Parcel} {d : Delivery Material} (h : m.Overlaid ps d)
    (hheld : ∀ p ∈ ps, ∃ place, m.place? p.target = some place ∧ m.passAt? place = some p.pass) :
    d = { state := m, applied := ps.length } := by
  have hfound : ∀ p ∈ ps, (m.place? p.target).isSome := by
    intro p hp
    obtain ⟨place, hplace, -⟩ := hheld p hp
    exact Option.isSome_of_eq_some hplace
  have hstate : d.state = m := by
    refine ext_places h.names fun place => ?_
    rw [h.passes]
    cases hp : m.passAt? place with
    | none => rfl
    | some p =>
      refine congrArg some (foldl_apply_of_held fun q hq => ?_)
      obtain ⟨hmem, htarget⟩ := List.mem_filter.1 hq
      obtain ⟨place', hplace', hpass⟩ := hheld q hmem
      rw [of_decide_eq_true htarget] at hplace'
      cases hplace'
      rw [hp] at hpass
      exact (Option.some.inj hpass).symm
  have happlied : d.applied = ps.length := h.applied.trans (List.countP_eq_length.2 hfound)
  have hmissed : d.missed = [] := by
    rw [h.missed, List.filter_eq_nil_iff.2, List.map_nil]
    intro p hp hnone
    rw [Option.isNone_iff_eq_none] at hnone
    simpa [hnone] using hfound p hp
  exact Delivery.ext hstate happlied hmissed

/-! ## Materials of documents -/

/-- The names in the material of a document: an unnamed pass where a technique spells out none, and
an unnamed technique with such a pass where the document spells out no technique. -/
theorem names_ofDocument (doc : Document) :
    (ofDocument doc).names =
      if doc.techniques.isEmpty then [(none, [none])]
      else doc.techniques.map fun t =>
        (t.name, if t.passes.isEmpty then [none] else t.passes.map Pass.name) := by
  unfold names ofDocument
  split
  · simp
  · rw [List.map_map]
    refine List.map_congr_left fun t _ => ?_
    simp only [Function.comp_apply, buildTechnique]
    split <;> simp

theorem distinct_ofDocument {doc : Document}
    (htechniques : (doc.techniques.map Technique.name).Nodup)
    (hpasses : ∀ t ∈ doc.techniques, (t.passes.map Pass.name).Nodup) :
    (ofDocument doc).Distinct := by
  constructor
  · rw [names_ofDocument]
    split
    · simp
    · rw [List.map_map]
      exact htechniques
  · rw [names_ofDocument]
    split
    · simp
    · intro entry hentry
      obtain ⟨t, ht, rfl⟩ := List.mem_map.1 hentry
      split
      · simp
      · exact hpasses t ht

end Material

/-- **A document with distinct names leaves its own material unchanged.** -/
theorem own_material_unchanged (doc : Document)
    (htechniques : (doc.techniques.map Technique.name).Nodup)
    (hpasses : ∀ t ∈ doc.techniques, (t.passes.map Pass.name).Nodup) :
    doc.deliver Material.host (Material.ofDocument doc) =
      { state := Material.ofDocument doc
        applied := (Material.ofDocument doc).passCount
        missed := [] } := by
  have hdistinct := Material.distinct_ofDocument htechniques hpasses
  have hentries := Material.entries_ofDocument doc
  have hlength : doc.parcels.length = (Material.ofDocument doc).passCount := by
    rw [← Material.length_entries, hentries, List.length_map]
  rw [← hlength]
  refine (Material.overlaid_deliver _ doc).eq_of_held fun p hp => ?_
  refine hdistinct.place?_of_mem_entries ?_
  rw [hentries]
  exact List.mem_map_of_mem hp

/-- A technique whose pass is implied, and one that switches blending off for a pass which sets a
uniform once more. -/
theorem own_material_unchanged_implied_pass :
    let document : Document :=
      { layer := { options := [.blend ⟨true, .one, .zero⟩],
                   uniforms := [⟨"tint", .float ⟨0x3F800000⟩⟩] },
        techniques := [
          { name := none },
          { name := some "main", layer := { options := [.blend .disabled] },
            passes := [
              { name := some "base",
                layer := { uniforms := [⟨"glow", .float ⟨0⟩⟩, ⟨"tint", .float ⟨0x80000000⟩⟩] } },
              { name := none }] }] }
    (document.techniques.map Technique.name).Nodup ∧
      (∀ t ∈ document.techniques, (t.passes.map Pass.name).Nodup) ∧
      (Material.ofDocument document).passCount = 3 ∧
      document.deliver Material.host (Material.ofDocument document) =
        { state := Material.ofDocument document
          applied := (Material.ofDocument document).passCount
          missed := [] } := by
  intro document
  have htechniques : (document.techniques.map Technique.name).Nodup := by decide
  have hpasses : ∀ t ∈ document.techniques, (t.passes.map Pass.name).Nodup := by decide
  exact ⟨htechniques, hpasses, rfl, own_material_unchanged document htechniques hpasses⟩

end MaterialScript
