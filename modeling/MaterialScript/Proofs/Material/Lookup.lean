import MaterialScript.Proofs.Material.Layers

/-!
# Finding a uniform

The uniforms of a pass are found by an index that is kept beside their list. Whatever setters have run, the
index gives the place of every name, so that it finds what a search through the list finds, which is what
was set last.

* `UniformTable.Holds.entry_of_index` : the index leads to an entry with the name that was asked for;
* `UniformTable.Holds.entries_eq` : the entries, told by what was written;
* `UniformTable.Holds.find?_eq` : what a search through the list finds;
* `index_finds_uniforms` : the index, the list and the search, after any setters.
-/

namespace MaterialScript

namespace UniformTable

variable {t : UniformTable} {ws : List Uniform}

theorem Holds.nodup (h : t.Holds ws) : (t.toList.map Prod.fst).Nodup := by
  rw [h.names]
  exact nodup_eraseDups _

theorem Holds.entry_of_index (h : t.Holds ws) {name : String} {i : Nat}
    (hi : t.index[name]? = some i) : ∃ value, t.entries[i]? = some (name, value) := by
  have hname := (h.index name i).1 hi
  rw [List.getElem?_map, Option.map_eq_some_iff] at hname
  obtain ⟨⟨_, value⟩, hentry, rfl⟩ := hname
  rw [toList, Array.getElem?_toList] at hentry
  exact ⟨value, hentry⟩

/-- **The entries of a table**: every name that was written, in the order of the first writes, with the
value that was written last. -/
theorem Holds.entries_eq (h : t.Holds ws) :
    t.toList.map (fun e => (e.1, some e.2)) =
      (ws.map Uniform.name).eraseDups.map fun name => (name, lastValue? ws name) := by
  rw [← h.names, List.map_map]
  apply List.map_congr_left
  intro e he
  show (e.1, some e.2) = (e.1, lastValue? ws e.1)
  rw [h.values e.1 e.2 he]

/-- **A search through the list** finds what was written last. -/
theorem Holds.find?_eq (h : t.Holds ws) (name : String) :
    (t.toList.find? fun e => e.1 == name).map Prod.snd = lastValue? ws name := by
  cases hfind : t.toList.find? fun e => e.1 == name with
  | some e =>
    have hname : e.1 = name := by simpa using List.find?_some hfind
    rw [← hname, h.values e.1 e.2 (List.mem_of_find?_eq_some hfind)]
    rfl
  | none =>
    have hmissing : name ∉ ws.map Uniform.name := by
      rw [← List.mem_eraseDups, ← h.names, List.mem_map]
      rintro ⟨e, he, rfl⟩
      exact List.find?_eq_none.1 hfind e he (beq_self_eq_true e.1)
    rw [← lastValue?_isSome, Option.not_isSome_iff_eq_none] at hmissing
    rw [hmissing]
    rfl

end UniformTable

/-- **The index finds the uniforms of a pass**, whatever setters have run on a new one. It gives the place of
every name in the list and nothing else. Names are listed once, in the order in which they were set first,
with the value that was set last. So the index never leads out of the list, and it finds what a search
through the list finds, which is what was set last. -/
theorem index_finds_uniforms (name : Option String) (ss : List Setter) :
    let p := (PassState.new name).setAll ss
    let written := ss.filterMap Setter.uniform?
    (∀ (uniform : String) (i : Nat), p.uniforms.index[uniform]? = some i ↔
      (p.uniforms.toList.map Prod.fst)[i]? = some uniform) ∧
    (p.uniforms.toList.map Prod.fst).Nodup ∧
    p.uniforms.toList.map (fun e => (e.1, some e.2)) =
      (written.map Uniform.name).eraseDups.map (fun n => (n, lastValue? written n)) ∧
    ∀ uniform : String,
      (∀ i, p.uniforms.index[uniform]? = some i →
        ∃ value, p.uniforms.entries[i]? = some (uniform, value)) ∧
      p.uniform? uniform = (p.uniforms.toList.find? fun e => e.1 == uniform).map Prod.snd ∧
      p.uniform? uniform = lastValue? written uniform := by
  intro p written
  have hholds : p.uniforms.Holds written :=
    PassState.holds_setAll (p := PassState.new name) UniformTable.holds_empty ss
  refine ⟨hholds.index, hholds.nodup, hholds.entries_eq, fun uniform => ⟨?_, ?_, ?_⟩⟩
  · intro i hi
    exact hholds.entry_of_index hi
  · rw [hholds.find?_eq]
    exact hholds.get?_eq uniform
  · exact hholds.get?_eq uniform

/-- A name that is set again behind another one keeps its place and has the later value. -/
theorem index_finds_uniform_set_again :
    let x : UniformValue := .float ⟨1⟩
    let y : UniformValue := .float ⟨2⟩
    let ss : List Setter := [.uniform "a" x, .uniform "b" x, .cullFace .front, .uniform "a" y]
    let p := (PassState.new none).setAll ss
    p.uniforms.index["a"]? = some 0 ∧ (∃ value, p.uniforms.entries[0]? = some ("a", value)) ∧
      p.uniform? "a" = some y := by
  intro x y ss p
  have hindex : p.uniforms.index["a"]? = some 0 := by decide +kernel
  obtain ⟨-, -, -, hfound⟩ := index_finds_uniforms none ss
  obtain ⟨hinside, -, hlast⟩ := hfound "a"
  exact ⟨hindex, hinside 0 hindex, hlast⟩

end MaterialScript
