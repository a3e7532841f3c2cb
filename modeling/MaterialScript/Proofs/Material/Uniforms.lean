import MaterialScript.Material
import MaterialScript.Proofs.Registry.Numbering

/-!
# What a uniform table holds

A uniform table is written to again and again. It lists every name where it was written first, with
the value that was written last, and its index is the inverse of that list.

* `lastValue?` : the last value that is written to a name;
* `UniformTable.overwrite`, `UniformTable.extend` : what one write does to the table, for a name that
  is known and for a new one; `UniformTable.setAll` : writes in order;
* `UniformTable.Holds t ws` : the table `t` holds what `ws` writes, with an index in step;
* `UniformTable.Holds.set` : one more write; `UniformTable.Holds.setAll` : many;
* `UniformTable.Holds.get?_eq` : look-up by the index gives the last value.
-/

namespace MaterialScript

/-- The last value that is written to a name. -/
def lastValue? (ws : List Uniform) (name : String) : Option UniformValue :=
  (ws.reverse.find? (fun u => u.name == name)).map Uniform.value

theorem lastValue?_concat (ws : List Uniform) (u : Uniform) (name : String) :
    lastValue? (ws ++ [u]) name = if u.name = name then some u.value else lastValue? ws name := by
  unfold lastValue?
  rw [List.reverse_append, List.reverse_singleton, List.singleton_append]
  by_cases h : u.name = name
  · simp [h]
  · rw [List.find?_cons_of_neg (by simpa using h), if_neg h]

theorem lastValue?_append (ws us : List Uniform) (name : String) :
    lastValue? (ws ++ us) name = (lastValue? us name).or (lastValue? ws name) := by
  unfold lastValue?
  rw [List.reverse_append, List.find?_append]
  cases us.reverse.find? (fun u => u.name == name) <;> rfl

theorem lastValue?_isSome {ws : List Uniform} {name : String} :
    (lastValue? ws name).isSome ↔ name ∈ ws.map Uniform.name := by
  simp [lastValue?]

namespace UniformTable

/-! ## Writes -/

section Writes
variable (t : UniformTable) (name : String) (x : UniformValue)

/-- Gives the name at a place another value. -/
def overwrite (i : Nat) : UniformTable :=
  { t with entries := t.entries.modify i fun e => (e.1, x) }

def extend : UniformTable := ⟨t.entries.push (name, x), t.index.insert name t.entries.size⟩

theorem set_of_known {i : Nat} (h : t.index[name]? = some i) : t.set name x = t.overwrite x i := by
  simp only [set, h, overwrite]

theorem set_of_new (h : t.index[name]? = none) : t.set name x = t.extend name x := by
  simp only [set, h, extend]

theorem toList_overwrite (i : Nat) :
    (t.overwrite x i).toList = t.toList.modify i fun e => (e.1, x) := Array.toList_modify

theorem toList_extend : (t.extend name x).toList = t.toList ++ [(name, x)] := Array.toList_push

theorem names_overwrite (i : Nat) :
    (t.overwrite x i).toList.map Prod.fst = t.toList.map Prod.fst := by
  rw [toList_overwrite]
  refine List.ext_getElem? fun j => ?_
  rw [List.getElem?_map, List.getElem?_map, List.getElem?_modify]
  split
  · cases t.toList[j]? <;> rfl
  · simp

def setAll (us : List Uniform) : UniformTable := us.foldl (fun t u => t.set u.name u.value) t

end Writes

/-! ## What writes amount to -/

/-- A table holds what has been written: every name once, where it was written first, with the value
that was written last. The index gives the place of a name, and nothing else. -/
structure Holds (t : UniformTable) (ws : List Uniform) : Prop where
  names : t.toList.map Prod.fst = (ws.map Uniform.name).eraseDups
  index : ∀ (name : String) (i : Nat),
    t.index[name]? = some i ↔ (t.toList.map Prod.fst)[i]? = some name
  values : ∀ name value, (name, value) ∈ t.toList → lastValue? ws name = some value

theorem holds_empty : Holds {} [] := by
  refine ⟨rfl, fun name i => ?_, fun name value h => ?_⟩
  · simp [toList]
  · cases h

variable {t : UniformTable} {ws : List Uniform}

theorem Holds.index_isSome (h : t.Holds ws) (name : String) :
    (∃ i, t.index[name]? = some i) ↔ name ∈ ws.map Uniform.name := by
  rw [← List.mem_eraseDups, ← h.names, List.mem_iff_getElem?]
  simp only [h.index]

theorem Holds.overwrite (h : t.Holds ws) {name : String} {i : Nat} (hi : t.index[name]? = some i)
    (value : UniformValue) : (t.overwrite value i).Holds (ws ++ [⟨name, value⟩]) := by
  have hknown : name ∈ ws.map Uniform.name := (h.index_isSome name).1 ⟨i, hi⟩
  refine ⟨?_, fun other j => ?_, fun other v hmem => ?_⟩
  · rw [names_overwrite, h.names, List.map_append, List.map_singleton, eraseDups_concat,
      if_pos hknown]
  · rw [names_overwrite]
    exact h.index other j
  · rw [lastValue?_concat]
    rw [toList_overwrite, List.mem_iff_getElem?] at hmem
    obtain ⟨j, hj⟩ := hmem
    rw [List.getElem?_modify] at hj
    obtain ⟨⟨other', v'⟩, hentry, hvalue⟩ := Option.map_eq_some_iff.1 hj
    have hplace : (t.toList.map Prod.fst)[j]? = some other' := by
      rw [List.getElem?_map, hentry]
      rfl
    by_cases hij : i = j
    · subst hij
      rw [if_pos rfl] at hvalue
      cases hvalue
      have hname := (h.index name i).1 hi
      rw [hplace] at hname
      rw [if_pos (Option.some.inj hname).symm]
    · rw [if_neg hij] at hvalue
      cases hvalue
      have hne : name ≠ other := by
        rintro rfl
        rw [(h.index name j).2 hplace] at hi
        exact hij (Option.some.inj hi).symm
      rw [if_neg hne]
      exact h.values other v (List.mem_of_getElem? hentry)

theorem Holds.extend (h : t.Holds ws) {name : String} (hi : t.index[name]? = none)
    (value : UniformValue) : (t.extend name value).Holds (ws ++ [⟨name, value⟩]) := by
  have hsize : t.entries.size = (t.toList.map Prod.fst).length := by simp [toList]
  have hnew : name ∉ ws.map Uniform.name := by
    intro hmem
    obtain ⟨i, hsome⟩ := (h.index_isSome name).2 hmem
    rw [hi] at hsome
    cases hsome
  refine ⟨?_, fun other j => ?_, fun other v hmem => ?_⟩
  · rw [toList_extend, List.map_append, h.names, List.map_append, List.map_singleton,
      List.map_singleton, eraseDups_concat, if_neg hnew]
  · have hother : t.index[other]? = some j ↔ (t.toList.map Prod.fst)[j]? = some other :=
      h.index other j
    rw [toList_extend, List.map_append, List.map_singleton, UniformTable.extend,
      Std.TreeMap.getElem?_insert, hsize, List.getElem?_append]
    grind
  · rw [lastValue?_concat]
    rw [toList_extend, List.mem_append, List.mem_singleton] at hmem
    rcases hmem with hmem | hmem
    · have hother : other ∈ ws.map Uniform.name := by
        rw [← lastValue?_isSome, h.values other v hmem]
        rfl
      have hne : name ≠ other := by
        rintro rfl
        exact hnew hother
      rw [if_neg hne]
      exact h.values other v hmem
    · cases hmem
      rw [if_pos rfl]

/-- **One more write.** -/
theorem Holds.set (h : t.Holds ws) (name : String) (value : UniformValue) :
    (t.set name value).Holds (ws ++ [⟨name, value⟩]) := by
  cases hi : t.index[name]? with
  | some i =>
    rw [t.set_of_known name value hi]
    exact h.overwrite hi value
  | none =>
    rw [t.set_of_new name value hi]
    exact h.extend hi value

theorem Holds.setAll (h : t.Holds ws) (us : List Uniform) : (t.setAll us).Holds (ws ++ us) := by
  induction us generalizing t ws with
  | nil =>
    rw [List.append_nil]
    exact h
  | cons u us ih =>
    have hnext := ih (h.set u.name u.value)
    rwa [List.append_assoc] at hnext

/-- **The index finds the value that was written last.** -/
theorem Holds.get?_eq (h : t.Holds ws) (name : String) : t.get? name = lastValue? ws name := by
  unfold get?
  cases hi : t.index[name]? with
  | none =>
    have hnone : ¬ (lastValue? ws name).isSome := by
      rw [lastValue?_isSome, ← h.index_isSome]
      rintro ⟨i, hsome⟩
      rw [hi] at hsome
      cases hsome
    rw [Option.not_isSome_iff_eq_none] at hnone
    rw [hnone]
    rfl
  | some i =>
    have hplace := (h.index name i).1 hi
    rw [List.getElem?_map] at hplace
    obtain ⟨⟨_, value⟩, hentry, rfl⟩ := Option.map_eq_some_iff.1 hplace
    rw [h.values _ value (List.mem_of_getElem? hentry)]
    rw [toList, Array.getElem?_toList] at hentry
    simp [hentry]

end UniformTable

end MaterialScript
