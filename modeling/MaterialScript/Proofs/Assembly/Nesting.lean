import MaterialScript.Proofs.Assembly.Steps

/-!
# Scopes stay nested

Actions may come in any order and may fail, and the assembly goes on with the next one. Its open
scopes are still those of the document, of a technique in it, and of a pass in that, and they are
never out of step with the technique and the pass that are being built.

* `fireEach` : firings performed one by one, whatever becomes of them; `resulting` : the assembly
  after a firing;
* `Nested` : scopes in step with what is being built; `nested_place` : as they are at every site;
* `Fault.outOfStep` : the faults of scopes that are not; `Fault.message_not_mem` : their wording is
  that of no other fault;
* `fire_at_site`, `fireEach_at_site` : one firing, and any sequence of them.
-/

namespace MaterialScript

open Grammar Assembly

variable {σ : Type}

/-- The assembly after a firing, whether or not it failed. -/
def resulting : EStateM.Result Misfire (Assembly σ) Unit → Assembly σ
  | .ok _ a => a
  | .error _ a => a

/-- Performs every firing on what the ones before have left. -/
def fireEach (resolver : Resolver σ) (base : String) :
    List Firing → Assembly σ → List (EStateM.Result Misfire (Assembly σ) Unit)
  | [], _ => []
  | f :: fs, a =>
    let result := (fire resolver base f).run a
    result :: fireEach resolver base fs (resulting result)

/-- The open scopes are nested, and a technique or a pass is being built exactly when its scope is
open. -/
structure Nested (a : Assembly σ) : Prop where
  scopes : a.scopes.reverse ∈ [[Scope.file], [.file, .technique], [.file, .technique, .pass]]
  technique : a.technique.isSome ↔ Scope.technique ∈ a.scopes
  pass : a.pass.isSome ↔ Scope.pass ∈ a.scopes

theorem nested_place (site : Site) (a : Assembly σ) : Nested (site.place a) where
  scopes := by cases site <;> simp [Site.place, Site.scopes]
  technique := by cases site <;> simp [Site.place, Site.technique?, Site.scopes]
  pass := by cases site <;> simp [Site.place, Site.pass?, Site.scopes]

theorem Nested.depth {a : Assembly σ} (h : Nested a) : 1 ≤ a.depth ∧ a.depth ≤ 3 := by
  have hdepth : a.depth = a.scopes.reverse.length := List.length_reverse.symm
  have hscopes := h.scopes
  simp only [List.mem_cons, List.not_mem_nil, or_false] at hscopes
  rcases hscopes with hscopes | hscopes | hscopes <;> rw [hdepth, hscopes] <;> decide

/-! ## Faults -/

/-- The faults of scopes that are out of step with what is being built. -/
def Fault.outOfStep : List Fault := [.noOpenScope, .techniqueNotOpen, .passNotOpen]

theorem Fails.not_mem_outOfStep {a b : Assembly σ} {fault : Fault} (h : Fails a fault b) :
    fault ∉ Fault.outOfStep := by
  cases h <;> simp [Fault.outOfStep]

section Texts
variable {front rest : String} {texts : List String}

theorem not_prefix_append (h : ∀ text ∈ texts, ¬ front.toList <+: text.toList) :
    ∀ text ∈ texts, ¬ (front ++ rest).toList <+: text.toList := by
  intro text htext hprefix
  rw [String.toList_append] at hprefix
  exact h text htext ((List.prefix_append _ _).trans hprefix)

theorem append_not_mem_of_prefix (h : ∀ text ∈ texts, ¬ front.toList <+: text.toList) :
    front ++ rest ∉ texts :=
  fun hmem => not_prefix_append h _ hmem (List.prefix_refl _)

theorem append_not_mem_of_suffix (h : ∀ text ∈ texts, ¬ rest.toList <:+ text.toList) :
    front ++ rest ∉ texts := by
  intro hmem
  have hrest := h _ hmem
  rw [String.toList_append] at hrest
  exact hrest (List.suffix_append _ _)

end Texts

theorem Fault.message_not_mem {fault : Fault} (h : fault ∉ outOfStep) :
    fault.message ∉ ["no open scope to receive the statement",
      "technique closed without being opened", "pass closed without being opened"] := by
  cases fault with
  | underflow stack => exact append_not_mem_of_suffix (by decide)
  | unconsumed stack count => exact append_not_mem_of_suffix (by decide)
  | techniqueInside => decide
  | passOutside => decide
  | wrongScope expected found =>
    exact append_not_mem_of_prefix (not_prefix_append (not_prefix_append (by decide)))
  | techniqueNotOpen => exact absurd (by simp [outOfStep]) h
  | passNotOpen => exact absurd (by simp [outOfStep]) h
  | noOpenScope => exact absurd (by simp [outOfStep]) h
  | stillOpen scope => exact append_not_mem_of_suffix (by decide)
  | resource error =>
    cases error with
    | notFound kind path => exact append_not_mem_of_suffix (by decide)
    | loadFailed kind path reason =>
      refine append_not_mem_of_prefix ?_
      iterate 4 refine not_prefix_append ?_
      decide

/-! ## Firings -/

theorem Fails.place {site : Site} {a b : Assembly σ} {fault : Fault}
    (h : Fails (site.place a) fault b) : b = site.place b := by
  cases h with
  | underflow hdrains => exact hdrains.place
  | denied hdrains => exact hdrains.place
  | techniqueInside | passOutside | wrongScope => rfl

/-- After every firing at a site the assembly is at a site, and its scopes are not out of step. -/
theorem fire_at_site (resolver : Resolver σ) (base : String) (f : Firing) (site : Site)
    (a : Assembly σ) :
    (∃ site' : Site, resulting ((fire resolver base f).run (site.place a)) =
      site'.place (resulting ((fire resolver base f).run (site.place a)))) ∧
    ∀ m b, (fire resolver base f).run (site.place a) = .error m b → m.fault ∉ Fault.outOfStep := by
  have hends := perform_ends resolver base site a f.action
  rw [fire, EStateM.run_adaptExcept]
  cases hrun : (perform resolver base f.action).run (site.place a) with
  | ok _ b =>
    obtain ⟨site', -, hplace⟩ := (hends.good_of_ok hrun).moves
    exact ⟨⟨site', hplace⟩, fun m c h => by cases h⟩
  | error fault b =>
    rcases hends.bad_of_error hrun with hfails | ⟨hdoes, stack, -, rfl⟩
    · refine ⟨⟨site, hfails.place⟩, fun m c h => ?_⟩
      cases h
      exact hfails.not_mem_outOfStep
    · obtain ⟨site', -, hplace⟩ := hdoes.moves
      refine ⟨⟨site', hplace⟩, fun m c h => ?_⟩
      cases h
      simp [Fault.outOfStep]

/-- **Any sequence of firings**, by induction from one site to the next. -/
theorem fireEach_at_site (resolver : Resolver σ) (base : String) (fs : List Firing) (site : Site)
    (a : Assembly σ) : ∀ result ∈ fireEach resolver base fs (site.place a),
      Nested (resulting result) ∧ ∀ m b, result = .error m b → m.fault ∉ Fault.outOfStep := by
  induction fs generalizing site a with
  | nil => simp [fireEach]
  | cons f fs ih =>
    obtain ⟨⟨site', hplace⟩, hfault⟩ := fire_at_site resolver base f site a
    intro result hresult
    rw [fireEach, List.mem_cons] at hresult
    rcases hresult with rfl | hresult
    · refine ⟨?_, hfault⟩
      rw [hplace]
      exact nested_place site' _
    · rw [hplace] at hresult
      exact ih site' _ result hresult

/-- **Scopes stay nested**, whatever actions are performed one by one and however many of them fail:
the open scopes are those of the document, a technique and a pass, in step with what is being built.
So there are one to three of them, and scopes out of step are never reported. -/
theorem scopes_stay_nested (resolver : Resolver σ) (base : String) (host : σ) (fs : List Firing) :
    let results := fireEach resolver base fs (Assembly.start host)
    (∀ a ∈ Assembly.start host :: results.map resulting,
      a.scopes.reverse ∈ [[Scope.file], [.file, .technique], [.file, .technique, .pass]] ∧
      (a.technique.isSome ↔ Scope.technique ∈ a.scopes) ∧
      (a.pass.isSome ↔ Scope.pass ∈ a.scopes) ∧ 1 ≤ a.depth ∧ a.depth ≤ 3) ∧
    ∀ m a, .error m a ∈ results → m.fault ∉ [.noOpenScope, .techniqueNotOpen, .passNotOpen] ∧
      m.fault.message ∉ ["no open scope to receive the statement",
        "technique closed without being opened", "pass closed without being opened"] := by
  intro results
  have hstart : Assembly.start host = (Site.file {}).place (Assembly.start host) := rfl
  have hresults := fireEach_at_site resolver base fs (.file {}) (Assembly.start host)
  refine ⟨fun a ha => ?_, fun m a hmem => ?_⟩
  · have hnested : Nested a := by
      rcases List.mem_cons.1 ha with rfl | ha
      · rw [hstart]
        exact nested_place _ _
      · obtain ⟨result, hresult, rfl⟩ := List.mem_map.1 ha
        exact (hresults result hresult).1
    exact ⟨hnested.scopes, hnested.technique, hnested.pass, hnested.depth⟩
  · have hfault := (hresults _ hmem).2 m a rfl
    exact ⟨hfault, Fault.message_not_mem hfault⟩

/-- A technique is closed inside of its pass, and a second one is opened there. -/
theorem scopes_nested_after_misplaced_technique :
    let counting : Resolver Nat := { load := fun _ _ n => (.ok ⟨n⟩, n + 1) }
    let fs : List Firing :=
      [⟨.techniqueBegin none, 0, 9⟩, ⟨.passBegin none, 12, 16⟩, ⟨.techniqueEnd, 19, 20⟩,
        ⟨.techniqueBegin none, 21, 30⟩]
    let a : Assembly Nat :=
      { scopes := [.pass, .technique, .file], technique := some { name := none },
        pass := some { name := none }, host := 0 }
    let m : Misfire := ⟨⟨.techniqueEnd, 19, 20⟩, .wrongScope .technique (some .pass)⟩
    let results := fireEach counting "x.mat" fs (Assembly.start 0)
    .error m a ∈ results ∧ a ∈ results.map resulting ∧ 1 ≤ a.depth ∧ a.depth ≤ 3 ∧
      m.fault ∉ [.noOpenScope, .techniqueNotOpen, .passNotOpen] := by
  intro counting fs a m results
  obtain ⟨hstates, hfaults⟩ := scopes_stay_nested counting "x.mat" 0 fs
  have hmem : .error m a ∈ results := .tail _ (.tail _ (.head _))
  have hmem' : a ∈ results.map resulting := List.mem_map.2 ⟨_, hmem, rfl⟩
  obtain ⟨-, -, -, hdepth⟩ := hstates a (.tail _ hmem')
  exact ⟨hmem, hmem', hdepth.1, hdepth.2, (hfaults m a hmem).1⟩

end MaterialScript
