import MaterialScript.Proofs.Assembly.Nesting

/-!
# What a failed action leaves behind

An assembly goes on after an action that fails, so what the action has done by then stays. A scope
that is opened or closed at the wrong place does nothing. A value or a resource that is missing costs
the values taken before, and nothing else. A statement that leaves values behind is in the tree all
the same.

* `Nested.site` : an assembly with nested scopes is at a site;
* `SameTree` : assemblies that differ in their values and their resolver only;
* `Assembly.only` : the values that an action needs, without those below; `act_only` : a statement
  goes to the same place without them;
* `perform_fails`, `Fails.leaves`, `Does.appends` : one action that fails, before or after its node is in
  the tree.
-/

namespace MaterialScript

open Grammar Assembly

variable {σ : Type}

/-! ## Sites -/

theorem Nested.site {a : Assembly σ} (h : Nested a) : ∃ site : Site, a = site.place a := by
  obtain ⟨hscopes, htechnique, hpass⟩ := h
  rcases a with ⟨bools, floats, strings, factors, uniforms, scopes, technique, pass, document, host⟩
  dsimp only at hscopes htechnique hpass
  simp only [List.mem_cons, List.not_mem_nil, or_false] at hscopes
  rcases hscopes with hscopes | hscopes | hscopes <;>
    (rw [List.reverse_eq_iff] at hscopes; subst hscopes)
  · cases technique with
    | some t => simp at htechnique
    | none =>
      cases pass with
      | some p => simp at hpass
      | none => exact ⟨.file document, rfl⟩
  · cases technique with
    | none => simp at htechnique
    | some t =>
      cases pass with
      | some p => simp at hpass
      | none => exact ⟨.technique document t, rfl⟩
  · cases technique with
    | none => simp at htechnique
    | some t =>
      cases pass with
      | none => simp at hpass
      | some p => exact ⟨.pass document t p, rfl⟩

theorem site_of_reached {resolver : Resolver σ} {base : String} {host : σ} {fs : List Firing}
    {a : Assembly σ}
    (h : a ∈ start host :: (fireEach resolver base fs (start host)).map resulting) :
    ∃ site : Site, a = site.place a := by
  rcases List.mem_cons.1 h with rfl | h
  · exact ⟨.file {}, rfl⟩
  · obtain ⟨result, hresult, rfl⟩ := List.mem_map.1 h
    exact (fireEach_at_site resolver base fs (.file {}) (start host) result hresult).1.site

/-- The open scopes, what is being built and the document are the same. -/
structure SameTree (a b : Assembly σ) : Prop where
  scopes : b.scopes = a.scopes
  technique : b.technique = a.technique
  pass : b.pass = a.pass
  document : b.document = a.document

theorem Drains.sameTree {taken : Stack → Nat} {a b : Assembly σ} (h : Drains taken a b) :
    SameTree a b :=
  ⟨h.scopes, h.technique, h.pass, h.document⟩

theorem Drains.suffix {taken : Stack → Nat} {a b : Assembly σ} (h : Drains taken a b)
    (stack : Stack) : b.values stack <:+ a.values stack := by
  obtain ⟨top, -, hvalues⟩ := h.values stack
  exact ⟨top, hvalues.symm⟩

/-! ## A statement by itself -/

/-- The assembly with the values that an action needs, and no others. -/
def Assembly.only (a : Assembly σ) (action : Action) : Assembly σ :=
  { a with
    bools := a.bools.take (uses [action] .bools)
    floats := a.floats.take (uses [action] .floats)
    strings := a.strings.take (uses [action] .strings)
    factors := a.factors.take (uses [action] .factors)
    uniforms := a.uniforms.take (uses [action] .uniforms) }

section Alone
variable (resolver : Resolver σ) (base : String) {action : Action} {site : Site}
  {a b : Assembly σ}

def Assembly.cleared (a : Assembly σ) : Assembly σ :=
  { a with bools := [], floats := [], strings := [], factors := [], uniforms := [] }

/-- A statement goes to the same place if there are no other values than its own. -/
theorem act_only (haction : action.completesStatement = true)
    (hrun : (act resolver base action).run (site.place a) = .ok () b) :
    (act resolver base action).run ((site.place a).only action) = .ok () b.cleared := by
  rcases a with ⟨bools, floats, strings, factors, uniforms, _, _, _, _, host⟩
  cases action with
  | cullFaceOption face => cases site <;> cases hrun <;> rfl
  | blendOption enabled =>
    cases enabled with
    | false => cases site <;> cases hrun <;> rfl
    | true =>
      rcases factors with _ | ⟨dst, _ | ⟨src, factors⟩⟩
      · cases hrun
      · cases hrun
      · cases site <;> cases hrun <;> rfl
  | depthTestOption =>
    rcases bools with _ | ⟨on, bools⟩
    · cases hrun
    · cases site <;> cases hrun <;> rfl
  | depthWriteOption =>
    rcases bools with _ | ⟨on, bools⟩
    · cases hrun
    · cases site <;> cases hrun <;> rfl
  | shaderOption =>
    rcases strings with _ | ⟨reference, strings⟩
    · cases hrun
    · rw [act, run_pop_load resolver base .shader ⟨reference, 0, 0⟩ rfl] at hrun
      rw [act, run_pop_load resolver base .shader ⟨reference, 0, 0⟩ rfl]
      dsimp only [Site.place, Assembly.only] at hrun ⊢
      generalize (fetch resolver base .shader ⟨reference, 0, 0⟩).run host = answer at hrun ⊢
      cases answer with
      | error denial host' => cases hrun
      | ok shader host' => cases site <;> cases hrun <;> rfl
  | uniform =>
    rcases uniforms with _ | ⟨value, uniforms⟩
    · cases hrun
    rcases strings with _ | ⟨name, strings⟩
    · cases hrun
    · cases site <;> cases hrun <;> rfl
  | _ => cases haction

theorem perform_only (haction : action.completesStatement = true)
    (hrun : (act resolver base action).run (site.place a) = .ok () b) :
    (perform resolver base action).run ((site.place a).only action) = .ok () b.cleared := by
  rw [perform, EStateM.run_bind, act_only resolver base haction hrun, if_pos haction]
  rfl

end Alone

/-! ## One action -/

section Failing
variable {resolver : Resolver σ} {base : String} {action : Action} {site : Site} {a b : Assembly σ}
  {fault : Fault}

/-- A statement fails before it is in the tree, or by the check for values after it. -/
theorem perform_fails (h : (perform resolver base action).run a = .error fault b) :
    (act resolver base action).run a = .error fault b ∨
    action.completesStatement = true ∧ (act resolver base action).run a = .ok () b ∧
      ∃ stack, b.leftover? = some stack ∧ fault = .unconsumed stack (b.pending stack) := by
  rw [perform, EStateM.run_bind] at h
  cases hact : (act resolver base action).run a with
  | error fault' b' =>
    rw [hact] at h
    exact .inl h
  | ok _ b' =>
    rw [hact] at h
    dsimp only at h
    split at h
    · next haction =>
      simp only [checkConsumed, EStateM.run_bind, EStateM.run_get] at h
      cases hleft : b'.leftover? with
      | none =>
        rw [hleft] at h
        cases h
      | some stack =>
        rw [hleft] at h
        cases h
        exact .inr ⟨haction, rfl, stack, hleft, rfl⟩
    · cases h

theorem values_of_leftover? {stack : Stack} (h : b.leftover? = some stack) :
    b.values stack ≠ [] := by
  have hpending : b.pending stack ≠ 0 := by simpa using List.find?_some h
  intro hnil
  exact hpending (congrArg List.length hnil)

theorem Fails.leaves (h : Fails a fault b) :
    fault.kind = .scopeImbalance ∧ b = a ∨
    (fault.kind = .stackUnderflow ∨ fault.kind = .resourceError) ∧ SameTree a b ∧
      ∀ stack, b.values stack <:+ a.values stack := by
  cases h with
  | underflow hdrains stack => exact .inr ⟨.inl rfl, hdrains.sameTree, hdrains.suffix⟩
  | denied hdrains e => exact .inr ⟨.inr rfl, hdrains.sameTree, hdrains.suffix⟩
  | techniqueInside => exact .inl ⟨rfl, rfl⟩
  | passOutside => exact .inl ⟨rfl, rfl⟩
  | wrongScope expected found => exact .inl ⟨rfl, rfl⟩

/-- A statement that is performed puts one node at the end of the innermost scope. -/
theorem Does.appends (h : Does action site a b) (haction : action.completesStatement = true) :
    (∃ o, action.optionKind? = some o.kind ∧ b = (site.mapLayer (·.pushOption o)).place b) ∨
    ∃ u, action = .uniform ∧ b = (site.mapLayer (·.pushUniform u)).place b := by
  obtain ⟨site', hmoves, hplace⟩ := h.moves
  cases hmoves with
  | value _ hpushed =>
    rw [pushed?_of_completesStatement haction] at hpushed
    cases hpushed
  | option _ o hkind => exact .inl ⟨o, hkind, hplace⟩
  | uniform _ u => exact .inr ⟨u, rfl, hplace⟩
  | techniqueBegin | techniqueEnd | passBegin | passEnd => cases haction

end Failing

/-- **What a failed action leaves behind**, in every assembly that is reached, whatever has failed
before. A scope at the wrong place changes nothing. A value or a resource that is missing leaves the
tree as it was, and what is left of every stack is the bottom of it. Values that are left over after
a statement leave the tree that the statement by itself would have left: one node is at the end of
the innermost scope. No action fails in another way. -/
theorem failed_action_leaves (resolver : Resolver σ) (base : String) (host : σ) (fs : List Firing)
    (f : Firing) (m : Misfire) (a b : Assembly σ)
    (hreached : a ∈ start host :: (fireEach resolver base fs (start host)).map resulting)
    (hfails : (fire resolver base f).run a = .error m b) :
    m.fault.kind = .scopeImbalance ∧ b = a ∨
    (m.fault.kind = .stackUnderflow ∨ m.fault.kind = .resourceError) ∧ SameTree a b ∧
      (∀ stack, b.values stack <:+ a.values stack) ∨
    m.fault.kind = .unconsumedValues ∧
      (∃ c, (fire resolver base f).run (a.only f.action) = .ok () c ∧ SameTree c b ∧
        c.host = b.host) ∧
      (∃ site : Site, a = site.place a ∧
        ((∃ o, f.action.optionKind? = some o.kind ∧
            b = (site.mapLayer (·.pushOption o)).place b) ∨
          ∃ u, f.action = .uniform ∧ b = (site.mapLayer (·.pushUniform u)).place b)) ∧
      ∃ stack, b.values stack ≠ [] := by
  obtain ⟨site, hsite⟩ := site_of_reached hreached
  rw [hsite] at hfails ⊢
  have hrun : ∃ fault, (perform resolver base f.action).run (site.place a) = .error fault b ∧
      m = ⟨f, fault⟩ := by
    rw [fire, EStateM.run_adaptExcept] at hfails
    cases hperform : (perform resolver base f.action).run (site.place a) with
    | ok _ c =>
      rw [hperform] at hfails
      cases hfails
    | error fault c =>
      rw [hperform] at hfails
      cases hfails
      exact ⟨fault, rfl, rfl⟩
  obtain ⟨fault, hperform, rfl⟩ := hrun
  have hends := act_ends resolver base site a f.action
  rcases perform_fails hperform with hact | ⟨haction, hact, stack, hleft, rfl⟩
  · rcases (hends.bad_of_error hact).leaves with h | h
    · exact .inl h
    · exact .inr (.inl h)
  · have hown : (fire resolver base f).run ((site.place a).only f.action) = .ok () b.cleared := by
      rw [fire, EStateM.run_adaptExcept, perform_only resolver base haction hact]
    have hnode := (hends.good_of_ok hact).appends haction
    exact .inr (.inr ⟨rfl, ⟨_, hown, ⟨rfl, rfl, rfl, rfl⟩, rfl⟩, ⟨site, rfl, hnode⟩, stack,
      values_of_leftover? hleft⟩)

/-- Two literals are pushed and a pass is closed that was never opened. Then a shader takes the
second literal, and is in the document though the first one is left over. -/
theorem shader_kept_with_literal_left_over :
    let counting : Resolver Nat :=
      { locate := fun _ reference _ => reference, load := fun _ _ n => (.ok ⟨n⟩, n + 1) }
    let fs : List Firing := [⟨.string "a.glsl", 0, 8⟩, ⟨.passEnd, 8, 9⟩, ⟨.string "b.glsl", 9, 17⟩]
    let f : Firing := ⟨.shaderOption, 9, 17⟩
    let a : Assembly Nat := { strings := ["b.glsl", "a.glsl"], host := 0 }
    let b : Assembly Nat :=
      { strings := ["a.glsl"], document := { layer := ⟨[.shader ⟨"b.glsl", ⟨0⟩⟩], []⟩ }, host := 1 }
    let m : Misfire := ⟨f, .unconsumed .strings 1⟩
    a ∈ start 0 :: (fireEach counting "x.mat" fs (start 0)).map resulting ∧
      (fire counting "x.mat" f).run a = .error m b ∧
      ∃ c, (fire counting "x.mat" f).run { a with strings := ["b.glsl"] } = .ok () c ∧
        SameTree c b ∧ c.host = b.host := by
  intro counting fs f a b m
  have hreached : a ∈ start 0 :: (fireEach counting "x.mat" fs (start 0)).map resulting :=
    .tail _ (.tail _ (.tail _ (.head _)))
  have hfails : (fire counting "x.mat" f).run a = .error m b := rfl
  refine ⟨hreached, hfails, ?_⟩
  rcases failed_action_leaves counting "x.mat" 0 fs f m a b hreached hfails with
    ⟨hkind, -⟩ | ⟨hkind | hkind, -⟩ | ⟨-, hown, -⟩
  · cases hkind
  · cases hkind
  · cases hkind
  · exact hown

end MaterialScript
