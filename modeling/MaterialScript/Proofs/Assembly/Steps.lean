import MaterialScript.Proofs.Translation.Replay

/-!
# What one action does

Actions come in any order here, well nested or not. An assembly that starts with an empty document
is always at a `Site`, with any values pending. From there an action does one of a few things, or
fails and only loses values.

* `Site.place` : the assembly at a site with pending values and a resolver of its own;
* `Drains` : assemblies that only lose values;
* `Ends` : what a step ends in, with or without a fault; `Ends.bind` : one step after the other;
* `pushes`, `uses` : how many values actions put on a stack and take off it;
* `Moves`, `Does` : what an action does when it is performed; `Fails` : what is left when it is not;
* `act_ends`, `perform_ends` : every action does or fails so, whatever came before.
-/

namespace MaterialScript

/-! ## Kinds of actions -/

inductive OptionKind where
  | cullFace
  | blend
  | depthTest
  | depthWrite
  | shader
deriving DecidableEq, Repr

def RenderOption.kind : RenderOption → OptionKind
  | cullFace _ => .cullFace
  | blend _ => .blend
  | depthTest _ => .depthTest
  | depthWrite _ => .depthWrite
  | shader _ => .shader

namespace Action

def optionKind? : Action → Option OptionKind
  | cullFaceOption _ => some .cullFace
  | blendOption _ => some .blend
  | depthTestOption => some .depthTest
  | depthWriteOption => some .depthWrite
  | shaderOption => some .shader
  | _ => none

def pushed? : Action → Option Stack
  | bool _ => some .bools
  | float _ => some .floats
  | identifier _ | string _ => some .strings
  | blendFactor _ => some .factors
  | uniformFloat | uniformVec2 | uniformVec3 | uniformVec4 | uniformTexture => some .uniforms
  | _ => none

end Action

theorem pushed?_of_completesStatement {action : Action} (h : action.completesStatement = true) :
    action.pushed? = none := by
  cases action <;> first | rfl | cases h

def pushes (actions : List Action) (stack : Stack) : Nat :=
  actions.countP fun action => action.pushed? = some stack

def uses (actions : List Action) : Stack → Nat
  | .bools => actions.count .depthTestOption + actions.count .depthWriteOption
  | .floats =>
    actions.count .uniformFloat + 2 * actions.count .uniformVec2 + 3 * actions.count .uniformVec3
      + 4 * actions.count .uniformVec4
  | .strings =>
    actions.count .shaderOption + actions.count .uniformTexture + actions.count .uniform
  | .factors => 2 * actions.count (.blendOption true)
  | .uniforms => actions.count .uniform

/-! ## Values -/

variable {σ α β : Type}

open Assembly

/-- The second assembly is the first one without the topmost values of its stacks, `taken` of each.
The resolver may have changed. -/
structure Drains (taken : Stack → Nat) (a b : Assembly σ) : Prop where
  scopes : b.scopes = a.scopes
  technique : b.technique = a.technique
  pass : b.pass = a.pass
  document : b.document = a.document
  values : ∀ stack, ∃ top, top.length = taken stack ∧ a.values stack = top ++ b.values stack

def Stack.single (stack s : Stack) : Nat := if s = stack then 1 else 0

theorem Drains.refl (a : Assembly σ) : Drains (fun _ => 0) a a :=
  ⟨rfl, rfl, rfl, rfl, fun _ => ⟨[], rfl, rfl⟩⟩

theorem Drains.trans {t u : Stack → Nat} {a b c : Assembly σ} (h : Drains t a b)
    (h' : Drains u b c) : Drains (fun s => t s + u s) a c where
  scopes := h'.scopes.trans h.scopes
  technique := h'.technique.trans h.technique
  pass := h'.pass.trans h.pass
  document := h'.document.trans h.document
  values stack := by
    obtain ⟨top, htop, hvalues⟩ := h.values stack
    obtain ⟨top', htop', hvalues'⟩ := h'.values stack
    refine ⟨top ++ top', ?_, ?_⟩
    · rw [List.length_append, htop, htop']
    · rw [hvalues, hvalues', List.append_assoc]

theorem drains_setValues {a : Assembly σ} {stack : Stack} {x : stack.Value}
    {rest : List stack.Value} (h : a.values stack = x :: rest) :
    Drains stack.single a (a.setValues stack rest) := by
  refine ⟨by cases stack <;> rfl, by cases stack <;> rfl, by cases stack <;> rfl,
    by cases stack <;> rfl, fun s => ?_⟩
  by_cases hs : s = stack
  · subst hs
    refine ⟨[x], by simp [Stack.single], h.trans ?_⟩
    cases s <;> rfl
  · refine ⟨[], by simp [Stack.single, hs], ?_⟩
    cases s <;> cases stack <;> first | rfl | exact absurd rfl hs

theorem Drains.pending {t : Stack → Nat} {a b : Assembly σ} (h : Drains t a b) (stack : Stack) :
    b.pending stack + t stack = a.pending stack := by
  obtain ⟨top, htop, hvalues⟩ := h.values stack
  rw [Assembly.pending, Assembly.pending, hvalues, List.length_append, htop, Nat.add_comm]

/-! ## Sites -/

namespace Grammar.Site

/-- The open scopes at a site, the innermost one first. -/
def scopes : Site → List Scope
  | file _ => [.file]
  | technique _ _ => [.technique, .file]
  | pass _ _ _ => [.pass, .technique, .file]

def technique? : Site → Option Technique
  | file _ => none
  | technique _ t | pass _ t _ => some t

def pass? : Site → Option Pass
  | file _ | technique _ _ => none
  | pass _ _ p => some p

def document : Site → Document
  | file d | technique d _ | pass d _ _ => d

/-- The assembly at a site, with the pending values and the resolver of `a`. -/
def place (site : Site) (a : Assembly σ) : Assembly σ :=
  { a with
    scopes := site.scopes
    technique := site.technique?
    pass := site.pass?
    document := site.document }

theorem pending_place (site : Site) (a : Assembly σ) (stack : Stack) :
    (site.place a).pending stack = a.pending stack := by
  cases stack <;> rfl

end Grammar.Site

open Grammar

theorem Drains.place {taken : Stack → Nat} {site : Site} {a b : Assembly σ}
    (h : Drains taken (site.place a) b) : b = site.place b := by
  obtain ⟨hscopes, htechnique, hpass, hdocument, -⟩ := h
  rcases b with ⟨bools, floats, strings, factors, uniforms, scopes, technique, pass, document, host⟩
  dsimp only at hscopes htechnique hpass hdocument
  subst hscopes htechnique hpass hdocument
  rfl

/-! ## Ends of a step -/

/-- A step from `a` ends in `good`, or with a fault in `bad`. -/
def Ends (m : AssemblyM σ α) (a : Assembly σ) (good : α → Assembly σ → Prop)
    (bad : Fault → Assembly σ → Prop) : Prop :=
  match m.run a with
  | .ok x b => good x b
  | .error fault b => bad fault b

section Ends
variable {m : AssemblyM σ α} {k : α → AssemblyM σ β} {a b : Assembly σ}
  {mid good : α → Assembly σ → Prop} {last : β → Assembly σ → Prop}
  {bad : Fault → Assembly σ → Prop}

theorem Ends.bind (hm : Ends m a mid bad) (hk : ∀ x b, mid x b → Ends (k x) b last bad) :
    Ends (m >>= k) a last bad := by
  unfold Ends at hm ⊢
  rw [EStateM.run_bind]
  cases hrun : m.run a with
  | ok x b =>
    rw [hrun] at hm
    exact hk x b hm
  | error fault b =>
    rw [hrun] at hm
    exact hm

theorem Ends.mono {good' : α → Assembly σ → Prop} {bad' : Fault → Assembly σ → Prop}
    (h : Ends m a good bad) (hgood : ∀ x b, good x b → good' x b)
    (hbad : ∀ fault b, bad fault b → bad' fault b) : Ends m a good' bad' := by
  unfold Ends at h ⊢
  cases hrun : m.run a with
  | ok x b =>
    rw [hrun] at h
    exact hgood x b h
  | error fault b =>
    rw [hrun] at h
    exact hbad fault b h

theorem Ends.good_of_ok (h : Ends m a good bad) {x : α} (hrun : m.run a = .ok x b) : good x b := by
  unfold Ends at h
  rw [hrun] at h
  exact h

theorem Ends.bad_of_error (h : Ends m a good bad) {fault : Fault}
    (hrun : m.run a = .error fault b) : bad fault b := by
  unfold Ends at h
  rw [hrun] at h
  exact h

end Ends

/-! ## Faults -/

/-- What a fault of an action leaves behind: values are lost on the way to an empty stack or a
resource that is denied, and a scope that is opened or closed at the wrong place changes nothing. -/
inductive Fails (a : Assembly σ) : Fault → Assembly σ → Prop where
  | underflow {taken : Stack → Nat} {b : Assembly σ} (h : Drains taken a b) (stack : Stack) :
      Fails a (.underflow stack) b
  | denied {taken : Stack → Nat} {b : Assembly σ} (h : Drains taken a b) (e : ResourceError) :
      Fails a (.resource e) b
  | techniqueInside : Fails a .techniqueInside a
  | passOutside : Fails a .passOutside a
  | wrongScope (expected : Scope) (found : Option Scope) : Fails a (.wrongScope expected found) a

/-! ## Values that are taken -/

section Taking
variable {taken : Stack → Nat} {a b : Assembly σ}

theorem ends_pop (stack : Stack) (h : Drains taken a b) :
    Ends (pop stack) b (fun _ => Drains (fun s => taken s + stack.single s) a) (Fails a) := by
  unfold Ends pop
  simp only [EStateM.run_bind, EStateM.run_get]
  cases hvalues : b.values stack with
  | nil => exact .underflow h stack
  | cons x rest => exact h.trans (drains_setValues hvalues)

theorem ends_loadReference (resolver : Resolver σ) (base : String) (kind : ResourceKind)
    (reference : String) (h : Drains taken a b) :
    Ends (loadReference resolver base kind reference) b (fun _ => Drains taken a) (Fails a) := by
  have hhost : ∀ host, Drains taken a { b with host } := fun host =>
    ⟨h.scopes, h.technique, h.pass, h.document, fun s => by cases s <;> exact h.values _⟩
  unfold Ends
  simp only [loadReference, EStateM.run_bind, EStateM.run_get]
  rcases resolver.load kind (resolver.locate b.host reference base) b.host with ⟨e | handle, host⟩
  · exact .denied (hhost host) e
  · exact hhost host

end Taking

/-! ## Actions -/

/-- How an action that is performed changes the site. -/
inductive Moves : Action → Site → Site → Prop where
  /-- Values do not go to the document yet. -/
  | value {action : Action} (site : Site) (h : action.pushed?.isSome) : Moves action site site
  | option {action : Action} (site : Site) (o : RenderOption)
      (h : action.optionKind? = some o.kind) : Moves action site (site.mapLayer (·.pushOption o))
  | uniform (site : Site) (u : Uniform) : Moves .uniform site (site.mapLayer (·.pushUniform u))
  | techniqueBegin (d : Document) (name : Option String) :
      Moves (.techniqueBegin name) (.file d) (.technique d { name })
  | techniqueEnd (d : Document) (t : Technique) :
      Moves .techniqueEnd (.technique d t) (.file { d with techniques := d.techniques ++ [t] })
  | passBegin (d : Document) (t : Technique) (name : Option String) :
      Moves (.passBegin name) (.technique d t) (.pass d t { name })
  | passEnd (d : Document) (t : Technique) (p : Pass) :
      Moves .passEnd (.pass d t p) (.technique d { t with passes := t.passes ++ [p] })

/-- An action that is performed at a site takes the values that it needs, pushes its own, and moves
on to the next site. -/
structure Does (action : Action) (site : Site) (a b : Assembly σ) : Prop where
  moves : ∃ site', Moves action site site' ∧ b = site'.place b
  pending : ∀ stack,
    b.pending stack + uses [action] stack = a.pending stack + pushes [action] stack

section Acting
variable {taken : Stack → Nat} {action : Action} {site site' : Site} {a b c : Assembly σ}
  {bad : Fault → Assembly σ → Prop}

theorem Drains.does_statement (h : Drains taken (site.place a) b) (hmoves : Moves action site site')
    (htaken : ∀ s, uses [action] s = taken s ∧ pushes [action] s = 0 := by
      intro s; cases s <;> exact ⟨rfl, rfl⟩) :
    Does action site a (site'.place b) := by
  refine ⟨⟨site', hmoves, rfl⟩, fun s => ?_⟩
  have hdrained := h.pending s
  rw [site.pending_place] at hdrained
  rw [site'.pending_place, (htaken s).1, (htaken s).2, hdrained]
  rfl

/-- An assembly at a site always has a scope to receive a statement. -/
theorem ends_updateLayer (h : Drains taken (site.place a) b) (f : Layer → Layer) :
    Ends (updateLayer f) b (fun _ c => c = (site.mapLayer f).place b) bad := by
  rw [h.place]
  cases site <;> rfl

theorem ends_emitOption {o : RenderOption} (h : Drains taken (site.place a) b)
    (hkind : action.optionKind? = some o.kind)
    (htaken : ∀ s, uses [action] s = taken s ∧ pushes [action] s = 0 := by
      intro s; cases s <;> exact ⟨rfl, rfl⟩) :
    Ends (emitOption o) b (fun _ => Does action site a) bad := by
  unfold emitOption
  refine (ends_updateLayer h _).mono (fun _ c hc => ?_) fun _ _ hbad => hbad
  rw [hc]
  exact h.does_statement (.option site o hkind) htaken

theorem ends_push {stack : Stack} (h : Drains taken (site.place a) b) (value : stack.Value)
    (hpushed : action.pushed? = some stack)
    (htaken : ∀ s, uses [action] s = taken s := by intro s; cases s <;> rfl) :
    Ends (push stack value) b (fun _ => Does action site a) bad := by
  refine ⟨⟨site, .value site (by rw [hpushed]; rfl), ?_⟩, fun s => ?_⟩
  · rw [h.place]
    cases stack <;> rfl
  · have hpending : (b.setValues stack (value :: b.values stack)).pending s =
        b.pending s + pushes [action] s := by
      simp only [pushes, List.countP_singleton, hpushed]
      cases stack <;> cases s <;> rfl
    have hdrained := h.pending s
    rw [site.pending_place] at hdrained
    rw [hpending, htaken, ← hdrained, Nat.add_right_comm]

end Acting

section Steps
variable (resolver : Resolver σ) (base : String) (site : Site) (a : Assembly σ)

theorem openTechnique_ends (name : Option String) :
    Ends (openTechnique name) (site.place a) (fun _ => Does (.techniqueBegin name) site a)
      (Fails (site.place a)) := by
  have h := Drains.refl (site.place a)
  cases site with
  | file d => exact h.does_statement (.techniqueBegin d name)
  | technique d t => exact .techniqueInside
  | pass d t p => exact .techniqueInside

theorem closeTechnique_ends :
    Ends closeTechnique (site.place a) (fun _ => Does .techniqueEnd site a)
      (Fails (site.place a)) := by
  have h := Drains.refl (site.place a)
  cases site with
  | file d => exact .wrongScope .technique (some .file)
  | technique d t =>
    exact h.does_statement (.techniqueEnd d t)
  | pass d t p => exact .wrongScope .technique (some .pass)

theorem openPass_ends (name : Option String) :
    Ends (openPass name) (site.place a) (fun _ => Does (.passBegin name) site a)
      (Fails (site.place a)) := by
  have h := Drains.refl (site.place a)
  cases site with
  | file d => exact .passOutside
  | technique d t =>
    exact h.does_statement (.passBegin d t name)
  | pass d t p => exact .passOutside

theorem closePass_ends :
    Ends closePass (site.place a) (fun _ => Does .passEnd site a) (Fails (site.place a)) := by
  have h := Drains.refl (site.place a)
  cases site with
  | file d => exact .wrongScope .pass (some .file)
  | technique d t => exact .wrongScope .pass (some .technique)
  | pass d t p => exact h.does_statement (.passEnd d t p)

/-- **Every action at a site is performed or fails as it should**, without the check at the end of a
statement. -/
theorem act_ends (action : Action) :
    Ends (act resolver base action) (site.place a) (fun _ => Does action site a)
      (Fails (site.place a)) := by
  have h := Drains.refl (site.place a)
  cases action with
  | bool value => exact ends_push h _ rfl
  | float value => exact ends_push h _ rfl
  | identifier text => exact ends_push h _ rfl
  | string text => exact ends_push h _ rfl
  | blendFactor factor => exact ends_push h _ rfl
  | cullFaceOption face => exact ends_emitOption h rfl
  | blendOption enabled =>
    cases enabled with
    | false => exact ends_emitOption h rfl
    | true =>
      rw [act]
      refine (ends_pop .factors h).bind fun dst b hb => ?_
      refine (ends_pop .factors hb).bind fun src c hc => ?_
      exact ends_emitOption hc rfl
  | depthTestOption =>
    rw [act]
    refine (ends_pop .bools h).bind fun on b hb => ?_
    exact ends_emitOption hb rfl
  | depthWriteOption =>
    rw [act]
    refine (ends_pop .bools h).bind fun on b hb => ?_
    exact ends_emitOption hb rfl
  | shaderOption =>
    rw [act]
    refine (ends_pop .strings h).bind fun reference b hb => ?_
    refine (ends_loadReference resolver base .shader reference hb).bind fun shader c hc => ?_
    exact ends_emitOption hc rfl
  | uniformFloat =>
    rw [act]
    refine (ends_pop .floats h).bind fun x b hb => ?_
    exact ends_push hb _ rfl
  | uniformVec2 =>
    rw [act]
    refine (ends_pop .floats h).bind fun y b hb => ?_
    refine (ends_pop .floats hb).bind fun x c hc => ?_
    exact ends_push hc _ rfl
  | uniformVec3 =>
    rw [act]
    refine (ends_pop .floats h).bind fun z b hb => ?_
    refine (ends_pop .floats hb).bind fun y c hc => ?_
    refine (ends_pop .floats hc).bind fun x d hd => ?_
    exact ends_push hd _ rfl
  | uniformVec4 =>
    rw [act]
    refine (ends_pop .floats h).bind fun w b hb => ?_
    refine (ends_pop .floats hb).bind fun z c hc => ?_
    refine (ends_pop .floats hc).bind fun y d hd => ?_
    refine (ends_pop .floats hd).bind fun x e he => ?_
    exact ends_push he _ rfl
  | uniformTexture =>
    rw [act]
    refine (ends_pop .strings h).bind fun reference b hb => ?_
    refine (ends_loadReference resolver base .texture reference hb).bind fun texture c hc => ?_
    exact ends_push hc _ rfl
  | uniform =>
    rw [act]
    refine (ends_pop .uniforms h).bind fun value b hb => ?_
    refine (ends_pop .strings hb).bind fun name c hc => ?_
    refine (ends_updateLayer hc _).mono (fun _ d hd => ?_) fun _ _ hbad => hbad
    rw [hd]
    exact hc.does_statement (.uniform site ⟨name, value⟩)
  | techniqueBegin name => exact openTechnique_ends site a name
  | techniqueEnd => exact closeTechnique_ends site a
  | passBegin name => exact openPass_ends site a name
  | passEnd => exact closePass_ends site a

/-- **Every action at a site.** A statement that leaves values behind is performed and then
fails. -/
theorem perform_ends (action : Action) :
    Ends (perform resolver base action) (site.place a) (fun _ => Does action site a)
      (fun fault b => Fails (site.place a) fault b ∨
        Does action site a b ∧ ∃ stack, b.leftover? = some stack ∧
          fault = .unconsumed stack (b.pending stack)) := by
  unfold perform
  have hact := act_ends resolver base site a action
  refine (hact.mono (fun _ _ hb => hb) fun _ _ hb => .inl hb).bind fun _ b hb => ?_
  split
  · unfold Ends checkConsumed
    simp only [EStateM.run_bind, EStateM.run_get]
    cases hleft : b.leftover? with
    | none => exact hb
    | some stack => exact .inr ⟨hb, stack, hleft, rfl⟩
  · exact hb

end Steps

end MaterialScript
