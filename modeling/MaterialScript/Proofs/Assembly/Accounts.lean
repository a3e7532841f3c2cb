import MaterialScript.Proofs.Assembly.Steps

/-!
# A document accounts for its actions

A document that is assembled from actions, in whatever order they come, holds what they say and
nothing else. What is open counts as if it were closed, so the account is kept by every action.

* `Document.passes`, `Document.options`, `Document.uniforms` : what a document holds on all levels;
* `Site.whole` : the document of a site with the open scopes closed; `Site.countP_mapLayer` : a
  statement counts once, at whatever site;
* `Accounts` : what actions add between two sites; `Moves.accounts` : one action;
  `fireAll_accounts` : any sequence of them;
* `document_accounts_for_actions` : the document at the end.
-/

namespace MaterialScript

/-! ## Contents of a document -/

def Action.techniqueName? : Action → Option (Option String)
  | techniqueBegin name => some name
  | _ => none

def Action.passName? : Action → Option (Option String)
  | passBegin name => some name
  | _ => none

namespace Document

def passes (d : Document) : List Pass := d.techniques.flatMap (·.passes)

def layers (d : Document) : List Layer :=
  d.layer :: d.techniques.flatMap fun t => t.layer :: t.passes.map (·.layer)

def options (d : Document) : List RenderOption := d.layers.flatMap (·.options)

def uniforms (d : Document) : List Uniform := d.layers.flatMap (·.uniforms)

end Document

/-! ## Contents of a site -/

namespace Grammar.Site

/-- The document of a site, with the open scopes closed. -/
def whole : Site → Document
  | file d => d
  | technique d t => { d with techniques := d.techniques ++ [t] }
  | pass d t p => { d with techniques := d.techniques ++ [{ t with passes := t.passes ++ [p] }] }

def closedPasses (site : Site) : Nat :=
  ((site.document.techniques ++ site.technique?.toList).flatMap (·.passes)).length

theorem closedPasses_file (d : Document) : (file d).closedPasses = d.passes.length := by
  simp [closedPasses, document, technique?, Document.passes]

variable (site : Site) (f : Layer → Layer)

theorem techniques_mapLayer :
    (site.mapLayer f).whole.techniques.map (·.name) = site.whole.techniques.map (·.name) := by
  cases site <;> simp [mapLayer, whole]

theorem passes_mapLayer :
    (site.mapLayer f).whole.passes.map (·.name) = site.whole.passes.map (·.name) := by
  cases site <;> simp [mapLayer, whole, Document.passes]

theorem closed_mapLayer :
    (site.mapLayer f).document.techniques.length = site.document.techniques.length ∧
      (site.mapLayer f).closedPasses = site.closedPasses := by
  cases site <;> simp [mapLayer, closedPasses, document, technique?]

theorem countP_mapLayer {α : Type} {items : Layer → List α} {p : α → Bool} {n : Nat}
    (h : ∀ l, (items (f l)).countP p = (items l).countP p + n) :
    ((site.mapLayer f).whole.layers.flatMap items).countP p =
      (site.whole.layers.flatMap items).countP p + n := by
  cases site <;>
    simp only [mapLayer, whole, Document.layers, List.flatMap_cons, List.flatMap_append,
      List.map_append, List.map_cons, List.countP_append, h] <;> omega

end Grammar.Site

open Grammar Assembly

/-! ## Accounts -/

/-- What actions add to a document between two sites. -/
structure Accounts (actions : List Action) (site site' : Site) : Prop where
  techniques : site'.whole.techniques.map (·.name) =
    site.whole.techniques.map (·.name) ++ actions.filterMap Action.techniqueName?
  techniqueEnds : site'.document.techniques.length =
    site.document.techniques.length + actions.count .techniqueEnd
  passes : site'.whole.passes.map (·.name) =
    site.whole.passes.map (·.name) ++ actions.filterMap Action.passName?
  passEnds : site'.closedPasses = site.closedPasses + actions.count .passEnd
  options : ∀ kind, site'.whole.options.countP (·.kind = kind) =
    site.whole.options.countP (·.kind = kind) + actions.countP (·.optionKind? = some kind)
  uniforms : site'.whole.uniforms.length = site.whole.uniforms.length + actions.count .uniform

theorem Accounts.refl (site : Site) : Accounts [] site site := by
  constructor <;> simp

theorem Accounts.trans {xs ys : List Action} {site site' site'' : Site}
    (h : Accounts xs site site') (h' : Accounts ys site' site'') :
    Accounts (xs ++ ys) site site'' where
  techniques := by
    rw [h'.techniques, h.techniques, List.filterMap_append, List.append_assoc]
  techniqueEnds := by
    rw [h'.techniqueEnds, h.techniqueEnds, List.count_append, Nat.add_assoc]
  passes := by
    rw [h'.passes, h.passes, List.filterMap_append, List.append_assoc]
  passEnds := by
    rw [h'.passEnds, h.passEnds, List.count_append, Nat.add_assoc]
  options kind := by
    rw [h'.options, h.options, List.countP_append, Nat.add_assoc]
  uniforms := by
    rw [h'.uniforms, h.uniforms, List.count_append, Nat.add_assoc]

def Action.isScope : Action → Bool
  | techniqueBegin _ | techniqueEnd | passBegin _ | passEnd => true
  | _ => false

theorem accounts_mapLayer {action : Action} {f : Layer → Layer} (site : Site)
    (hscope : action.isScope = false)
    (hoptions : ∀ kind l, (f l).options.countP (·.kind = kind) =
      l.options.countP (·.kind = kind) + [action].countP (·.optionKind? = some kind))
    (huniforms : ∀ l, (f l).uniforms.length = l.uniforms.length + [action].count .uniform) :
    Accounts [action] site (site.mapLayer f) := by
  obtain ⟨htechnique, hpass, htechniqueEnd, hpassEnd⟩ : action.techniqueName? = none ∧
      action.passName? = none ∧ action ≠ .techniqueEnd ∧ action ≠ .passEnd := by
    cases action <;> simp_all [Action.isScope, Action.techniqueName?, Action.passName?]
  constructor
  · rw [site.techniques_mapLayer]
    simp [htechnique]
  · rw [(site.closed_mapLayer f).1]
    simp [htechniqueEnd]
  · rw [site.passes_mapLayer]
    simp [hpass]
  · rw [(site.closed_mapLayer f).2]
    simp [hpassEnd]
  · intro kind
    exact site.countP_mapLayer f (hoptions kind)
  · rw [← List.countP_true]
    refine site.countP_mapLayer f fun l => ?_
    rw [List.countP_true]
    exact huniforms l

/-- **One action**, wherever it is performed. -/
theorem Moves.accounts {action : Action} {site site' : Site} (h : Moves action site site') :
    Accounts [action] site site' := by
  cases h with
  | value site h =>
    have hid : site.mapLayer id = site := by cases site <;> rfl
    have hvalue : action.isScope = false ∧ action.optionKind? = none ∧ action ≠ .uniform := by
      cases action <;> simp_all [Action.pushed?, Action.isScope, Action.optionKind?]
    obtain ⟨hscope, hkind, huniform⟩ := hvalue
    have haccounts : Accounts [action] site (site.mapLayer id) :=
      accounts_mapLayer site hscope (by simp [hkind]) (by simp [huniform])
    rwa [hid] at haccounts
  | option site o h =>
    have hoption : action.isScope = false ∧ action ≠ .uniform := by
      cases action <;> simp_all [Action.isScope, Action.optionKind?]
    refine accounts_mapLayer site hoption.1 (fun kind l => ?_) fun l => ?_
    · simp [Layer.pushOption, h]
    · simp [Layer.pushOption, hoption.2]
  | uniform site u =>
    refine accounts_mapLayer site rfl (fun kind l => ?_) fun l => ?_
    · simp [Layer.pushUniform, Action.optionKind?]
    · simp [Layer.pushUniform]
  | techniqueBegin | techniqueEnd | passBegin | passEnd =>
    constructor <;> simp [Site.whole, Site.document, Site.closedPasses, Site.technique?,
      Document.passes, Document.options, Document.uniforms, Document.layers, Action.techniqueName?,
      Action.passName?, Action.optionKind?, Nat.add_assoc]

/-! ## Runs -/

section Runs
variable {σ : Type} (resolver : Resolver σ) (base : String)

theorem pushes_append (xs ys : List Action) (stack : Stack) :
    pushes (xs ++ ys) stack = pushes xs stack + pushes ys stack :=
  List.countP_append

theorem uses_append (xs ys : List Action) (stack : Stack) :
    uses (xs ++ ys) stack = uses xs stack + uses ys stack := by
  cases stack <;> simp only [uses, List.count_append] <;> omega

/-- **Any sequence of actions** that is performed without a fault. -/
theorem fireAll_accounts (fs : List Firing) (site : Site) {a b : Assembly σ}
    (h : (fireAll resolver base fs).run (site.place a) = .ok () b) :
    (∃ site', Accounts (fs.map (·.action)) site site' ∧ b = site'.place b) ∧
      ∀ stack, b.pending stack + uses (fs.map (·.action)) stack =
        a.pending stack + pushes (fs.map (·.action)) stack := by
  induction fs generalizing site a with
  | nil =>
    cases h
    refine ⟨⟨site, .refl site, rfl⟩, fun stack => ?_⟩
    rw [site.pending_place]
    cases stack <;> rfl
  | cons f fs ih =>
    rw [run_fireAll_cons] at h
    split at h
    · next c hrun =>
      obtain ⟨⟨site', hmoves, hplace⟩, hpending⟩ :=
        (perform_ends resolver base site a f.action).good_of_ok hrun
      rw [hplace] at h
      obtain ⟨⟨site'', haccounts, hplace'⟩, hpending'⟩ := ih site' h
      rw [List.map_cons, ← List.singleton_append]
      refine ⟨⟨site'', hmoves.accounts.trans haccounts, hplace'⟩, fun stack => ?_⟩
      have hfirst := hpending stack
      have hrest := hpending' stack
      rw [uses_append, pushes_append]
      omega
    · cases h

theorem site_of_close {site : Site} {a : Assembly σ} {d : Document} (hplace : a = site.place a)
    (h : a.close = .ok d) : site = .file d ∧ ∀ stack, a.pending stack = 0 := by
  unfold close at h
  split at h
  · cases h
  · next hopen =>
    have hscopes : a.scopes = [.file] := Decidable.of_not_not (not_or.1 hopen).1
    split at h
    · cases h
    · next hleft =>
      cases h
      refine ⟨?_, fun stack => ?_⟩
      · rw [hplace] at hscopes ⊢
        cases site with
        | file => rfl
        | technique | pass => cases hscopes
      · have hnone := List.find?_eq_none.1 hleft stack (by cases stack <;> simp)
        simpa using hnone

/-- **A document accounts for its actions.** When a sequence of firings is performed and the
document is finished, its techniques and its passes are those that have been opened, in order, and
as many have been closed; it has one option for each action that completes one of that kind, and one
uniform for each that completes one; and as many values have been pushed on a stack as were
needed. -/
theorem document_accounts_for_actions (host : σ) (fs : List Firing) {a : Assembly σ}
    {d : Document} (hrun : (fireAll resolver base fs).run (Assembly.start host) = .ok () a)
    (hclose : a.close = .ok d) :
    let actions := fs.map (·.action)
    d.techniques.map (·.name) = actions.filterMap Action.techniqueName? ∧
    d.techniques.length = actions.count .techniqueEnd ∧
    d.passes.map (·.name) = actions.filterMap Action.passName? ∧
    d.passes.length = actions.count .passEnd ∧
    (∀ kind, d.options.countP (·.kind = kind) = actions.countP (·.optionKind? = some kind)) ∧
    d.uniforms.length = actions.count .uniform ∧
    ∀ stack, pushes actions stack = uses actions stack := by
  intro actions
  obtain ⟨⟨site, haccounts, hplace⟩, hbalance⟩ :=
    fireAll_accounts resolver base fs (.file {}) (a := Assembly.start host) hrun
  obtain ⟨rfl, hpending⟩ := site_of_close hplace hclose
  refine ⟨haccounts.techniques, ?_, haccounts.passes, ?_, fun kind => ?_, ?_, fun stack => ?_⟩
  · exact haccounts.techniqueEnds.trans (Nat.zero_add _)
  · rw [← Site.closedPasses_file]
    exact haccounts.passEnds.trans (Nat.zero_add _)
  · exact (haccounts.options kind).trans (Nat.zero_add _)
  · exact haccounts.uniforms.trans (Nat.zero_add _)
  · have hempty : (Assembly.start host).pending stack = 0 := by cases stack <;> rfl
    have hstack := hbalance stack
    rw [hpending, hempty, Nat.zero_add, Nat.zero_add] at hstack
    exact hstack.symm

end Runs

/-- A number is pushed before the technique of its uniform is opened, its value is made before the
pass is opened and the name is known, and an option follows after the technique. -/
theorem document_accounts_for_early_values :
    let counting : Resolver Nat := { load := fun _ _ n => (.ok ⟨n⟩, n + 1) }
    let actions : List Action :=
      [.float ⟨0⟩, .techniqueBegin (some "t"), .uniformFloat, .passBegin none, .identifier "x",
        .uniform, .string "a.glsl", .shaderOption, .passEnd, .bool true, .techniqueEnd,
        .depthTestOption]
    let fs : List Firing := actions.map fun action => ⟨action, 0, 0⟩
    let d : Document :=
      { layer := ⟨[.depthTest true], []⟩
        techniques := [{
          name := some "t"
          passes := [⟨none, ⟨[.shader ⟨"a.glsl", ⟨0⟩⟩], [⟨"x", .float ⟨0⟩⟩]⟩⟩] }] }
    ∃ a, (fireAll counting "x.mat" fs).run (Assembly.start 0) = .ok () a ∧ a.close = .ok d ∧
      d.techniques.map (·.name) = actions.filterMap Action.techniqueName? ∧
      d.passes.length = actions.count .passEnd ∧
      d.options.countP (·.kind = .shader) = actions.countP (·.optionKind? = some .shader) ∧
      pushes actions .strings = uses actions .strings := by
  intro counting actions fs d
  have hdocument : (match (fireAll counting "x.mat" fs).run (Assembly.start 0) with
      | .ok _ a => a.close.toOption
      | .error _ _ => none) = some d := by decide +kernel
  split at hdocument
  · next a hrun =>
    have hclose : a.close = .ok d := by
      cases ha : a.close <;> rw [ha] at hdocument <;> cases hdocument
      rfl
    obtain ⟨htechniques, -, -, hpassEnds, hoptions, -, hbalance⟩ :=
      document_accounts_for_actions counting "x.mat" 0 fs hrun hclose
    exact ⟨a, hrun, hclose, htechniques, hpassEnds, hoptions .shader, hbalance .strings⟩
  · cases hdocument

end MaterialScript
