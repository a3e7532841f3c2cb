import MaterialScript.Proofs.Derivation.Parse
import MaterialScript.Proofs.Translation.Meaning
import MaterialScript.Compiler

/-!
# Assembly follows the meaning of the tree

The firings of a tree, performed on the stacks and scopes of an assembly, do what the translation of
the tree says. Between statements an assembly is at a `Site`: all stacks are empty, and the open
scopes are those of the document, a technique and a pass that are being built.

* `Site` : the states between statements; `Site.assembly` : as assemblies;
* `Follows run meaning done` : a run ends in `done` of what the translation gives, or with the
  resource that the translation is denied; `Follows.seq` : one run after the other;
* `OptionTree.follows`, `UniformTree.follows` : the statements, at every site;
* `Level` : a level of scopes; `Level.body_follows` : the items of a scope at any level;
  `PassTree.follows`, `TechniqueTree.follows`, `DocumentTree.follows` : scopes;
* `assemble_eq_outcome` : the result of a compilation is that of the translation.
-/

namespace MaterialScript.Grammar
open Assembly

variable {σ : Type}

/-! ## Sites -/

/-- Where the next statement goes to: what has been built of the scopes that are open. -/
inductive Site where
  | file (d : Document)
  | technique (d : Document) (t : Technique)
  | pass (d : Document) (t : Technique) (p : Pass)

def Site.assembly (host : σ) : Site → Assembly σ
  | file d => { document := d, host }
  | technique d t => { scopes := [.technique, .file], technique := some t, document := d, host }
  | pass d t p =>
    { scopes := [.pass, .technique, .file], technique := some t, pass := some p, document := d,
      host }

def Site.mapLayer (f : Layer → Layer) : Site → Site
  | file d => file { d with layer := f d.layer }
  | technique d t => technique d { t with layer := f t.layer }
  | pass d t p => pass d t { p with layer := f p.layer }

/-! ## Runs -/

section Following
variable {α β : Type} {resolver : Resolver σ} {base : String}

theorem run_fireAll_cons (f : Firing) (fs : List Firing) (a : Assembly σ) :
    (fireAll resolver base (f :: fs)).run a =
      match (perform resolver base f.action).run a with
      | .ok _ a' => (fireAll resolver base fs).run a'
      | .error fault a' => .error ⟨f, fault⟩ a' := by
  rw [fireAll, EStateM.run_bind, fire, EStateM.run_adaptExcept]
  cases (perform resolver base f.action).run a <;> rfl

theorem fireAll_append (xs ys : List Firing) :
    fireAll resolver base (xs ++ ys) =
      (do fireAll resolver base xs; fireAll resolver base ys) := by
  induction xs with
  | nil => simp [fireAll]
  | cons x xs ih => simp [fireAll, ih]

/-- A run of an assembly follows a translation: it ends in `done` of what the translation gives, or
it ends with the resource that the translation is denied. The state of the resolver is the same. -/
def Follows (run : EStateM.Result Misfire (Assembly σ) Unit) (meaning : EStateM.Result Denial σ α)
    (done : α → σ → Assembly σ) : Prop :=
  match meaning with
  | .ok x host => run = .ok () (done x host)
  | .error denial host => ∃ misfire a, run = .error misfire a ∧
      misfire.fault = .resource denial.error ∧ misfire.firing.span = denial.span ∧ a.host = host

theorem Follows.seq {xs ys : List Firing} {a : Assembly σ} {host : σ} {m : TranslateM σ α}
    {k : α → TranslateM σ β} {done : α → σ → Assembly σ} {done' : β → σ → Assembly σ}
    (hm : Follows ((fireAll resolver base xs).run a) (m.run host) done)
    (hk : ∀ x h, Follows ((fireAll resolver base ys).run (done x h)) ((k x).run h) done') :
    Follows ((fireAll resolver base (xs ++ ys)).run a) ((m >>= k).run host) done' := by
  rw [fireAll_append, EStateM.run_bind, EStateM.run_bind]
  cases hmeaning : m.run host with
  | ok x h =>
    rw [hmeaning] at hm
    rw [show (fireAll resolver base xs).run a = .ok () (done x h) from hm]
    exact hk x h
  | error denial h =>
    rw [hmeaning] at hm
    obtain ⟨misfire, a', hrun, hrest⟩ := hm
    rw [hrun]
    exact ⟨misfire, a', rfl, hrest⟩

theorem Follows.map {run : EStateM.Result Misfire (Assembly σ) Unit} {host : σ}
    {m : TranslateM σ α} (f : α → β) {done : β → σ → Assembly σ}
    (hm : Follows run (m.run host) (fun x h => done (f x) h)) :
    Follows run ((f <$> m).run host) done := by
  rw [← bind_pure_comp, EStateM.run_bind]
  cases hmeaning : m.run host with
  | ok x h => rw [hmeaning] at hm; exact hm
  | error denial h => rw [hmeaning] at hm; exact hm

end Following

/-! ## Statements -/

section Statements
variable (resolver : Resolver σ) (base : String)

/-- Loading does what fetching says, whatever else has been assembled. -/
theorem run_loadReference (kind : ResourceKind) (literal : Located String) (a : Assembly σ) :
    (loadReference resolver base kind literal.value).run a =
      match (fetch resolver base kind literal).run a.host with
      | .ok reference host => .ok reference { a with host }
      | .error denial host => .error (.resource denial.error) { a with host } := by
  simp only [loadReference, EStateM.run_bind, EStateM.run_get]
  cases hload : resolver.load kind (resolver.locate a.host literal.value base) a.host with
  | mk answer host =>
    cases answer <;> simp [fetch, EStateM.run, hload] <;> rfl

theorem span_of_fetch {kind : ResourceKind} {literal : Located String} {host host' : σ}
    {denial : Denial} (h : (fetch resolver base kind literal).run host = .error denial host') :
    denial.span = literal.span := by
  simp only [fetch, EStateM.run] at h
  split at h
  · cases h
  · cases h
    rfl

theorem Site.host_assembly (site : Site) (host : σ) : (site.assembly host).host = host := by
  cases site <;> rfl

/-- A literal is taken off the stack and loaded, whatever the resource is used for. -/
theorem run_pop_load (kind : ResourceKind) (literal : Located String) {rest : List String}
    {a : Assembly σ} (h : a.strings = literal.value :: rest)
    (use : Reference kind → AssemblyM σ Unit) :
    (do let reference ← popString; let x ← loadReference resolver base kind reference; use x).run a =
      match (fetch resolver base kind literal).run a.host with
      | .ok x host => (use x).run { a with strings := rest, host }
      | .error denial host => .error (.resource denial.error) { a with strings := rest, host } := by
  have hpop : popString.run a = .ok literal.value { a with strings := rest } := by
    rcases a with ⟨_, _, strings, _, _, _, _, _, _, _⟩
    obtain rfl : strings = literal.value :: rest := h
    rfl
  rw [EStateM.run_bind, hpop]
  dsimp only
  rw [EStateM.run_bind, run_loadReference]
  cases (fetch resolver base kind literal).run a.host <;> rfl

theorem run_shaderOption (path : Located String) (site : Site) (host : σ) :
    (perform resolver base .shaderOption).run
        { site.assembly host with strings := [path.value] } =
      match (fetch resolver base .shader path).run host with
      | .ok shader h => .ok () ((site.mapLayer (·.pushOption (.shader shader))).assembly h)
      | .error denial h => .error (.resource denial.error) (site.assembly h) := by
  rw [perform, act, EStateM.run_bind, run_pop_load resolver base .shader path rfl]
  dsimp only
  rw [site.host_assembly]
  cases (fetch resolver base .shader path).run host <;> cases site <;> rfl

theorem OptionTree.follows (o : OptionTree) (site : Site) (host : σ) :
    Follows ((fireAll resolver base o.firings).run (site.assembly host))
      ((o.translate resolver base).run host)
      (fun x h => (site.mapLayer (·.pushOption x)).assembly h) := by
  cases o with
  | cullFace head face => cases site <;> rfl
  | blend head value => cases value <;> cases site <;> rfl
  | depthTest head on => cases site <;> rfl
  | depthWrite head on => cases site <;> rfl
  | shader head path =>
    have hpush : (perform resolver base (.string path.value)).run (site.assembly host) =
        .ok () { site.assembly host with strings := [path.value] } := by
      cases site <;> rfl
    rw [OptionTree.firings, OptionTree.translate, run_fireAll_cons, Located.firing, hpush,
      EStateM.run_bind]
    dsimp only
    rw [run_fireAll_cons, run_shaderOption]
    cases hfetch : (fetch resolver base .shader path).run host with
    | ok shader h => rfl
    | error denial h =>
      exact ⟨_, _, rfl, rfl, (span_of_fetch resolver base hfetch).symm, site.host_assembly h⟩

/-- The assembly inside of a uniform: its name and its value are pending. -/
def Site.pending (site : Site) (name : String) (value : UniformValue) (host : σ) : Assembly σ :=
  { site.assembly host with strings := [name], uniforms := [value] }

theorem run_uniformTexture (name : String) (path : Located String) (site : Site) (host : σ) :
    (perform resolver base .uniformTexture).run
        { site.assembly host with strings := [path.value, name] } =
      match (fetch resolver base .texture path).run host with
      | .ok texture h => .ok () (site.pending name (.texture texture) h)
      | .error denial h =>
        .error (.resource denial.error) { site.assembly h with strings := [name] } := by
  rw [perform, act, EStateM.run_bind, run_pop_load resolver base .texture path rfl]
  dsimp only
  rw [site.host_assembly]
  cases (fetch resolver base .texture path).run host <;> cases site <;> rfl

theorem ValueTree.follows (v : ValueTree) (name : String) (site : Site) (host : σ) :
    Follows ((fireAll resolver base v.firings).run { site.assembly host with strings := [name] })
      ((v.translate resolver base).run host) (site.pending name) := by
  cases v with
  | scalar x => cases site <;> rfl
  | vec2 left x comma y right => cases site <;> rfl
  | vec3 left x comma y comma' z right => cases site <;> rfl
  | vec4 left x comma y comma' z comma'' w right => cases site <;> rfl
  | texture path =>
    have hpush : (perform resolver base (.string path.value)).run
        { site.assembly host with strings := [name] } =
        .ok () { site.assembly host with strings := [path.value, name] } := rfl
    rw [ValueTree.firings, ValueTree.translate, run_fireAll_cons, Located.firing, hpush,
      EStateM.run_bind]
    dsimp only
    rw [run_fireAll_cons, run_uniformTexture]
    cases hfetch : (fetch resolver base .texture path).run host with
    | ok texture h => rfl
    | error denial h =>
      exact ⟨_, _, rfl, rfl, (span_of_fetch resolver base hfetch).symm, site.host_assembly h⟩

theorem UniformTree.follows (u : UniformTree) (site : Site) (host : σ) :
    Follows ((fireAll resolver base u.firings).run (site.assembly host))
      ((u.translate resolver base).run host)
      (fun x h => (site.mapLayer (·.pushUniform x)).assembly h) := by
  have hname : (perform resolver base (.identifier u.name.value)).run (site.assembly host) =
      .ok () { site.assembly host with strings := [u.name.value] } := by
    cases site <;> rfl
  rw [UniformTree.firings, List.cons_append, run_fireAll_cons, Located.firing, hname]
  exact (u.value.follows resolver base u.name.value site host).seq fun v h => by
    cases site <;> rfl

end Statements

/-! ## Scopes -/

section Bodies
variable {N M : Type}

/-- The statements of one layer after those of another. -/
def appendLayer (l l' : Layer) : Layer :=
  { options := l.options ++ l'.options, uniforms := l.uniforms ++ l'.uniforms }

/-- The layer of a scope after one more node. -/
def addNode (l : Layer) : Node M → Layer
  | .option o => l.pushOption o
  | .uniform u => l.pushUniform u
  | .nested _ => l

theorem appendLayer_layerOf_nil (l : Layer) : appendLayer l (layerOf ([] : List (Node M))) = l := by
  simp [appendLayer, layerOf]

theorem appendLayer_layerOf_cons (l : Layer) (node : Node M) (nodes : List (Node M)) :
    appendLayer l (layerOf (node :: nodes)) = appendLayer (addNode l node) (layerOf nodes) := by
  cases node <;> simp [appendLayer, layerOf, addNode, Layer.pushOption, Layer.pushUniform,
    List.filterMap_cons, Node.option?, Node.uniform?]

theorem appendLayer_empty (l : Layer) : appendLayer {} l = l := by
  simp [appendLayer]

theorem nestedOf_cons (node : Node M) (nodes : List (Node M)) :
    nestedOf (node :: nodes) = node.nested?.toList ++ nestedOf nodes := by
  cases node <;> simp [nestedOf, List.filterMap_cons, Node.nested?]

/-- A level of scopes: `put` gives the site of a scope of this level from its layer and the scopes
nested in it, and performing a nested scope puts it behind those before. -/
structure Level (resolver : Resolver σ) (base : String) (inner : N → TranslateM σ M)
    (innerFirings : N → List Firing) where
  put : Layer → List M → Site
  mapLayer_put : ∀ f l ms, (put l ms).mapLayer f = put (f l) ms
  nested_follows : ∀ n l ms host, Follows
    ((fireAll resolver base (innerFirings n)).run ((put l ms).assembly host))
    ((inner n).run host) (fun m h => (put l (ms ++ [m])).assembly h)

variable {resolver : Resolver σ} {base : String} {inner : N → TranslateM σ M}
  {innerFirings : N → List Firing} (level : Level resolver base inner innerFirings)

/-- An item of a scope. A statement goes to the end of the layer, a nested scope behind those
before. -/
theorem Item.follows (item : Item N) (l : Layer) (ms : List M) (host : σ) :
    Follows
      ((fireAll resolver base (item.firings innerFirings)).run ((level.put l ms).assembly host))
      ((item.translate resolver base inner).run host)
      (fun node h => (level.put (addNode l node) (ms ++ node.nested?.toList)).assembly h) := by
  cases item with
  | option o =>
    refine Follows.map Node.option ?_
    simpa [level.mapLayer_put, addNode, Node.nested?, Item.firings] using
      o.follows resolver base (level.put l ms) host
  | uniform u =>
    refine Follows.map Node.uniform ?_
    simpa [level.mapLayer_put, addNode, Node.nested?, Item.firings] using
      u.follows resolver base (level.put l ms) host
  | nested n => exact Follows.map Node.nested (level.nested_follows n l ms host)

/-- **The items of a scope**, at any level. -/
theorem Level.body_follows (items : List (Item N)) (l : Layer) (ms : List M) (host : σ) :
    Follows
      ((fireAll resolver base (items.flatMap (Item.firings innerFirings))).run
        ((level.put l ms).assembly host))
      ((items.mapM (Item.translate resolver base inner)).run host)
      (fun nodes h =>
        (level.put (appendLayer l (layerOf nodes)) (ms ++ nestedOf nodes)).assembly h) := by
  induction items generalizing l ms host with
  | nil =>
    rw [List.mapM_nil, EStateM.run_pure]
    simp [Follows, fireAll, appendLayer_layerOf_nil, nestedOf]
  | cons item items ih =>
    rw [List.flatMap_cons, List.mapM_cons]
    refine (item.follows level l ms host).seq fun node h => ?_
    rw [bind_pure_comp]
    refine Follows.map (node :: ·) ?_
    simpa only [appendLayer_layerOf_cons, nestedOf_cons, List.append_assoc] using
      ih (addNode l node) (ms ++ node.nested?.toList) h

theorem Level.body_follows_empty (items : List (Item N)) (host : σ) :
    Follows
      ((fireAll resolver base (items.flatMap (Item.firings innerFirings))).run
        ((level.put {} []).assembly host))
      ((items.mapM (Item.translate resolver base inner)).run host)
      (fun nodes h => (level.put (layerOf nodes) (nestedOf nodes)).assembly h) := by
  simpa only [appendLayer_empty, List.nil_append] using level.body_follows items {} [] host

end Bodies

/-! ## Levels -/

section Levels
variable (resolver : Resolver σ) (base : String)

def passLevel (d : Document) (t : Technique) (name : Option String) :
    Level resolver base (M := Empty) Empty.elim Empty.elim where
  put l _ := .pass d t ⟨name, l⟩
  mapLayer_put _ _ _ := rfl
  nested_follows n := n.elim

theorem PassTree.follows (p : PassTree) (d : Document) (t : Technique) (host : σ) :
    Follows ((fireAll resolver base p.firings).run ((Site.technique d t).assembly host))
      ((p.translate resolver base).run host)
      (fun x h => (Site.technique d { t with passes := t.passes ++ [x] }).assembly h) := by
  let level := passLevel resolver base d t (p.name.map Located.value)
  have hopen : (perform resolver base (.passBegin (p.name.map Located.value))).run
      ((Site.technique d t).assembly host) = .ok () ((level.put {} []).assembly host) := rfl
  rw [PassTree.firings, ScopeTree.firings, List.cons_append, run_fireAll_cons, hopen]
  exact (level.body_follows_empty p.body host).seq fun nodes h => rfl

def techniqueLevel (d : Document) (name : Option String) :
    Level resolver base (PassTree.translate resolver base) PassTree.firings where
  put l ps := .technique d ⟨name, l, ps⟩
  mapLayer_put _ _ _ := rfl
  nested_follows p l ps host := p.follows resolver base d ⟨name, l, ps⟩ host

theorem TechniqueTree.follows (t : TechniqueTree) (l : Layer) (ts : List Technique) (host : σ) :
    Follows ((fireAll resolver base t.firings).run ((Site.file ⟨l, ts⟩).assembly host))
      ((t.translate resolver base).run host)
      (fun x h => (Site.file ⟨l, ts ++ [x]⟩).assembly h) := by
  let level := techniqueLevel resolver base ⟨l, ts⟩ (t.name.map Located.value)
  have hopen : (perform resolver base (.techniqueBegin (t.name.map Located.value))).run
      ((Site.file ⟨l, ts⟩).assembly host) = .ok () ((level.put {} []).assembly host) := rfl
  rw [TechniqueTree.firings, ScopeTree.firings, List.cons_append, run_fireAll_cons, hopen]
  exact (level.body_follows_empty t.body host).seq fun nodes h => rfl

def fileLevel : Level resolver base (TechniqueTree.translate resolver base) TechniqueTree.firings where
  put l ts := .file ⟨l, ts⟩
  mapLayer_put _ _ _ := rfl
  nested_follows t l ts host := t.follows resolver base l ts host

/-- **Whole documents.** The firings of a tree assemble what the tree stands for. -/
theorem DocumentTree.follows (d : DocumentTree) (host : σ) :
    Follows ((fireAll resolver base d.firings).run (Assembly.start host))
      ((d.translate resolver base).run host) (fun doc h => (Site.file doc).assembly h) := by
  rw [DocumentTree.translate, bind_pure_comp]
  exact Follows.map _ ((fileLevel resolver base).body_follows_empty d.items host)

theorem close_file (doc : Document) (host : σ) :
    ((Site.file doc).assembly host).close = .ok doc := rfl

theorem assemble_eq_outcome (d : DocumentTree) (path : String) (text : List Char)
    (ls : List Lexeme) (host : σ) :
    assemble resolver path ⟨text, ls, d.firings⟩ host =
      outcome path text ((d.translate resolver path).run host) := by
  have hfollows := d.follows resolver path host
  rw [assemble]
  cases hmeaning : (d.translate resolver path).run host with
  | ok doc h =>
    rw [hmeaning] at hfollows
    have hrun : (fireAll resolver path d.firings).run (Assembly.start host) =
      .ok () ((Site.file doc).assembly h) := hfollows
    simp only [hrun, close_file]
    rfl
  | error denial h =>
    rw [hmeaning] at hfollows
    obtain ⟨misfire, a, hrun, hfault, hspan, rfl⟩ := hfollows
    simp only [hrun, outcome, Misfire.diagnostic, Denial.diagnostic, hfault, hspan]
    rfl

end Levels

/-- **Replaying the firings of an accepted list of lexemes gives what the one derivation tree of the
lexemes stands for**: the same document or the same denial, and the same state of the resolver. -/
theorem replay_eq_translation (resolver : Resolver σ) (path : String) (text : List Char)
    (ls : List Lexeme) (fs : List Firing) (host : σ) (h : parse ls = .ok fs) :
    ∃ d : DocumentTree, d.lexemes = ls ∧ (∀ d' : DocumentTree, d'.lexemes = ls → d' = d) ∧
      assemble resolver path ⟨text, ls, fs⟩ host =
        outcome path text ((d.translate resolver path).run host) := by
  obtain ⟨d, rfl, rfl⟩ := parse_iff_tree.1 h
  exact ⟨d, rfl, fun d' hd' => DocumentTree.lexemes_injective hd',
    assemble_eq_outcome resolver d path text d.lexemes host⟩

/-- `technique { pass { SetUniform t "a.png" } Shader "/b.glsl" }`: a technique that goes on after
its pass, with a resolver that counts what it loads. -/
theorem replay_technique_after_pass :
    let counting : Resolver Nat := { load := fun _ _ n => (.ok ⟨n⟩, n + 1) }
    let u : UniformTree := ⟨⟨19, 29⟩, ⟨"t", 30, 31⟩, .texture ⟨"a.png", 32, 39⟩⟩
    let p : PassTree := ⟨⟨12, 16⟩, none, ⟨17, 18⟩, [.uniform u], ⟨40, 41⟩⟩
    let o : OptionTree := .shader ⟨⟨42, 48⟩, none⟩ ⟨"/b.glsl", 49, 58⟩
    let d : DocumentTree :=
      ⟨[.nested ⟨⟨0, 9⟩, none, ⟨10, 11⟩, [.nested p, .option o], ⟨59, 60⟩⟩]⟩
    parse d.lexemes = .ok d.firings ∧
      ∃ d' : DocumentTree, d'.lexemes = d.lexemes ∧
        (∀ d'' : DocumentTree, d''.lexemes = d.lexemes → d'' = d') ∧
        assemble counting "m/x.mat" ⟨[], d.lexemes, d.firings⟩ 0 =
          outcome "m/x.mat" [] ((d'.translate counting "m/x.mat").run 0) := by
  intro counting u p o d
  have hparse : parse d.lexemes = .ok d.firings := parse_iff_tree.2 ⟨d, rfl, rfl⟩
  exact ⟨hparse, replay_eq_translation counting "m/x.mat" [] _ _ 0 hparse⟩

example :
    let counting : Resolver Nat :=
      { locate := fun _ reference _ => reference, load := fun _ _ n => (.ok ⟨n⟩, n + 1) }
    let u : UniformTree := ⟨⟨19, 29⟩, ⟨"t", 30, 31⟩, .texture ⟨"a.png", 32, 39⟩⟩
    let p : PassTree := ⟨⟨12, 16⟩, none, ⟨17, 18⟩, [.uniform u], ⟨40, 41⟩⟩
    let o : OptionTree := .shader ⟨⟨42, 48⟩, none⟩ ⟨"/b.glsl", 49, 58⟩
    let t : TechniqueTree := ⟨⟨0, 9⟩, none, ⟨10, 11⟩, [.nested p, .option o], ⟨59, 60⟩⟩
    (t.translate counting "m/x.mat").run 0 =
      .ok ⟨none, ⟨[.shader ⟨"/b.glsl", ⟨1⟩⟩], []⟩, [⟨none, ⟨[], [⟨"t", .texture ⟨"a.png", ⟨0⟩⟩⟩]⟩⟩]⟩
        2 := rfl

end MaterialScript.Grammar
