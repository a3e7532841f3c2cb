import MaterialScript.Proofs.Registry.Numbering

/-!
# Sessions with one registry

Sources are compiled one after the other with one registry, whether or not they compile and whatever
files exist. The references of all documents of such a session stay right.

* `Document.references` : the references of a document to resources of a kind;
* `Cites` : what a translation gives refers to loaded resources only (`DocumentTree.cites`);
* `Job`, `compileAll` : the results of sources compiled one after the other;
* `Session` : such a session with its calls; `compileAll_session` : every session is one;
* `Session.records` : what the registry holds after a session; `Session.cites` : the references of
  its documents are answers to its calls.
-/

namespace MaterialScript

open Grammar

variable {σ : Type}

/-! ## References -/

def RenderOption.reference? : (kind : ResourceKind) → RenderOption → Option (Reference kind)
  | .shader, .shader s => some s
  | _, _ => none

def UniformValue.reference? : (kind : ResourceKind) → UniformValue → Option (Reference kind)
  | .texture, .texture t => some t
  | _, _ => none

def Layer.references (kind : ResourceKind) (l : Layer) : List (Reference kind) :=
  l.options.filterMap (RenderOption.reference? kind) ++
    l.uniforms.filterMap fun u => u.value.reference? kind

def Technique.references (kind : ResourceKind) (t : Technique) : List (Reference kind) :=
  t.layer.references kind ++ t.passes.flatMap fun p => p.layer.references kind

/-- All references of a document to resources of a kind. -/
def Document.references (kind : ResourceKind) (d : Document) : List (Reference kind) :=
  d.layer.references kind ++ d.techniques.flatMap (Technique.references kind)

/-- The call that a reference is the answer to. -/
def Reference.call {kind : ResourceKind} (r : Reference kind) : Call := ⟨kind, r.path, .ok r.handle⟩

/-! ## References are answers to calls -/

section Citing
variable {α β : Type} {kind : ResourceKind}

/-- What a translation gives refers only to resources that calls have loaded. -/
def Cites (refs : α → List (Reference kind)) (m : TranslateM (σ × List Call) α) : Prop :=
  ∀ s x s', m.run s = .ok x s' → s.2 ⊆ s'.2 ∧ ∀ r ∈ refs x, r.call ∈ s'.2

theorem Cites.pure {refs : α → List (Reference kind)} {x : α} (h : refs x = []) :
    Cites refs (Pure.pure x : TranslateM (σ × List Call) α) := by
  intro s y s' hrun
  cases hrun
  refine ⟨fun c hc => hc, fun r hr => ?_⟩
  rw [h] at hr
  cases hr

theorem Cites.map {refs : α → List (Reference kind)} {refs' : β → List (Reference kind)}
    {m : TranslateM (σ × List Call) α} {f : α → β} (hm : Cites refs m)
    (hf : ∀ x, ∀ r ∈ refs' (f x), r ∈ refs x) : Cites refs' (f <$> m) := by
  intro s y s' hrun
  obtain ⟨x, hx, rfl⟩ := run_map_eq_ok hrun
  obtain ⟨hkeeps, hrefs⟩ := hm s x s' hx
  exact ⟨hkeeps, fun r hr => hrefs r (hf x r hr)⟩

theorem Cites.mapM {ι : Type} {refs : α → List (Reference kind)}
    {f : ι → TranslateM (σ × List Call) α} (hf : ∀ i, Cites refs (f i)) (is : List ι) :
    Cites (fun xs => xs.flatMap refs) (is.mapM f) := by
  induction is with
  | nil =>
    rw [List.mapM_nil]
    exact Cites.pure rfl
  | cons i is ih =>
    intro s y s' hrun
    rw [List.mapM_cons] at hrun
    obtain ⟨x, t, hx, hrun⟩ := run_bind_eq_ok hrun
    rw [bind_pure_comp] at hrun
    obtain ⟨xs, hxs, rfl⟩ := run_map_eq_ok hrun
    obtain ⟨hkeeps, hrefs⟩ := hf i s x t hx
    obtain ⟨hkeeps', hrefs'⟩ := ih t xs s' hxs
    refine ⟨fun c hc => hkeeps' (hkeeps hc), fun r hr => ?_⟩
    rcases List.mem_append.1 hr with hr | hr
    · exact hkeeps' (hrefs r hr)
    · exact hrefs' r hr

theorem fetch_cites (resolver : Resolver σ) (base : String) {kind' : ResourceKind}
    (literal : Located String) {refs : Reference kind' → List (Reference kind)}
    (hrefs : ∀ x, ∀ r ∈ refs x, r.call = x.call) :
    Cites refs (fetch resolver.recording base kind' literal) := by
  intro s x s' hrun
  rcases s with ⟨host, earlier⟩
  have hlocate : resolver.recording.locate (host, earlier) = resolver.locate host := rfl
  rcases hload : resolver.load kind' (resolver.locate host literal.value base) host with
    ⟨e | handle, host'⟩
  · have hrec := resolver.recording_load earlier hload
    simp [fetch, EStateM.run, hlocate, hrec] at hrun
  · have hrec := resolver.recording_load earlier hload
    simp only [fetch, EStateM.run, hlocate, hrec] at hrun
    cases hrun
    refine ⟨List.subset_append_left _ _, fun r hr => ?_⟩
    rw [hrefs _ r hr]
    exact List.mem_append_right _ (List.mem_singleton.2 rfl)

end Citing

section Trees
variable (resolver : Resolver σ) (base : String) (kind : ResourceKind)

theorem Grammar.OptionTree.cites (o : OptionTree) :
    Cites (fun x => (RenderOption.reference? kind x).toList)
      (o.translate resolver.recording base) := by
  cases o with
  | cullFace head face => exact Cites.pure (by cases kind <;> rfl)
  | blend head value => exact Cites.pure (by cases kind <;> rfl)
  | depthTest head on => exact Cites.pure (by cases kind <;> rfl)
  | depthWrite head on => exact Cites.pure (by cases kind <;> rfl)
  | shader head path =>
    rw [OptionTree.translate, bind_pure_comp]
    refine (fetch_cites resolver base path ?_).map fun s r hr => hr
    intro s r hr
    cases kind with
    | shader => cases List.mem_singleton.1 hr; rfl
    | texture => cases hr

theorem Grammar.ValueTree.cites (v : ValueTree) :
    Cites (fun x => (UniformValue.reference? kind x).toList)
      (v.translate resolver.recording base) := by
  cases v with
  | scalar x => exact Cites.pure (by cases kind <;> rfl)
  | vec2 left x comma y right => exact Cites.pure (by cases kind <;> rfl)
  | vec3 left x comma y comma' z right => exact Cites.pure (by cases kind <;> rfl)
  | vec4 left x comma y comma' z comma'' w right => exact Cites.pure (by cases kind <;> rfl)
  | texture path =>
    rw [ValueTree.translate, bind_pure_comp]
    refine (fetch_cites resolver base path ?_).map fun t r hr => hr
    intro t r hr
    cases kind with
    | shader => cases hr
    | texture => cases List.mem_singleton.1 hr; rfl

def Grammar.Node.references {M : Type} (inner : M → List (Reference kind)) :
    Node M → List (Reference kind)
  | .option o => (o.reference? kind).toList
  | .uniform u => (u.value.reference? kind).toList
  | .nested m => inner m

theorem Grammar.Item.cites {N M : Type} {inner : N → TranslateM (σ × List Call) M}
    {refs : M → List (Reference kind)} (h : ∀ n, Cites refs (inner n)) (item : Item N) :
    Cites (Node.references kind refs) (item.translate resolver.recording base inner) := by
  cases item with
  | option o => exact (o.cites resolver base kind).map fun x r hr => hr
  | uniform u =>
    have hu : Cites (fun x : Uniform => (x.value.reference? kind).toList)
        (u.translate resolver.recording base) := by
      rw [UniformTree.translate, bind_pure_comp]
      exact (u.value.cites resolver base kind).map fun x r hr => hr
    exact hu.map fun x r hr => hr
  | nested n => exact (h n).map fun x r hr => hr

theorem mem_references_of_layerOf {M : Type} (inner : M → List (Reference kind))
    {nodes : List (Node M)} {r : Reference kind}
    (h : r ∈ (layerOf nodes).references kind ++ (nestedOf nodes).flatMap inner) :
    r ∈ nodes.flatMap (Node.references kind inner) := by
  rw [List.mem_flatMap]
  simp only [Layer.references, layerOf, nestedOf, List.mem_append, List.mem_filterMap,
    List.mem_flatMap] at h
  rcases h with (⟨o, ⟨node, hnode, ho⟩, hr⟩ | ⟨u, ⟨node, hnode, hu⟩, hr⟩) | ⟨m, ⟨node, hnode, hm⟩, hr⟩
  · refine ⟨node, hnode, ?_⟩
    cases node <;> cases ho
    exact Option.mem_toList.2 hr
  · refine ⟨node, hnode, ?_⟩
    cases node <;> cases hu
    exact Option.mem_toList.2 hr
  · refine ⟨node, hnode, ?_⟩
    cases node <;> cases hm
    exact hr

theorem Grammar.PassTree.cites (t : PassTree) :
    Cites (fun p : Pass => p.layer.references kind) (t.translate resolver.recording base) := by
  have hnested : ∀ n : Empty, Cites (fun m : Empty => (m.elim : List (Reference kind)))
      (n.elim : TranslateM (σ × List Call) Empty) := fun n => n.elim
  rw [PassTree.translate, bind_pure_comp]
  exact (Cites.mapM (Item.cites resolver base kind hnested) t.body).map fun nodes r hr =>
    mem_references_of_layerOf kind _ (List.mem_append_left _ hr)

theorem Grammar.TechniqueTree.cites (t : TechniqueTree) :
    Cites (Technique.references kind) (t.translate resolver.recording base) := by
  rw [TechniqueTree.translate, bind_pure_comp]
  exact (Cites.mapM (Item.cites resolver base kind (PassTree.cites resolver base kind))
    t.body).map fun nodes r hr => mem_references_of_layerOf kind _ hr

/-- **The references of a document are answers to its calls.** -/
theorem Grammar.DocumentTree.cites (d : DocumentTree) :
    Cites (Document.references kind) (d.translate resolver.recording base) := by
  rw [DocumentTree.translate, bind_pure_comp]
  exact (Cites.mapM (Item.cites resolver base kind (TechniqueTree.cites resolver base kind))
    d.items).map fun nodes r hr => mem_references_of_layerOf kind _ hr

end Trees

theorem compile_cites (resolver : Resolver σ) {settings : Settings} {path source : String}
    {s s' : σ × List Call} {document : Document}
    (h : compile resolver.recording settings path source s = (.ok document, s'))
    (kind : ResourceKind) : ∀ r ∈ document.references kind, r.call ∈ s'.2 := by
  unfold compile at h
  split at h
  · cases h
  · next p hparse =>
    obtain ⟨d, rfl⟩ := tree_of_parseText hparse
    rw [assemble_eq_outcome] at h
    cases hrun : (d.translate resolver.recording path).run s with
    | error denial t =>
      rw [hrun] at h
      cases h
    | ok doc t =>
      rw [hrun] at h
      cases h
      exact (d.cites resolver path kind s document _ hrun).2

/-! ## Sessions -/

structure Job where
  settings : Settings := {}
  path : String
  source : String

/-- The requests of a source, in its order: those of its derivation, or none if it is not parsed. -/
def Job.Requests (job : Job) (rs : List Grammar.Request) : Prop :=
  match parseSource job.settings job.path job.source with
  | .error _ => rs = []
  | .ok p => ∃ d : DocumentTree, d.lexemes = p.lexemes ∧ rs = d.requests

/-- The results of sources that are compiled one after the other. -/
def compileAll (resolver : Resolver σ) : List Job → σ → List (Except Diagnostic Document) × σ
  | [], s => ([], s)
  | job :: jobs, s =>
    let (result, s') := compile resolver job.settings job.path job.source s
    let (results, last) := compileAll resolver jobs s'
    (result :: results, last)

/-- A session: sources compiled one after the other, with the calls that this leads to. The calls for
a source are those for its requests, from the first one on, up to one that fails. -/
inductive Session (resolver : Resolver σ) :
    σ → List Job → List (Except Diagnostic Document) → List Call → σ → Prop where
  | nil (s : σ) : Session resolver s [] [] [] s
  | cons {s s' last : σ} {job : Job} {jobs : List Job} {result : Except Diagnostic Document}
      {results : List (Except Diagnostic Document)} {asked later : List Grammar.Request}
      {cs cs' : List Call}
      (hcompile : compile resolver.recording job.settings job.path job.source (s, []) =
        (result, s', cs))
      (hrequests : job.Requests (asked ++ later)) (hserves : Serves resolver job.path s asked cs s')
      (hend : later = [] ∨ ∃ c, cs.getLast? = some c ∧ c.Fails)
      (hrest : Session resolver s' jobs results cs' last) :
      Session resolver s (job :: jobs) (result :: results) (cs ++ cs') last

theorem compileAll_append (resolver : Resolver σ) (jobs jobs' : List Job) (s : σ) :
    compileAll resolver (jobs ++ jobs') s =
      ((compileAll resolver jobs s).1 ++ (compileAll resolver jobs' (compileAll resolver jobs s).2).1,
        (compileAll resolver jobs' (compileAll resolver jobs s).2).2) := by
  induction jobs generalizing s with
  | nil => rfl
  | cons job jobs ih =>
    rw [List.cons_append, compileAll, compileAll]
    dsimp only
    rw [ih]
    rfl

theorem compile_session (resolver : Resolver σ) (job : Job) (s : σ) :
    ∃ result s' asked later cs,
      compile resolver job.settings job.path job.source s = (result, s') ∧
      compile resolver.recording job.settings job.path job.source (s, []) = (result, s', cs) ∧
      job.Requests (asked ++ later) ∧ Serves resolver job.path s asked cs s' ∧
      (later = [] ∨ ∃ c, cs.getLast? = some c ∧ c.Fails) := by
  cases hparse : parseSource job.settings job.path job.source with
  | error e =>
    refine ⟨.error e, s, [], [], [], by rw [compile, hparse], by rw [compile, hparse], ?_, .nil s,
      .inl rfl⟩
    rw [Job.Requests, hparse]
    rfl
  | ok p =>
    obtain ⟨d, rfl⟩ := tree_of_parseText hparse
    obtain ⟨result, hplain, hrec, -⟩ := compile_of_parsed resolver hparse s []
    have hrequests : job.Requests d.requests := by
      rw [Job.Requests, hparse]
      exact ⟨d, rfl, rfl⟩
    obtain ⟨asked, later, hsplit, hserves, hending⟩ := ask_serves resolver job.path d.requests s
    rw [hsplit] at hrequests
    refine ⟨result, _, asked, later, _, hplain, hrec, hrequests, hserves, ?_⟩
    cases hending with
    | granted _ hlater hdenial hcalls => exact .inl hlater
    | denied before r front c denial hdenial hcalls hfront hanswer hspan =>
      exact .inr ⟨c, by simp [hcalls], denial.error, hanswer⟩

theorem compileAll_session (resolver : Resolver σ) (jobs : List Job) (s : σ) :
    ∃ cs, Session resolver s jobs (compileAll resolver jobs s).1 cs
      (compileAll resolver jobs s).2 := by
  induction jobs generalizing s with
  | nil => exact ⟨[], .nil s⟩
  | cons job jobs ih =>
    obtain ⟨result, s', asked, later, cs, hplain, hrec, hrequests, hserves, hend⟩ :=
      compile_session resolver job s
    obtain ⟨cs', hrest⟩ := ih s'
    refine ⟨cs ++ cs', ?_⟩
    rw [compileAll, hplain]
    exact .cons hrec hrequests hserves hend hrest

theorem Session.cites {resolver : Resolver σ} {s last : σ} {jobs : List Job}
    {results : List (Except Diagnostic Document)} {cs : List Call}
    (h : Session resolver s jobs results cs last) {document : Document}
    (hd : .ok document ∈ results) {kind : ResourceKind} :
    ∀ r ∈ document.references kind, r.call ∈ cs := by
  induction h with
  | nil s => cases hd
  | cons hcompile hrequests hserves hend hrest ih =>
    intro r hr
    rcases List.mem_cons.1 hd with rfl | hd
    · exact List.mem_append_left _ (compile_cites resolver hcompile kind r hr)
    · exact List.mem_append_right _ (ih hd r hr)

/-- **What the registry holds after a session.** -/
theorem Session.records {isFile : Nat → String → Bool} {s last : Registry × Nat} {jobs : List Job}
    {results : List (Except Diagnostic Document)} {cs earlier : List Call}
    (h : Session (Registry.changing isFile) s jobs results cs last)
    (hs : s.1.Records earlier) : last.1.Records (earlier ++ cs) := by
  induction h generalizing earlier with
  | nil s =>
    rw [List.append_nil]
    exact hs
  | cons hcompile hrequests hserves hend hrest ih =>
    rw [← List.append_assoc]
    exact ih (hs.serves hserves)

/-- **The references of a session stay right.** Sources are compiled one after the other with a
registry that starts out empty, whatever files exist at each call. A reference of any document has
its path in the registry, and keeps it in all that follows; references of one kind have one handle
exactly if they have one path. The handles of a kind are the places in the list of loaded paths, each
one where it came first, in the order of the sources. -/
theorem references_keep_their_paths (root : Option String) (check : Bool)
    (isFile : Nat → String → Bool) (jobs later : List Job) :
    let world := Registry.changing isFile
    let start : Registry × Nat := ({ root, check }, 0)
    let (results, registry, clock) := compileAll world jobs start
    let (_, registry', _) := compileAll world (jobs ++ later) start
    (∀ document, .ok document ∈ results → ∀ kind, ∀ r ∈ document.references kind,
      registry.path? r.handle = some r.path ∧ registry'.path? r.handle = some r.path) ∧
    (∀ d d', .ok d ∈ results → .ok d' ∈ results → ∀ kind,
      ∀ r ∈ d.references kind, ∀ r' ∈ d'.references kind, r.handle = r'.handle ↔ r.path = r'.path) ∧
    ∃ cs, Session world start jobs results cs (registry, clock) ∧ ∀ kind,
      (∀ n, n < (registry.table kind).size ↔ ∃ path, Call.mk kind path (.ok ⟨n⟩) ∈ cs) ∧
      (registry.table kind).paths.toList = (granted kind cs).eraseDups ∧
      ∀ path n, (registry.table kind).handle? path = some n ↔
        (registry.table kind).path? n = some path := by
  intro world start
  obtain ⟨cs, hsession⟩ := compileAll_session world jobs start
  obtain ⟨cs', hsession'⟩ := compileAll_session world later (compileAll world jobs start).2
  have hrecords := hsession.records (Registry.records_empty root check)
  have hrecords' := hsession'.records hrecords
  rw [compileAll_append]
  refine ⟨fun document hd kind r hr => ?_, fun d d' hd hd' kind r hr r' hr' => ?_, cs, hsession,
    fun kind => ⟨hrecords.lt_size_iff kind, hrecords.paths kind, hrecords.inverse kind⟩⟩
  · have hcall := hsession.cites hd r hr
    exact ⟨hrecords.answered kind r.path r.handle hcall,
      hrecords'.answered kind r.path r.handle (List.mem_append_left _ hcall)⟩
  · exact hrecords.handle_eq_iff (hsession.cites hd r hr) (hsession.cites hd' r' hr')

/-- Files exist at every other call: `x.mat` loads its first shader and is denied the second one, then
`y.mat` loads the second one and finds the first one numbered, although its file is gone. -/
theorem references_outlive_failed_source :
    let isFile : Nat → String → Bool := fun n _ => n % 2 == 0
    let world := Registry.changing isFile
    let start : Registry × Nat := ({ check := true }, 0)
    let failing : Job := ⟨{}, "x.mat", "Shader \"a\" Shader \"b\""⟩
    let jobs := [failing, ⟨{}, "y.mat", "Shader \"b\" Shader \"a\""⟩]
    let b : Reference .shader := ⟨"b", ⟨1⟩⟩
    let a : Reference .shader := ⟨"a", ⟨0⟩⟩
    let document : Document := { layer := { options := [.shader b, .shader a] } }
    let results := (compileAll world jobs start).1
    let registry := (compileAll world jobs start).2.1
    let registry' := (compileAll world (jobs ++ [failing]) start).2.1
    results.map Except.toOption = [none, some document] ∧ .ok document ∈ results ∧
      registry.path? b.handle = some "b" ∧ registry'.path? a.handle = some "a" ∧
      (b.handle = a.handle ↔ b.path = a.path) := by
  intro isFile world start failing jobs b a document results registry registry'
  have hresults : results.map Except.toOption = [none, some document] := by decide +kernel
  have hd : .ok document ∈ results := by
    have hsome : some document ∈ results.map Except.toOption := by
      rw [hresults]
      exact List.mem_cons_of_mem none List.mem_cons_self
    obtain ⟨e | document', hmem, hok⟩ := List.mem_map.1 hsome
    · cases hok
    · cases hok
      exact hmem
  obtain ⟨hpaths, hhandles, -⟩ := references_keep_their_paths none true isFile jobs [failing]
  have hb : b ∈ document.references .shader := by decide
  have ha : a ∈ document.references .shader := by decide
  exact ⟨hresults, hd, (hpaths document hd .shader b hb).1, (hpaths document hd .shader a ha).2,
    hhandles document document hd hd .shader b hb a ha⟩

end MaterialScript
