import MaterialScript.Proofs.Translation.Replay

/-!
# What a compilation asks of its resolver

The string literals of a tree that name resources are its requests. A compilation makes one call for
each of them, from left to right, and stops at the first call that fails.

* `Call` : a call with its answer; `Resolver.recording` : a resolver that keeps its calls;
* `calls` : the calls that firings lead to;
* `Request`, `DocumentTree.requests` : the literals of a tree that name resources, in order;
* `ask` : the calls for a list of requests, and how they end (`ask_append`, `fails_of_denied`);
* `Asks` : a translation asks for given requests and nothing else (`DocumentTree.asks`);
* `calls_firings` : the calls of a document are those for its requests;
* `translate_of_calls` : a document is translated if none of its calls fails;
* `kind_of_parseText_error`, `kind_of_assemble_error` : the failures of the two steps of a
  compilation.
-/

namespace MaterialScript

variable {σ : Type}

/-! ## Calls -/

/-- A call of a resolver: what it is asked to load, and its answer. -/
structure Call where
  kind : ResourceKind
  path : String
  answer : Except ResourceError (Handle kind)

def Call.Fails (c : Call) : Prop := ∃ e, c.answer = .error e

/-- The same resolver, which also keeps its calls, the last one at the end. -/
def Resolver.recording (resolver : Resolver σ) : Resolver (σ × List Call) where
  locate s := resolver.locate s.1
  load kind path s :=
    let (answer, host) := resolver.load kind path s.1
    (answer, host, s.2 ++ [⟨kind, path, answer⟩])

theorem Resolver.recording_load (resolver : Resolver σ) {kind : ResourceKind} {path : String}
    {host host' : σ} {answer : Except ResourceError (Handle kind)} (before : List Call)
    (h : resolver.load kind path host = (answer, host')) :
    resolver.recording.load kind path (host, before) =
      (answer, host', before ++ [⟨kind, path, answer⟩]) := by
  simp only [recording, h]

/-- The calls that firings lead to, whether or not all of them can be performed. -/
def calls (resolver : Resolver σ) (base : String) (fs : List Firing) (host : σ) : List Call :=
  match (Assembly.fireAll resolver.recording base fs).run (Assembly.start (host, [])) with
  | .ok _ a => a.host.2
  | .error _ a => a.host.2

namespace Grammar

/-! ## Requests -/

/-- A literal that names a resource. -/
structure Request where
  kind : ResourceKind
  literal : Located String

def OptionTree.requests : OptionTree → List Request
  | shader _ path => [⟨.shader, path⟩]
  | _ => []

def ValueTree.requests : ValueTree → List Request
  | texture path => [⟨.texture, path⟩]
  | _ => []

/-- The requests of an item, given those of nested scopes. -/
def Item.requests {N : Type} (inner : N → List Request) : Item N → List Request
  | option o => o.requests
  | uniform u => u.value.requests
  | nested n => inner n

def PassTree.requests (t : PassTree) : List Request := t.body.flatMap (Item.requests Empty.elim)

def TechniqueTree.requests (t : TechniqueTree) : List Request :=
  t.body.flatMap (Item.requests PassTree.requests)

/-- The requests of a document, in the order of the source. -/
def DocumentTree.requests (d : DocumentTree) : List Request :=
  d.items.flatMap (Item.requests TechniqueTree.requests)

/-! ## Asking -/

/-- How a series of calls ends: the calls, the denial that ended it early, the resolver after it. -/
structure Asked (σ : Type) where
  calls : List Call
  denial : Option Denial
  host : σ

def Asked.cons (c : Call) (a : Asked σ) : Asked σ := { a with calls := c :: a.calls }

/-- The calls for requests in the document at `base`, up to the first one that fails. -/
def ask (resolver : Resolver σ) (base : String) : List Request → σ → Asked σ
  | [], host => ⟨[], none, host⟩
  | r :: rs, host =>
    let path := resolver.locate host r.literal.value base
    match resolver.load r.kind path host with
    | (.ok handle, host') => (ask resolver base rs host').cons ⟨r.kind, path, .ok handle⟩
    | (.error e, host') => ⟨[⟨r.kind, path, .error e⟩], some ⟨e, r.literal.span⟩, host'⟩

variable (resolver : Resolver σ) (base : String)

theorem ask_append (rs rs' : List Request) (host : σ) :
    ask resolver base (rs ++ rs') host =
      match ask resolver base rs host with
      | ⟨cs, none, host'⟩ =>
        { ask resolver base rs' host' with calls := cs ++ (ask resolver base rs' host').calls }
      | ⟨cs, some denial, host'⟩ => ⟨cs, some denial, host'⟩ := by
  induction rs generalizing host with
  | nil => rfl
  | cons r rs ih =>
    rw [List.cons_append, ask, ask]
    dsimp only
    rcases resolver.load r.kind (resolver.locate host r.literal.value base) host with
      ⟨handle | handle, host'⟩
    · rfl
    · dsimp only
      rw [ih]
      rcases ask resolver base rs host' with ⟨cs, denial | denial, host''⟩ <;> rfl

/-- A denial comes from a call that fails. -/
theorem fails_of_denied {rs : List Request} {host : σ} {denial : Denial}
    (h : (ask resolver base rs host).denial = some denial) :
    ∃ c ∈ (ask resolver base rs host).calls, c.Fails := by
  induction rs generalizing host with
  | nil => cases h
  | cons r rs ih =>
    rw [ask] at h ⊢
    rcases hload : resolver.load r.kind (resolver.locate host r.literal.value base) host with
      ⟨e | handle, host'⟩
    · exact ⟨_, List.mem_singleton.2 rfl, e, rfl⟩
    · rw [hload] at h
      obtain ⟨c, hc, hfails⟩ := ih h
      exact ⟨c, List.mem_cons_of_mem _ hc, hfails⟩

/-! ## Translations ask for the requests of their trees -/

section Asking
variable {α β : Type} {resolver : Resolver σ} {base : String}

/-- A translation asks for given requests and nothing else: it ends as the calls for them do, and
with a resolver that keeps its calls it adds just these. -/
def Asks (resolver : Resolver σ) (base : String) (rs : List Request) (m : TranslateM σ α)
    (recorded : TranslateM (σ × List Call) α) : Prop :=
  ∀ host before,
    let asked := ask resolver base rs host
    match asked.denial with
    | none => ∃ x, m.run host = .ok x asked.host ∧
        recorded.run (host, before) = .ok x (asked.host, before ++ asked.calls)
    | some denial => m.run host = .error denial asked.host ∧
        recorded.run (host, before) = .error denial (asked.host, before ++ asked.calls)

theorem Asks.pure (x : α) :
    Asks resolver base [] (pure x : TranslateM σ α) (Pure.pure x) := by
  intro host before
  exact ⟨x, rfl, by simp [ask]⟩

theorem Asks.bind {rs rs' : List Request} {m : TranslateM σ α}
    {recorded : TranslateM (σ × List Call) α} {k : α → TranslateM σ β}
    {recorded' : α → TranslateM (σ × List Call) β} (hm : Asks resolver base rs m recorded)
    (hk : ∀ x, Asks resolver base rs' (k x) (recorded' x)) :
    Asks resolver base (rs ++ rs') (m >>= k) (recorded >>= recorded') := by
  intro host before
  have hm := hm host before
  rw [EStateM.run_bind, EStateM.run_bind, ask_append]
  rcases hasked : ask resolver base rs host with ⟨cs, denial | denial, host'⟩
  · rw [hasked] at hm
    obtain ⟨x, hrun, hrec⟩ := hm
    have hk := hk x host' (before ++ cs)
    rw [hrun, hrec]
    simpa only [List.append_assoc] using hk
  · rw [hasked] at hm
    obtain ⟨hrun, hrec⟩ := hm
    rw [hrun, hrec]
    exact ⟨rfl, rfl⟩

theorem Asks.map {rs : List Request} {m : TranslateM σ α}
    {recorded : TranslateM (σ × List Call) α} (f : α → β) (hm : Asks resolver base rs m recorded) :
    Asks resolver base rs (f <$> m) (f <$> recorded) := by
  rw [← bind_pure_comp, ← bind_pure_comp, ← List.append_nil rs]
  exact hm.bind fun x => Asks.pure (f x)

theorem Asks.mapM {ι : Type} {requests : ι → List Request} {f : ι → TranslateM σ α}
    {recorded : ι → TranslateM (σ × List Call) α}
    (hf : ∀ i, Asks resolver base (requests i) (f i) (recorded i)) (is : List ι) :
    Asks resolver base (is.flatMap requests) (is.mapM f) (is.mapM recorded) := by
  induction is with
  | nil =>
    rw [List.mapM_nil, List.mapM_nil]
    exact Asks.pure []
  | cons i is ih =>
    rw [List.flatMap_cons, List.mapM_cons, List.mapM_cons]
    refine (hf i).bind fun x => ?_
    rw [bind_pure_comp, bind_pure_comp]
    exact ih.map (x :: ·)

end Asking

theorem fetch_asks (kind : ResourceKind) (literal : Located String) :
    Asks resolver base [⟨kind, literal⟩] (fetch resolver base kind literal)
      (fetch resolver.recording base kind literal) := by
  intro host before
  have hlocate : resolver.recording.locate (host, before) = resolver.locate host := rfl
  rcases hload : resolver.load kind (resolver.locate host literal.value base) host with
    ⟨e | handle, host'⟩
  · have hrec := resolver.recording_load before hload
    simp [ask, fetch, EStateM.run, hlocate, hload, hrec]
  · have hrec := resolver.recording_load before hload
    simp [ask, Asked.cons, fetch, EStateM.run, hlocate, hload, hrec]

theorem OptionTree.asks (o : OptionTree) :
    Asks resolver base o.requests (o.translate resolver base)
      (o.translate resolver.recording base) := by
  cases o with
  | cullFace head face => exact Asks.pure _
  | blend head value => exact Asks.pure _
  | depthTest head on => exact Asks.pure _
  | depthWrite head on => exact Asks.pure _
  | shader head path => exact (fetch_asks resolver base .shader path).bind fun r => Asks.pure _

theorem ValueTree.asks (v : ValueTree) :
    Asks resolver base v.requests (v.translate resolver base)
      (v.translate resolver.recording base) := by
  cases v with
  | scalar x => exact Asks.pure _
  | vec2 left x comma y right => exact Asks.pure _
  | vec3 left x comma y comma' z right => exact Asks.pure _
  | vec4 left x comma y comma' z comma'' w right => exact Asks.pure _
  | texture path => exact (fetch_asks resolver base .texture path).bind fun r => Asks.pure _

theorem Item.asks {N M : Type} {requests : N → List Request} {inner : N → TranslateM σ M}
    {recorded : N → TranslateM (σ × List Call) M}
    (h : ∀ n, Asks resolver base (requests n) (inner n) (recorded n)) (item : Item N) :
    Asks resolver base (item.requests requests) (item.translate resolver base inner)
      (item.translate resolver.recording base recorded) := by
  cases item with
  | option o => exact (o.asks resolver base).map Node.option
  | uniform u =>
    refine Asks.map Node.uniform ?_
    rw [UniformTree.translate, UniformTree.translate, bind_pure_comp, bind_pure_comp]
    exact (u.value.asks resolver base).map _
  | nested n => exact (h n).map Node.nested

theorem PassTree.asks (t : PassTree) :
    Asks resolver base t.requests (t.translate resolver base)
      (t.translate resolver.recording base) := by
  rw [PassTree.translate, PassTree.translate, bind_pure_comp, bind_pure_comp]
  exact (Asks.mapM (Item.asks resolver base fun n => n.elim) t.body).map _

theorem TechniqueTree.asks (t : TechniqueTree) :
    Asks resolver base t.requests (t.translate resolver base)
      (t.translate resolver.recording base) := by
  rw [TechniqueTree.translate, TechniqueTree.translate, bind_pure_comp, bind_pure_comp]
  exact (Asks.mapM (Item.asks resolver base (PassTree.asks resolver base)) t.body).map _

/-- **A document asks for its requests**, once each and in the order of the source. -/
theorem DocumentTree.asks (d : DocumentTree) :
    Asks resolver base d.requests (d.translate resolver base)
      (d.translate resolver.recording base) := by
  rw [DocumentTree.translate, DocumentTree.translate, bind_pure_comp, bind_pure_comp]
  exact (Asks.mapM (Item.asks resolver base (TechniqueTree.asks resolver base)) d.items).map _

theorem calls_firings (d : DocumentTree) (host : σ) :
    calls resolver base d.firings host = (ask resolver base d.requests host).calls := by
  have hfollows := d.follows resolver.recording base (host, [])
  have hasks := d.asks resolver base host []
  rw [calls]
  cases hdenial : (ask resolver base d.requests host).denial with
  | none =>
    simp only [hdenial] at hasks
    obtain ⟨doc, -, hrec⟩ := hasks
    rw [hrec] at hfollows
    rw [Follows] at hfollows
    rw [hfollows]
    rfl
  | some denial =>
    simp only [hdenial] at hasks
    rw [hasks.2] at hfollows
    obtain ⟨misfire, a, hrun, -, -, hhost⟩ := hfollows
    rw [hrun]
    simp [hhost]

theorem translate_of_calls (d : DocumentTree) (host : σ)
    (h : ∀ c ∈ calls resolver base d.firings host, ¬ c.Fails) :
    ∃ document host', (d.translate resolver base).run host = .ok document host' := by
  have hnone : (ask resolver base d.requests host).denial = none := by
    cases hdenial : (ask resolver base d.requests host).denial with
    | none => rfl
    | some denial =>
      obtain ⟨c, hc, hfails⟩ := fails_of_denied resolver base hdenial
      rw [← calls_firings] at hc
      exact absurd hfails (h c hc)
  have hasks := d.asks resolver base host []
  simp only [hnone] at hasks
  obtain ⟨document, hmeaning, -⟩ := hasks
  exact ⟨document, _, hmeaning⟩

end Grammar

/-! ## Compilations -/

open Grammar

theorem kind_of_parseText_error {path : String} {text : List Char} {e : Diagnostic}
    (h : parseText path text = .error e) : e.kind = .syntaxError := by
  unfold parseText at h
  split at h
  · cases h
    rfl
  · split at h
    · cases h
      rfl
    · cases h

theorem tree_of_parseText {path : String} {text : List Char} {p : Parsed}
    (h : parseText path text = .ok p) :
    ∃ d : DocumentTree, p = ⟨text, d.lexemes, d.firings⟩ := by
  unfold parseText at h
  split at h
  · cases h
  · next lexemes hlex =>
    split at h
    · cases h
    · next firings hparse =>
      cases h
      obtain ⟨d, rfl, rfl⟩ := parse_iff_tree.1 hparse
      exact ⟨d, rfl⟩

theorem kind_of_assemble_error (resolver : Resolver σ) {path : String} {text : List Char}
    {p : Parsed} {host : σ} {e : Diagnostic} (hp : parseText path text = .ok p)
    (h : (assemble resolver path p host).1 = .error e) : e.kind = .resourceError := by
  obtain ⟨d, rfl⟩ := tree_of_parseText hp
  rw [assemble_eq_outcome] at h
  cases hmeaning : (d.translate resolver path).run host with
  | ok doc host' => rw [hmeaning] at h; cases h
  | error denial host' => rw [hmeaning] at h; cases h; rfl

/-- **A compilation fails on its text or on a call of the resolver that fails, and on nothing else**:
a text that is parsed and whose calls all succeed is assembled and closed. -/
theorem compile_fails_only_on_input (resolver : Resolver σ) (settings : Settings)
    (path source : String) (host : σ) :
    (∀ e, (compile resolver settings path source host).1 = .error e →
      e.kind = .syntaxError ∨ e.kind = .resourceError) ∧
    ∀ p, parseSource settings path source = .ok p →
      (∀ c ∈ calls resolver path p.firings host, ¬ c.Fails) →
      ∃ a document, (Assembly.fireAll resolver path p.firings).run (Assembly.start host) = .ok () a ∧
        a.close = .ok document ∧
        compile resolver settings path source host = (.ok document, a.host) := by
  refine ⟨fun e he => ?_, fun p hp hcalls => ?_⟩
  · unfold compile at he
    split at he
    · next e' hparse =>
      cases he
      exact .inl (kind_of_parseText_error hparse)
    · next p hparse => exact .inr (kind_of_assemble_error resolver hparse he)
  · obtain ⟨d, rfl⟩ := tree_of_parseText hp
    obtain ⟨document, host', hmeaning⟩ := translate_of_calls resolver path d host hcalls
    have hfollows := d.follows resolver path host
    rw [hmeaning] at hfollows
    refine ⟨_, document, hfollows, rfl, ?_⟩
    rw [compile, hp]
    dsimp only
    rw [assemble_eq_outcome, hmeaning]
    rfl

/-- `technique { Shader "a.glsl" }` with a resolver that has nothing, and with one that counts what
it loads. -/
theorem compile_shader_counted_or_denied :
    let counting : Resolver Nat := { load := fun _ _ n => (.ok ⟨n⟩, n + 1) }
    let denying : Resolver Nat := { load := fun kind path n => (.error (.notFound kind path), n) }
    let source := "technique \x7b Shader \"a.glsl\" \x7d"
    (∃ e, (compile denying {} "m/x.mat" source 0).1 = .error e ∧
      (e.kind = .syntaxError ∨ e.kind = .resourceError)) ∧
    ∃ p, parseSource {} "m/x.mat" source = .ok p ∧
      (∀ c ∈ calls counting "m/x.mat" p.firings 0, ¬ c.Fails) ∧
      ∃ a document,
        (Assembly.fireAll counting "m/x.mat" p.firings).run (Assembly.start 0) = .ok () a ∧
        a.close = .ok document ∧
        compile counting {} "m/x.mat" source 0 = (.ok document, a.host) := by
  intro counting denying source
  let t : TechniqueTree :=
    ⟨⟨0, 9⟩, none, ⟨10, 11⟩, [.option (.shader ⟨⟨12, 18⟩, none⟩ ⟨"a.glsl", 19, 27⟩)], ⟨28, 29⟩⟩
  let d : DocumentTree := ⟨[.nested t]⟩
  have hlex : Lexer.lex source.toList = .ok d.lexemes := Lexer.lex_eq_ok (by decide +kernel)
  have hparse : parseSource {} "m/x.mat" source = .ok ⟨source.toList, d.lexemes, d.firings⟩ := by
    have hfirings : parse d.lexemes = .ok d.firings := parse_iff_tree.2 ⟨d, rfl, rfl⟩
    have htext : (sourceText {} source).1 = source.toList := by decide +kernel
    rw [parseSource, htext, parseText, hlex]
    dsimp only
    rw [hfirings]
  obtain ⟨e, hdenied⟩ : ∃ e, (compile denying {} "m/x.mat" source 0).1 = .error e := by
    rw [compile, hparse]
    dsimp only
    rw [assemble_eq_outcome]
    exact ⟨_, rfl⟩
  have hcalls : ∀ c ∈ calls counting "m/x.mat" d.firings 0, ¬ c.Fails := by
    intro c hc
    rw [calls_firings] at hc
    obtain rfl := List.mem_singleton.1 hc
    rintro ⟨e, he⟩
    cases he
  refine ⟨⟨e, hdenied, ?_⟩, _, hparse, hcalls, ?_⟩
  · exact (compile_fails_only_on_input denying {} "m/x.mat" source 0).1 e hdenied
  · exact (compile_fails_only_on_input counting {} "m/x.mat" source 0).2 _ hparse hcalls

end MaterialScript
