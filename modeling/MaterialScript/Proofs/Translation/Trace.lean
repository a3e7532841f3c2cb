import MaterialScript.Proofs.Lexing.Tiling
import MaterialScript.Proofs.Translation.Requests

/-!
# The calls of a compilation

A compilation calls its resolver once for each string literal of the source, in the order of the
source and with the path of the literal, and it stops after the first call that fails. A source
that is not parsed leads to no call.

* `literals` : the string literals among lexemes; `DocumentTree.literals_lexemes` : those of a
  document are its requests;
* `Serves` : the calls for requests, one after the other; `ask_serves` : requests are served from the
  first one on;
* `quote_of_literal` : a string literal starts with a quote in the text;
* `compile_of_parsed` : a compilation ends as the calls for the requests of its text do, also when
  the calls are kept.
-/

namespace MaterialScript

variable {σ : Type}

def Token.isString : Token → Bool
  | .str _ => true
  | _ => false

namespace Grammar

/-! ## Requests are string literals -/

def literals (ls : List Lexeme) : List Lexeme := ls.filter (·.token.isString)

def Request.lexeme (r : Request) : Lexeme := r.literal.lexeme .str

@[simp] theorem literals_append (ls ls' : List Lexeme) :
    literals (ls ++ ls') = literals ls ++ literals ls' := List.filter_append ls ls'

theorem literals_cons_of_not {l : Lexeme} (h : l.token.isString = false) (ls : List Lexeme) :
    literals (l :: ls) = literals ls := by
  unfold literals
  rw [List.filter_cons, h]
  rfl

theorem literals_flatMap {T : Type} {lexemes : T → List Lexeme} {requests : T → List Request}
    (h : ∀ t, literals (lexemes t) = (requests t).map Request.lexeme) (ts : List T) :
    literals (ts.flatMap lexemes) = (ts.flatMap requests).map Request.lexeme := by
  induction ts with
  | nil => rfl
  | cons t ts ih =>
    rw [List.flatMap_cons, List.flatMap_cons, literals_append, List.map_append, h t, ih]

theorem OptionTree.literals_lexemes (o : OptionTree) :
    literals o.lexemes = o.requests.map Request.lexeme := by
  have hhead : ∀ (i : Introducer) (word : String), literals (i.lexemes word) = [] := by
    intro i word
    cases i with
    | mk span colon => cases colon <;> rfl
  cases o with
  | cullFace head face => rw [OptionTree.lexemes, literals_append, hhead]; rfl
  | blend head value => rw [OptionTree.lexemes, literals_append, hhead]; cases value <;> rfl
  | depthTest head on => rw [OptionTree.lexemes, literals_append, hhead]; rfl
  | depthWrite head on => rw [OptionTree.lexemes, literals_append, hhead]; rfl
  | shader head path => rw [OptionTree.lexemes, literals_append, hhead]; rfl

theorem UniformTree.literals_lexemes (u : UniformTree) :
    literals u.lexemes = u.value.requests.map Request.lexeme := by
  have hhead : literals u.lexemes = literals u.value.lexemes := by
    rw [UniformTree.lexemes, literals_cons_of_not rfl, literals_cons_of_not rfl]
  rw [hhead]
  cases u.value <;> rfl

section Scopes
variable {N : Type} {inner : N → List Lexeme} {requests : N → List Request}

theorem Item.literals_lexemes (h : ∀ n, literals (inner n) = (requests n).map Request.lexeme)
    (item : Item N) :
    literals (item.lexemes inner) = (item.requests requests).map Request.lexeme := by
  cases item with
  | option o => exact o.literals_lexemes
  | uniform u => exact u.literals_lexemes
  | nested n => exact h n

theorem ScopeTree.literals_lexemes (h : ∀ n, literals (inner n) = (requests n).map Request.lexeme)
    (keyword : String) (t : ScopeTree N) :
    literals (t.lexemes keyword inner) =
      (t.body.flatMap (Item.requests requests)).map Request.lexeme := by
  have hname : literals (t.name.map (Located.lexeme .ident)).toList = [] := by
    cases t.name <;> rfl
  have hbody := literals_flatMap (Item.literals_lexemes h) t.body
  rw [ScopeTree.lexemes, List.cons_append, List.cons_append, literals_cons_of_not rfl,
    List.append_assoc, List.cons_append, literals_append, hname, List.nil_append,
    literals_cons_of_not rfl, literals_append, hbody]
  exact List.append_nil _

end Scopes

/-- **The string literals of a document are its requests**, in the order of the source. -/
theorem DocumentTree.literals_lexemes (d : DocumentTree) :
    literals d.lexemes = d.requests.map Request.lexeme := by
  have hpass : ∀ p : PassTree, literals p.lexemes = p.requests.map Request.lexeme :=
    ScopeTree.literals_lexemes (fun n => n.elim) "pass"
  have htechnique : ∀ t : TechniqueTree, literals t.lexemes = t.requests.map Request.lexeme :=
    ScopeTree.literals_lexemes hpass "technique"
  exact literals_flatMap (Item.literals_lexemes htechnique) d.items

/-! ## Calls for requests -/

/-- The calls for requests in the document at `base`, one after the other and whatever the answers
are. -/
inductive Serves (resolver : Resolver σ) (base : String) :
    σ → List Request → List Call → σ → Prop where
  | nil (host : σ) : Serves resolver base host [] [] host
  | cons {host host' last : σ} {r : Request} {rs : List Request} {cs : List Call}
      {answer : Except ResourceError (Handle r.kind)}
      (hload : resolver.load r.kind (resolver.locate host r.literal.value base) host =
        (answer, host'))
      (hrest : Serves resolver base host' rs cs last) :
      Serves resolver base host (r :: rs)
        (⟨r.kind, resolver.locate host r.literal.value base, answer⟩ :: cs) last

theorem not_fails_ok (kind : ResourceKind) (path : String) (handle : Handle kind) :
    ¬ (Call.mk kind path (.ok handle)).Fails := by
  rintro ⟨e, he⟩
  cases he

/-- How the calls for requests end: no call fails and all requests are served, or the last call is the
only one that fails and the requests up to that one are served. -/
inductive Ending (later : List Request) (a : Asked σ) : List Request → Prop where
  | granted (asked : List Request) (hlater : later = []) (hdenial : a.denial = none)
      (hcalls : ∀ c ∈ a.calls, ¬ c.Fails) : Ending later a asked
  | denied (before : List Request) (r : Request) (front : List Call) (c : Call) (denial : Denial)
      (hdenial : a.denial = some denial) (hcalls : a.calls = front ++ [c])
      (hfront : ∀ c ∈ front, ¬ c.Fails) (hanswer : c.answer = .error denial.error)
      (hspan : denial.span = r.literal.span) : Ending later a (before ++ [r])

/-- **Requests are served from the first one on.** -/
theorem ask_serves (resolver : Resolver σ) (base : String) (rs : List Request) (host : σ) :
    ∃ asked later, rs = asked ++ later ∧
      Serves resolver base host asked (ask resolver base rs host).calls
        (ask resolver base rs host).host ∧
      Ending later (ask resolver base rs host) asked := by
  induction rs generalizing host with
  | nil => exact ⟨[], [], rfl, .nil host, .granted [] rfl rfl fun c hc => absurd hc List.not_mem_nil⟩
  | cons r rs ih =>
    rw [ask]
    rcases hload : resolver.load r.kind (resolver.locate host r.literal.value base) host with
      ⟨e | handle, host'⟩
    · refine ⟨[r], rs, rfl, .cons hload (.nil host'), ?_⟩
      exact .denied [] r [] _ ⟨e, r.literal.span⟩ rfl rfl (fun c hc => absurd hc List.not_mem_nil)
        rfl rfl
    · obtain ⟨asked, later, rfl, hserves, hend⟩ := ih host'
      have hgranted : ¬ (Call.mk r.kind (resolver.locate host r.literal.value base)
          (.ok handle)).Fails := not_fails_ok _ _ _
      refine ⟨r :: asked, later, rfl, .cons hload hserves, ?_⟩
      cases hend with
      | granted _ hlater hdenial hcalls =>
        exact .granted _ hlater hdenial (List.forall_mem_cons.2 ⟨hgranted, hcalls⟩)
      | denied before r' front c denial hdenial hcalls hfront hanswer hspan =>
        exact .denied (r :: before) r' (_ :: front) c denial hdenial (congrArg (_ :: ·) hcalls)
          (List.forall_mem_cons.2 ⟨hgranted, hfront⟩) hanswer hspan

end Grammar

/-! ## Compilations -/

open Grammar

/-- **A string literal starts with a quote in the text.** -/
theorem quote_of_literal {text : List Char} {ls : List Lexeme} (h : Lexer.lex text = .ok ls)
    {l : Lexeme} (hl : l ∈ literals ls) :
    ∃ before after, text = before ++ '"' :: after ∧ Text.bytes before = l.span.start := by
  obtain ⟨hmem, hstr⟩ := List.mem_filter.1 hl
  obtain ⟨before, after, htext, hbytes, -⟩ :=
    ((Lexer.lexFrom_ok_iff.1 h).tiling).spelled l hmem
  rcases l with ⟨token, span⟩
  cases token with
  | str content => exact ⟨before, _, htext, hbytes⟩
  | _ => cases hstr

theorem parseText_eq_ok {path : String} {text : List Char} {p : Parsed}
    (h : parseText path text = .ok p) :
    p.text = text ∧ Lexer.lex text = .ok p.lexemes ∧ parse p.lexemes = .ok p.firings := by
  unfold parseText at h
  split at h
  · cases h
  · next lexemes hlex =>
    split at h
    · cases h
    · next firings hparse =>
      cases h
      exact ⟨rfl, hlex, hparse⟩

theorem Grammar.Denial.diagnostic_at {denial : Denial} {text before after : List Char}
    (htext : text = before ++ after) (hbytes : Text.bytes before = denial.span.start)
    (file : String) :
    denial.diagnostic file text =
      { kind := .resourceError, file, position := some (Position.after before),
        message := denial.error.message } := by
  rw [Denial.diagnostic, ← hbytes, htext, Diagnostic.atOffset, Position.ofOffset_append]

/-- A compilation of a parsed text ends as the calls for its requests do, and it makes just these
calls. -/
theorem compile_of_parsed (resolver : Resolver σ) {settings : Settings} {path source : String}
    {text : List Char} {d : DocumentTree}
    (h : parseSource settings path source = .ok ⟨text, d.lexemes, d.firings⟩) (host : σ)
    (earlier : List Call) :
    let asked := ask resolver path d.requests host
    ∃ result, compile resolver settings path source host = (result, asked.host) ∧
      compile resolver.recording settings path source (host, earlier) =
        (result, asked.host, earlier ++ asked.calls) ∧
      match asked.denial with
      | none => ∃ document, result = .ok document
      | some denial => result = .error (denial.diagnostic path text) := by
  intro asked
  have hasks := d.asks resolver path host earlier
  have hrun : ∀ {τ : Type} (r : Resolver τ) (s : τ), compile r settings path source s =
      outcome path text ((d.translate r path).run s) := by
    intro τ r s
    rw [compile, h]
    exact assemble_eq_outcome r d path text d.lexemes s
  rw [hrun, hrun]
  cases hdenial : asked.denial with
  | none =>
    simp only [show (ask resolver path d.requests host).denial = none from hdenial] at hasks
    obtain ⟨document, hplain, hrec⟩ := hasks
    exact ⟨.ok document, by rw [hplain]; rfl, by rw [hrec]; rfl, document, rfl⟩
  | some denial =>
    simp only [show (ask resolver path d.requests host).denial = some denial from hdenial] at hasks
    obtain ⟨hplain, hrec⟩ := hasks
    exact ⟨.error (denial.diagnostic path text), by rw [hplain]; rfl, by rw [hrec]; rfl, rfl⟩

/-- **A compilation asks for the string literals of its text, once each and in order, and stops after
the first call that fails.** A text that is not parsed leads to no call. Otherwise the requests of
the one derivation of the text are asked for from the first one on: all of them, or up to the first
one that is denied. Then the diagnostic has the words of the resolver, at the quote that opens the
literal. -/
theorem compile_asks_requests_in_order (resolver : Resolver σ) (settings : Settings)
    (path source : String) (host : σ) :
    ∃ result last cs,
      compile resolver settings path source host = (result, last) ∧
      compile resolver.recording settings path source (host, []) = (result, last, cs) ∧
      (∀ e, parseSource settings path source = .error e →
        result = .error e ∧ last = host ∧ cs = []) ∧
      ∀ p, parseSource settings path source = .ok p →
        ∃ (d : DocumentTree) (asked later : List Grammar.Request),
          (d.lexemes = p.lexemes ∧ ∀ d' : DocumentTree, d'.lexemes = p.lexemes → d' = d) ∧
          d.requests.map Grammar.Request.lexeme = literals p.lexemes ∧
          d.requests = asked ++ later ∧ Serves resolver path host asked cs last ∧
          ((later = [] ∧ (∀ c ∈ cs, ¬ c.Fails) ∧ ∃ document, result = .ok document) ∨
            ∃ granted r front c e before after, asked = granted ++ [r] ∧ cs = front ++ [c] ∧
              (∀ c ∈ front, ¬ c.Fails) ∧ c.answer = .error e ∧
              p.text = before ++ '"' :: after ∧ Text.bytes before = r.literal.span.start ∧
              result = .error
                { kind := .resourceError, file := path, position := some (Position.after before),
                  message := e.message }) := by
  cases hparse : parseSource settings path source with
  | error e =>
    refine ⟨.error e, host, [], by rw [compile, hparse], by rw [compile, hparse], ?_, ?_⟩
    · intro e' he'
      cases he'
      exact ⟨rfl, rfl, rfl⟩
    · intro p hp
      cases hp
  | ok p =>
    obtain ⟨d, rfl⟩ := tree_of_parseText hparse
    obtain ⟨result, hplain, hrec, hend⟩ := compile_of_parsed resolver hparse host []
    obtain ⟨asked, later, hsplit, hserves, hending⟩ := ask_serves resolver path d.requests host
    refine ⟨result, _, _, hplain, hrec, ?_, ?_⟩
    · intro e he
      cases he
    · intro p hp
      cases hp
      refine ⟨d, asked, later, ⟨rfl, fun d' hd' => DocumentTree.lexemes_injective hd'⟩,
        d.literals_lexemes.symm, hsplit, hserves, ?_⟩
      cases hending with
      | granted _ hlater hdenial hcalls =>
        rw [hdenial] at hend
        exact .inl ⟨hlater, hcalls, hend⟩
      | denied before r front c denial hdenial hcalls hfront hanswer hspan =>
        rw [hdenial] at hend
        have hliteral : r.lexeme ∈ literals d.lexemes := by
          rw [d.literals_lexemes]
          exact List.mem_map_of_mem (by simp [hsplit])
        obtain ⟨left, right, htext, hbytes⟩ :=
          quote_of_literal (parseText_eq_ok hparse).2.1 hliteral
        have hstart : Text.bytes left = denial.span.start := hbytes.trans (by rw [hspan]; rfl)
        refine .inr ⟨before, r, front, c, denial.error, left, right, rfl, hcalls, hfront, hanswer,
          htext, hbytes, ?_⟩
        rw [hend, denial.diagnostic_at htext hstart]

/-- `SetUniform t` misses its value, and of the three literals of
`Shader "a" SetUniform t "b" Shader "c"` the second one is denied by a resolver without textures. -/
theorem compile_stops_at_missing_texture :
    let resolver : Resolver Nat :=
      { locate := fun _ reference _ => reference,
        load := fun
          | .shader, _, n => (.ok ⟨n⟩, n + 1)
          | .texture, path, n => (.error (.notFound .texture path), n + 1) }
    let unfinished := "SetUniform t"
    let source := "Shader \"a\"\nSetUniform t \"b\" Shader \"c\""
    let a : Grammar.Request := ⟨.shader, "a", 7, 10⟩
    let b : Grammar.Request := ⟨.texture, "b", 24, 27⟩
    let c : Grammar.Request := ⟨.shader, "c", 35, 38⟩
    let d : DocumentTree := ⟨[.option (.shader ⟨⟨0, 6⟩, none⟩ a.literal),
      .uniform ⟨⟨11, 21⟩, ⟨"t", 22, 23⟩, .texture b.literal⟩,
      .option (.shader ⟨⟨28, 34⟩, none⟩ c.literal)]⟩
    let missing : ResourceError := .notFound .texture "b"
    let cs : List Call := [⟨.shader, "a", .ok ⟨0⟩⟩, ⟨.texture, "b", .error missing⟩]
    (∃ e, parseSource {} "x.mat" unfinished = .error e ∧
      compile resolver {} "x.mat" unfinished 0 = (.error e, 0)) ∧
    parseSource {} "x.mat" source = .ok ⟨source.toList, d.lexemes, d.firings⟩ ∧
      compile resolver.recording {} "x.mat" source (0, []) =
        (.error ⟨.resourceError, "x.mat", some ⟨1, 13⟩, missing.message⟩, 2, cs) ∧
      ∃ asked later, [a, b, c] = asked ++ later ∧ Serves resolver "x.mat" 0 asked cs 2 := by
  intro resolver unfinished source a b c d missing cs
  have hlex : Lexer.lex source.toList = .ok d.lexemes := Lexer.lex_eq_ok (by decide +kernel)
  have hparse : parseSource {} "x.mat" source = .ok ⟨source.toList, d.lexemes, d.firings⟩ := by
    have hfirings : parse d.lexemes = .ok d.firings := parse_iff_tree.2 ⟨d, rfl, rfl⟩
    have htext : (sourceText {} source).1 = source.toList := by decide +kernel
    rw [parseSource, htext, parseText, hlex]
    dsimp only
    rw [hfirings]
  have hcalls : compile resolver.recording {} "x.mat" source (0, []) =
      (.error ⟨.resourceError, "x.mat", some ⟨1, 13⟩, missing.message⟩, 2, cs) := by
    have hposition : Position.ofOffset source.toList 24 = ⟨1, 13⟩ := by decide +kernel
    rw [compile, hparse, ← hposition]
    exact assemble_eq_outcome resolver.recording d "x.mat" source.toList d.lexemes (0, [])
  refine ⟨?_, hparse, hcalls, ?_⟩
  · obtain ⟨e, he⟩ : ∃ e, parseSource {} "x.mat" unfinished = .error e := by
      have hfail : (parseSource {} "x.mat" unfinished).toOption = none := by decide +kernel
      cases hresult : parseSource {} "x.mat" unfinished with
      | error e => exact ⟨e, rfl⟩
      | ok p => rw [hresult] at hfail; cases hfail
    obtain ⟨result, last, cs', hplain, -, hrejected, -⟩ :=
      compile_asks_requests_in_order resolver {} "x.mat" unfinished 0
    obtain ⟨rfl, rfl, -⟩ := hrejected e he
    exact ⟨e, he, hplain⟩
  · obtain ⟨result, last, cs', -, hrec, -, hparsed⟩ :=
      compile_asks_requests_in_order resolver {} "x.mat" source 0
    obtain ⟨d', asked, later, ⟨hd', -⟩, -, hrequests, hserves, -⟩ := hparsed _ hparse
    obtain rfl := DocumentTree.lexemes_injective hd'
    rw [hcalls] at hrec
    cases hrec
    exact ⟨asked, later, hrequests, hserves⟩

end MaterialScript
