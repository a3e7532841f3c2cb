import Mathlib.Data.List.DropRight
import MaterialScript.Proofs.Assembly.Steps
import MaterialScript.Proofs.Lexing.Excerpt

/-!
# Where firings come from

Each firing of a document is the begin or the end of a scope, or belongs to a statement. Its span
reaches from the start of one lexeme to the stop of another. What completes a statement comes right
after the literals of that statement, and these come after a firing that hands over nothing.

* `StatementTree` : an option or a uniform; `StatementTree.leading`, `StatementTree.completion` : what
  it fires, literals first (`StatementTree.firings_eq`);
* `Literal`, `Covered` : firings of one lexeme, and spans of several ones; `StatementTree.covered`;
* `trailing` : the firings at the end of a row that only hand over values;
* `Origin ls before f` : a firing after others comes from lexemes among `ls`;
* `Traced ls fs` : all firings of a row do; `Traced.append`, `Traced.flatMap` : rows one after the
  other; one lemma for each production up to `DocumentTree.traced`;
* `Origin.covered`, `Origin.completion`, `Origin.value` : what follows for a firing of each kind.
-/

namespace MaterialScript.Grammar

/-! ## Statements -/

/-- An option or a uniform. -/
abbrev StatementTree := Item Empty

def StatementTree.lexemes : StatementTree → List Lexeme := Item.lexemes Empty.elim

def StatementTree.firings : StatementTree → List Firing := Item.firings Empty.elim

def StatementTree.document : StatementTree → DocumentTree
  | .option o => ⟨[.option o]⟩
  | .uniform u => ⟨[.uniform u]⟩

theorem StatementTree.document_lexemes (s : StatementTree) : s.document.lexemes = s.lexemes := by
  cases s with
  | option o => exact List.append_nil _
  | uniform u => exact List.append_nil _
  | nested n => exact n.elim

theorem StatementTree.document_firings (s : StatementTree) : s.document.firings = s.firings := by
  cases s with
  | option o => exact List.append_nil _
  | uniform u => exact List.append_nil _
  | nested n => exact n.elim

/-! ## Literals and what uses them up -/

def ValueTree.leading : ValueTree → List Firing
  | scalar x => [x.firing Numeral.action]
  | vec2 _ x _ y _ => [x.firing Numeral.action, y.firing Numeral.action]
  | vec3 _ x _ y _ z _ =>
    [x.firing Numeral.action, y.firing Numeral.action, z.firing Numeral.action]
  | vec4 _ x _ y _ z _ w _ =>
    [x.firing Numeral.action, y.firing Numeral.action, z.firing Numeral.action,
      w.firing Numeral.action]
  | texture path => [path.firing .string]

/-- The action that makes a value of its literals. -/
def ValueTree.action : ValueTree → Action
  | scalar _ => .uniformFloat
  | vec2 .. => .uniformVec2
  | vec3 .. => .uniformVec3
  | vec4 .. => .uniformVec4
  | texture _ => .uniformTexture

def ValueTree.completion (v : ValueTree) : Firing := ⟨v.action, v.span⟩

theorem ValueTree.firings_eq (v : ValueTree) : v.firings = v.leading ++ [v.completion] := by
  cases v <;> rfl

def OptionTree.leading : OptionTree → List Firing
  | cullFace _ _ => []
  | blend _ value => value.literals
  | depthTest _ on | depthWrite _ on => [on.firing .bool]
  | shader _ path => [path.firing .string]

def OptionTree.completion : OptionTree → Firing
  | cullFace head face => ⟨.cullFaceOption face.value, head.word.through face.span⟩
  | blend head value => ⟨.blendOption value.enabled, head.word.through value.stop⟩
  | depthTest head on => ⟨.depthTestOption, head.word.through on.span⟩
  | depthWrite head on => ⟨.depthWriteOption, head.word.through on.span⟩
  | shader _ path => ⟨.shaderOption, path.span⟩

theorem OptionTree.firings_eq (o : OptionTree) : o.firings = o.leading ++ [o.completion] := by
  cases o <;> rfl

def UniformTree.leading (u : UniformTree) : List Firing :=
  u.name.firing .identifier :: u.value.leading

def UniformTree.completion (u : UniformTree) : Firing := ⟨.uniform, u.word.through u.value.span⟩

theorem UniformTree.firings_eq (u : UniformTree) :
    u.firings = u.leading ++ [u.value.completion] ++ [u.completion] := by
  unfold firings
  rw [u.value.firings_eq]
  rfl

def StatementTree.leading : StatementTree → List Firing
  | .option o => o.leading
  | .uniform u => u.leading ++ [u.value.completion]

def StatementTree.completion : StatementTree → Firing
  | .option o => o.completion
  | .uniform u => u.completion

theorem StatementTree.firings_eq (s : StatementTree) : s.firings = s.leading ++ [s.completion] := by
  cases s with
  | option o => exact o.firings_eq
  | uniform u => exact u.firings_eq
  | nested n => exact n.elim

/-- A firing that hands over the value of one lexeme. -/
structure Literal (ls : List Lexeme) (f : Firing) : Prop where
  lexeme : ∃ l ∈ ls, l.span = f.span
  pushes : ∃ stack, f.action.pushed? = some stack ∧ stack ≠ .uniforms

namespace Literal
variable {ls : List Lexeme} {f : Firing}

theorem mono {ls' : List Lexeme} (h : Literal ls f) (hls : ls <:+: ls') : Literal ls' f := by
  obtain ⟨⟨l, hl, hspan⟩, hpushes⟩ := h
  exact ⟨⟨l, hls.subset hl, hspan⟩, hpushes⟩

theorem pushed (h : Literal ls f) : f.action.pushed?.isSome = true := by
  obtain ⟨stack, hstack, -⟩ := h.pushes
  rw [hstack]
  rfl

theorem not_value (h : Literal ls f) : f.action.pushed? ≠ some .uniforms := by
  obtain ⟨stack, hstack, hne⟩ := h.pushes
  rw [hstack]
  exact fun heq => hne (Option.some.inj heq)

end Literal

theorem Located.literal {α : Type} {token : α → Token} {action : α → Action} {x : Located α}
    {ls : List Lexeme} {stack : Stack} (hlexeme : x.lexeme token ∈ ls)
    (hpushed : (action x.value).pushed? = some stack) (hstack : stack ≠ .uniforms) :
    Literal ls (x.firing action) :=
  ⟨⟨x.lexeme token, hlexeme, rfl⟩, stack, hpushed, hstack⟩

theorem ValueTree.literal (v : ValueTree) : ∀ f ∈ v.leading, Literal v.lexemes f := by
  have number {ls : List Lexeme} (x : Located Numeral) (hx : x.lexeme Numeral.token ∈ ls) :
      Literal ls (x.firing Numeral.action) := Located.literal hx rfl (by decide)
  have string {ls : List Lexeme} (x : Located String) (hx : x.lexeme .str ∈ ls) :
      Literal ls (x.firing .string) := Located.literal hx rfl (by decide)
  cases v <;> simp [leading, lexemes, number, string]

theorem OptionTree.literal (o : OptionTree) : ∀ f ∈ o.leading, Literal o.lexemes f := by
  have factor {ls : List Lexeme} (x : Located BlendFactor) (hx : x.lexeme factorToken ∈ ls) :
      Literal ls (x.firing .blendFactor) := Located.literal hx rfl (by decide)
  have switch {ls : List Lexeme} (x : Located Bool) (hx : x.lexeme switchToken ∈ ls) :
      Literal ls (x.firing .bool) := Located.literal hx rfl (by decide)
  have string {ls : List Lexeme} (x : Located String) (hx : x.lexeme .str ∈ ls) :
      Literal ls (x.firing .string) := Located.literal hx rfl (by decide)
  cases o with
  | blend head value =>
    cases value <;> simp [leading, lexemes, BlendTree.literals, BlendTree.lexemes, factor]
  | _ => simp [leading, lexemes, switch, string]

theorem UniformTree.value_infix (u : UniformTree) : u.value.lexemes <:+: u.lexemes :=
  ⟨[⟨.ident "SetUniform", u.word⟩, u.name.lexeme .ident], [], List.append_nil _⟩

theorem UniformTree.literal (u : UniformTree) : ∀ f ∈ u.leading, Literal u.lexemes f := by
  intro f hf
  rcases List.mem_cons.1 hf with rfl | hf
  · exact Located.literal (List.mem_cons_of_mem _ List.mem_cons_self) rfl (by decide)
  · exact (u.value.literal f hf).mono u.value_infix

theorem ValueTree.pushed?_completion (v : ValueTree) :
    v.completion.action.pushed? = some .uniforms := by
  cases v <;> rfl

/-! ## Spans -/

/-- A span is that of a piece of the lexemes. -/
def Covered (ls : List Lexeme) (s : Span) : Prop := ∃ piece, piece <:+: ls ∧ Spans piece s

theorem Covered.mono {ls ls' : List Lexeme} {s : Span} (h : Covered ls s) (hls : ls <:+: ls') :
    Covered ls' s := by
  obtain ⟨piece, hpiece, hspans⟩ := h
  exact ⟨piece, hpiece.trans hls, hspans⟩

theorem covered_of_mem {ls : List Lexeme} {l : Lexeme} (h : l ∈ ls) : Covered ls l.span := by
  obtain ⟨front, rest, rfl⟩ := List.append_of_mem h
  exact ⟨[l], ⟨front, rest, by simp⟩, ⟨l, rfl, rfl⟩, l, rfl, rfl⟩

theorem Literal.covered {ls : List Lexeme} {f : Firing} (h : Literal ls f) :
    Covered ls f.span := by
  obtain ⟨l, hl, hspan⟩ := h.lexeme
  rw [← hspan]
  exact covered_of_mem hl

theorem spans_through (xs ys : List Lexeme) {first last : Lexeme} (hfirst : xs.head? = some first)
    (hlast : ys.getLast? = some last) : Spans (xs ++ ys) (first.span.through last.span) := by
  refine ⟨⟨first, ?_, rfl⟩, last, ?_, rfl⟩
  · rw [List.head?_append, hfirst]
    rfl
  · rw [List.getLast?_append, hlast]
    rfl

theorem ValueTree.spans (v : ValueTree) : Spans v.lexemes v.span := by
  cases v <;> exact ⟨⟨_, rfl, rfl⟩, _, rfl, rfl⟩

/-- The span of an option is that of the whole statement, but for shaders. -/
theorem OptionTree.spans {o : OptionTree} (h : o.completion.action ≠ .shaderOption) :
    Spans o.lexemes o.completion.span := by
  cases o with
  | cullFace head face => exact spans_through (head.lexemes _) [face.lexeme faceToken] rfl rfl
  | blend head value =>
    cases value with
    | disabled off => exact spans_through (head.lexemes _) [⟨.ident "Disabled", off⟩] rfl rfl
    | factors src comma dst =>
      exact spans_through (head.lexemes _) (BlendTree.factors src comma dst).lexemes rfl rfl
  | depthTest head on => exact spans_through (head.lexemes _) [on.lexeme switchToken] rfl rfl
  | depthWrite head on => exact spans_through (head.lexemes _) [on.lexeme switchToken] rfl rfl
  | shader head path => exact absurd rfl h

theorem UniformTree.spans (u : UniformTree) : Spans u.lexemes u.completion.span := by
  obtain ⟨-, l, hlast, hstop⟩ := u.value.spans
  refine ⟨⟨_, rfl, rfl⟩, l, ?_, hstop⟩
  show (_ :: _ :: u.value.lexemes).getLast? = some l
  rw [List.getLast?_cons, List.getLast?_cons, hlast]
  rfl

/-! ## Firings of a statement -/

namespace StatementTree

theorem completes (s : StatementTree) : s.completion.action.completesStatement = true := by
  cases s with
  | option o => cases o <;> rfl
  | uniform u => rfl
  | nested n => exact n.elim

theorem pushed?_completion (s : StatementTree) : s.completion.action.pushed? = none :=
  pushed?_of_completesStatement s.completes

theorem pushed_of_mem_leading {s : StatementTree} {f : Firing} (hf : f ∈ s.leading) :
    f.action.pushed?.isSome = true := by
  cases s with
  | option o => exact (o.literal f hf).pushed
  | uniform u =>
    rcases List.mem_append.1 hf with hf | hf
    · exact (u.literal f hf).pushed
    · rw [List.mem_singleton.1 hf, u.value.pushed?_completion]
      rfl
  | nested n => exact n.elim

theorem spans {s : StatementTree} (h : s.completion.action ≠ .shaderOption) :
    Spans s.lexemes s.completion.span := by
  cases s with
  | option o => exact OptionTree.spans h
  | uniform u => exact u.spans
  | nested n => exact n.elim

theorem shader_of_completion {s : StatementTree} (h : s.completion.action = .shaderOption) :
    ∃ head path, s = .option (.shader head path) := by
  cases s with
  | option o =>
    cases o with
    | shader head path => exact ⟨head, path, rfl⟩
    | _ => cases h
  | uniform u => cases h
  | nested n => exact n.elim

theorem covered {s : StatementTree} {f : Firing} (hf : f ∈ s.firings) :
    Covered s.lexemes f.span := by
  rw [s.firings_eq] at hf
  rcases List.mem_append.1 hf with hf | hf
  · cases s with
    | option o => exact (o.literal f hf).covered
    | uniform u =>
      rcases List.mem_append.1 hf with hf | hf
      · exact (u.literal f hf).covered
      · obtain rfl := List.mem_singleton.1 hf
        exact ⟨u.value.lexemes, u.value_infix, u.value.spans⟩
    | nested n => exact n.elim
  · obtain rfl := List.mem_singleton.1 hf
    by_cases hshader : s.completion.action = .shaderOption
    · obtain ⟨head, path, rfl⟩ := shader_of_completion hshader
      have hpath : path.lexeme .str ∈ (OptionTree.shader head path).lexemes :=
        List.mem_append_right _ (List.mem_singleton_self _)
      exact covered_of_mem hpath
    · exact ⟨s.lexemes, List.infix_rfl, spans hshader⟩

theorem value {s : StatementTree} {f : Firing} {lits later : List Firing}
    (h : s.firings = lits ++ f :: later) (hf : f.action.pushed? = some .uniforms) :
    ∃ v : ValueTree, v.lexemes <:+: s.lexemes ∧ f = v.completion ∧ v.leading <:+ lits := by
  have hend : f ∉ [s.completion] := by
    intro hmem
    rw [List.mem_singleton.1 hmem, s.pushed?_completion] at hf
    cases hf
  cases s with
  | option o =>
    have hmem : f ∈ lits ++ f :: later := List.mem_append_right lits List.mem_cons_self
    rw [← h, firings_eq] at hmem
    rcases List.mem_append.1 hmem with hmem | hmem
    · exact absurd hf (o.literal f hmem).not_value
    · exact absurd hmem hend
  | uniform u =>
    have hleading : f ∉ u.leading := fun hmem => (u.literal f hmem).not_value hf
    have hsplit : u.leading ++ u.value.completion :: [u.completion] = lits ++ f :: later := by
      rw [← h, List.append_cons]
      exact u.firings_eq.symm
    obtain ⟨rfl, hvalue, -⟩ := (List.append_cons_inj_of_notMem hleading hend).1 hsplit
    exact ⟨u.value, u.value_infix, hvalue.symm, [u.name.firing .identifier], rfl⟩
  | nested n => exact n.elim

end StatementTree

/-! ## Rows of firings -/

/-- The firings at the end of a row that only hand over values. -/
def trailing (fs : List Firing) : List Firing := fs.rtakeWhile (·.action.pushed?.isSome)

theorem trailing_append {xs ys : List Firing} (hxs : trailing xs = [])
    (hys : ∀ f ∈ ys, f.action.pushed?.isSome = true) : trailing (xs ++ ys) = ys := by
  have hreverse : ∀ f ∈ ys.reverse, f.action.pushed?.isSome = true :=
    fun f hf => hys f (List.mem_reverse.1 hf)
  unfold trailing List.rtakeWhile at hxs ⊢
  rw [List.reverse_append, List.takeWhile_append_of_pos hreverse, List.reverse_append, hxs,
    List.nil_append, List.reverse_reverse]

theorem trailing_concat (xs : List Firing) {f : Firing} (hf : f.action.pushed? = none) :
    trailing (xs ++ [f]) = [] := by
  apply List.rtakeWhile_concat_neg
  rw [hf]
  exact Bool.false_ne_true

theorem trailing_append_of_nil {xs ys : List Firing} (hxs : trailing xs = []) :
    trailing (xs ++ ys) = trailing ys := by
  induction ys using List.reverseRecOn with
  | nil => rw [List.append_nil, hxs]; rfl
  | append_singleton ys f ih =>
    unfold trailing at ih ⊢
    rw [← List.append_assoc, List.rtakeWhile_concat, List.rtakeWhile_concat, ih]

/-- Where a firing that follows others comes from, in a document with given lexemes. -/
inductive Origin (ls : List Lexeme) (before : List Firing) (f : Firing) : Prop where
  /-- The begin or the end of a scope. -/
  | scope (hpushed : f.action.pushed? = none) (hcompletes : f.action.completesStatement = false)
      (hcovered : Covered ls f.span)
  /-- A firing of a statement. No literals of others are pending before the statement. -/
  | statement {s : StatementTree} {front lits later : List Firing} (hlexemes : s.lexemes <:+: ls)
      (hbefore : before = front ++ lits) (hfront : trailing front = [])
      (hfirings : s.firings = lits ++ f :: later)

theorem Origin.mono {ls ls' : List Lexeme} {before : List Firing} {f : Firing}
    (h : Origin ls before f) (hls : ls <:+: ls') {fs : List Firing} (hfs : trailing fs = []) :
    Origin ls' (fs ++ before) f := by
  cases h with
  | scope hpushed hcompletes hcovered => exact .scope hpushed hcompletes (hcovered.mono hls)
  | @statement s front lits later hlexemes hbefore hfront hfirings =>
    have hall : fs ++ before = fs ++ front ++ lits := by rw [hbefore, List.append_assoc]
    refine .statement (hlexemes.trans hls) hall ?_ hfirings
    rw [trailing_append_of_nil hfs, hfront]

/-- Every firing of a row comes from the lexemes, and no values are pending at its end. -/
structure Traced (ls : List Lexeme) (fs : List Firing) : Prop where
  origin : ∀ before f after, fs = before ++ f :: after → Origin ls before f
  settled : trailing fs = []

namespace Traced

theorem nil (ls : List Lexeme) : Traced ls [] :=
  ⟨fun _ _ _ h => absurd h.symm (List.append_ne_nil_of_right_ne_nil _ (List.cons_ne_nil _ _)), rfl⟩

theorem append {ls ls' : List Lexeme} {fs fs' : List Firing} (h : Traced ls fs)
    (h' : Traced ls' fs') : Traced (ls ++ ls') (fs ++ fs') := by
  refine ⟨fun before f after hfs => ?_, ?_⟩
  · rcases List.append_eq_append_iff.1 hfs with ⟨mid, rfl, hmid⟩ | ⟨mid, hmid, hafter⟩
    · exact (h'.origin mid f after hmid).mono (List.suffix_append ls ls').isInfix h.settled
    · cases mid with
      | nil =>
        rw [List.append_nil] at hmid
        subst hmid
        have horigin := (h'.origin [] f after hafter.symm).mono (List.suffix_append ls ls').isInfix
          h.settled
        rwa [List.append_nil] at horigin
      | cons g mid =>
        obtain ⟨rfl, -⟩ := List.cons.inj hafter
        have horigin : Origin (ls ++ ls') ([] ++ before) f :=
          (h.origin before f mid hmid).mono (List.prefix_append ls ls').isInfix rfl
        exact horigin
  · rw [trailing_append_of_nil h.settled, h'.settled]

theorem flatMap {T : Type} {lexemes : T → List Lexeme} {firings : T → List Firing}
    (h : ∀ t, Traced (lexemes t) (firings t)) (ts : List T) :
    Traced (ts.flatMap lexemes) (ts.flatMap firings) := by
  induction ts with
  | nil => exact nil []
  | cons t ts ih => exact (h t).append ih

theorem single {ls : List Lexeme} {f : Firing} (hpushed : f.action.pushed? = none)
    (hcompletes : f.action.completesStatement = false) (hspans : Spans ls f.span) :
    Traced ls [f] := by
  refine ⟨fun before g after hf => ?_, trailing_concat [] hpushed⟩
  obtain rfl : g = f := by
    have hg : g ∈ [f] := hf ▸ List.mem_append_right before List.mem_cons_self
    exact List.mem_singleton.1 hg
  exact .scope hpushed hcompletes ⟨ls, List.infix_rfl, hspans⟩

end Traced

/-! ## Trees -/

theorem StatementTree.traced (s : StatementTree) : Traced s.lexemes s.firings := by
  refine ⟨fun before f after hfs => ?_, ?_⟩
  · have hbefore : before = [] ++ before := rfl
    exact .statement List.infix_rfl hbefore rfl hfs
  · rw [s.firings_eq]
    exact trailing_concat _ s.pushed?_completion

section Scopes
variable {N : Type} {inner : N → List Lexeme} {fired : N → List Firing}

theorem Item.traced (h : ∀ n, Traced (inner n) (fired n)) (i : Item N) :
    Traced (i.lexemes inner) (i.firings fired) := by
  cases i with
  | option o => exact StatementTree.traced (.option o)
  | uniform u => exact StatementTree.traced (.uniform u)
  | nested n => exact h n

theorem ScopeTree.traced (keyword : String) {opening : Option String → Action} {closing : Action}
    (hopening : ∀ name, (opening name).pushed? = none ∧ (opening name).completesStatement = false)
    (hclosing : closing.pushed? = none ∧ closing.completesStatement = false)
    (h : ∀ n, Traced (inner n) (fired n)) (t : ScopeTree N) :
    Traced (t.lexemes keyword inner) (t.firings opening closing fired) := by
  obtain ⟨hpushed, hcompletes⟩ := hopening (t.name.map Located.value)
  have hbegin := Traced.single (f := ⟨opening _, t.word.through t.left⟩) hpushed hcompletes
    (spans_through (⟨.ident keyword, t.word⟩ :: (t.name.map (Located.lexeme .ident)).toList)
      [⟨.leftBrace, t.left⟩] rfl rfl)
  have hbody := Traced.flatMap (Item.traced h) t.body
  have hend : Traced [⟨.rightBrace, t.right⟩] [⟨closing, t.right⟩] :=
    Traced.single hclosing.1 hclosing.2 ⟨⟨_, rfl, rfl⟩, _, rfl, rfl⟩
  have hscope := (hbegin.append hbody).append hend
  unfold ScopeTree.lexemes ScopeTree.firings
  simpa using hscope

end Scopes

theorem PassTree.traced (t : PassTree) : Traced (PassTree.lexemes t) (PassTree.firings t) :=
  ScopeTree.traced "pass" (fun _ => ⟨rfl, rfl⟩) ⟨rfl, rfl⟩ (fun n => n.elim) t

theorem TechniqueTree.traced (t : TechniqueTree) :
    Traced (TechniqueTree.lexemes t) (TechniqueTree.firings t) :=
  ScopeTree.traced "technique" (fun _ => ⟨rfl, rfl⟩) ⟨rfl, rfl⟩ PassTree.traced t

/-- **Every firing of a document comes from its lexemes.** -/
theorem DocumentTree.traced (d : DocumentTree) : Traced d.lexemes d.firings :=
  Traced.flatMap (Item.traced TechniqueTree.traced) d.items

/-! ## Kinds of firings -/

namespace Origin
variable {ls : List Lexeme} {before : List Firing} {f : Firing}

theorem covered (h : Origin ls before f) : Covered ls f.span := by
  cases h with
  | scope _ _ hcovered => exact hcovered
  | @statement s front lits later hlexemes _ _ hfirings =>
    have hf : f ∈ s.firings := hfirings ▸ List.mem_append_right lits List.mem_cons_self
    exact (StatementTree.covered hf).mono hlexemes

theorem completion (h : Origin ls before f) (hf : f.action.completesStatement = true) :
    ∃ s : StatementTree, s.lexemes <:+: ls ∧ f = s.completion ∧ trailing before = s.leading := by
  cases h with
  | scope _ hcompletes _ => rw [hcompletes] at hf; cases hf
  | @statement s front lits later hlexemes hbefore hfront hfirings =>
    have hnot : f ∉ s.leading := by
      intro hmem
      have hpushed := StatementTree.pushed_of_mem_leading hmem
      rw [pushed?_of_completesStatement hf] at hpushed
      cases hpushed
    rw [s.firings_eq] at hfirings
    obtain ⟨rfl, hcompletion, -⟩ :=
      (List.append_cons_inj_of_notMem hnot List.not_mem_nil).1 hfirings
    refine ⟨s, hlexemes, hcompletion.symm, ?_⟩
    rw [hbefore]
    exact trailing_append hfront fun g hg => StatementTree.pushed_of_mem_leading hg

theorem value (h : Origin ls before f) (hf : f.action.pushed? = some .uniforms) :
    ∃ v : ValueTree, v.lexemes <:+: ls ∧ f = v.completion ∧ v.leading <:+ before := by
  cases h with
  | scope hpushed _ _ => rw [hpushed] at hf; cases hf
  | @statement s front lits later hlexemes hbefore hfront hfirings =>
    obtain ⟨v, hv, hvalue, hlits⟩ := StatementTree.value hfirings hf
    refine ⟨v, hv.trans hlexemes, hvalue, ?_⟩
    rw [hbefore]
    exact hlits.trans (List.suffix_append front lits)

end Origin

end MaterialScript.Grammar
